import NesMachine.Proofs.Console.FaultReports

/-!
# The memory behind the address map

Between the devices the address map makes a memory: a byte of RAM or of the sound unit is
the last one written there or to one of its mirrors, and zero before; where nobody answers
there are zeros, and above them lies the image, whatever is written. Reads show what peeks
show, and turn over one bit at the mirrors of the status register and nothing else.
-/
namespace NesMachine

namespace PictureUnit

theorem turned (byte : UInt8) :
    (byte &&& 0x1F ||| 0x80 = (byte &&& 0x1F) ^^^ 0x80) ∧
      (byte &&& 0x1F = (byte &&& 0x1F ||| 0x80) ^^^ 0x80) := by
  have bits : ∀ bits : BitVec 8, (bits &&& 0x1F#8 ||| 0x80#8 = (bits &&& 0x1F#8) ^^^ 0x80#8) ∧
      (bits &&& 0x1F#8 = (bits &&& 0x1F#8 ||| 0x80#8) ^^^ 0x80#8) := by decide
  obtain ⟨shown, hidden⟩ := bits byte.toBitVec
  exact ⟨UInt8.eq_of_toBitVec_eq shown, UInt8.eq_of_toBitVec_eq hidden⟩

/-- A read of the status register turns over its highest bit. -/
theorem peek_read (unit : PictureUnit) (a b : UInt16) : (unit.read a).2.peek b =
    if select a = status ∧ select b = status then unit.peek b ^^^ 0x80 else unit.peek b := by
  by_cases ha : select a = status
  · by_cases hb : select b = status
    · cases shown : unit.vblank with
      | false => simp [read, peek, ha, hb, shown, (turned _).1]
      | true => simp [read, peek, ha, hb, shown, ← (turned _).2]
    · simp [read, peek, ha, hb]
  · simp [read, ha]

end PictureUnit

namespace SoundUnit

theorem select_inj {a b : UInt16} (ha : 0x4000 ≤ a ∧ a < 0x4018) (hb : 0x4000 ≤ b ∧ b < 0x4018) :
    select a = select b ↔ a = b := by
  have number {c : UInt16} (hc : 0x4000 ≤ c ∧ c < 0x4018) :
      (select c).val = c.toNat - 0x4000 ∧ 0x4000 ≤ c.toNat := by
    obtain ⟨above, below⟩ := hc
    rw [UInt16.le_iff_toNat_le] at above
    rw [UInt16.lt_iff_toNat_lt] at below
    have low : 0x4000 ≤ c.toNat := above
    have high : c.toNat < 0x4018 := below
    have offset : (c - 0x4000).toNat = c.toNat - 0x4000 :=
      UInt16.toNat_sub_of_le _ _ (UInt16.le_iff_toNat_le.mpr above)
    refine ⟨?_, low⟩
    show (c - 0x4000).toNat % 24 = _
    rw [offset, Nat.mod_eq_of_lt (by omega)]
  rw [Fin.ext_iff, ← UInt16.toNat_inj]
  have first := number ha
  have second := number hb
  omega

end SoundUnit

/-- The addresses at which the status register of the picture unit answers. -/
def IsStatusMirror (a : UInt16) : Prop := 0x2000 ≤ a ∧ a < 0x4000 ∧ a % 8 = 2

instance : DecidablePred IsStatusMirror := fun a =>
  inferInstanceAs (Decidable (0x2000 ≤ a ∧ a < 0x4000 ∧ a % 8 = 2))

theorem isStatusMirror_iff (a : UInt16) :
    IsStatusMirror a ↔ Device.at a = .picture ∧ PictureUnit.select a = PictureUnit.status := by
  have number : PictureUnit.select a = PictureUnit.status ↔ a % 8 = 2 := by
    rw [PictureUnit.select, PictureUnit.status, Fin.ext_iff, ← UInt16.toNat_inj, UInt16.toNat_mod]
    rfl
  rw [IsStatusMirror, Device.at_picture, number, and_assoc]

theorem not_isStatusMirror {a : UInt16} (elsewhere : a < 0x2000 ∨ 0x4000 ≤ a) :
    ¬ IsStatusMirror a := by
  rintro ⟨above, below, -⟩
  rcases elsewhere with low | high
  · exact UInt16.not_lt.mpr above low
  · exact UInt16.not_lt.mpr high below

namespace ConsoleBus

/-- A read gives what a peek has shown. -/
theorem read_value (bus : ConsoleBus) (a : UInt16) : (bus.read a).1 = bus.peek a := by
  cases place : Device.at a with
  | workRam | picture | sound | nobody | cartridgeRom =>
    simp [read, peek, place, Nrom.read, PictureUnit.read]
  | cartridgeRam =>
    cases fitted : bus.cartridge.board.hasRam with
    | true => simp [read, peek, place, fitted, Nrom.read]
    | false =>
      have nothing := Nrom.peek_of_noRam fitted (Device.at_cartridgeRam.mp place)
      simp [read, peek, place, fitted, nothing]

theorem peek_of_devices {bus other : ConsoleBus} (same : bus.devices = other.devices) :
    bus.peek = other.peek := by
  show Bus.peek bus.devices = Bus.peek other.devices
  rw [same]

@[simp] theorem peek_raise (bus : ConsoleBus) (fault : BusFault) :
    (bus.raise fault).peek = bus.peek := peek_of_devices (devices_raise bus fault)

theorem peek_withPicture (bus : ConsoleBus) (picture : PictureUnit) (b : UInt16) :
    ({ bus with picture } : ConsoleBus).peek b =
      if Device.at b = .picture then picture.peek b else bus.peek b := by
  cases place : Device.at b <;> simp [peek, place]

/-- Reading changes what peeks show at the mirrors of the status register, and there only. -/
theorem peek_read (bus : ConsoleBus) (a b : UInt16) : (bus.read a).2.peek b =
    if IsStatusMirror a ∧ IsStatusMirror b then bus.peek b ^^^ 0x80 else bus.peek b := by
  simp only [isStatusMirror_iff]
  cases place : Device.at a with
  | picture =>
    have turned : (bus.read a).2 = { bus with picture := (bus.picture.read a).2 } := by
      simp [read, place]
    rw [turned, peek_withPicture, PictureUnit.peek_read]
    by_cases there : Device.at b = .picture
    · simp [there, peek]
    · simp [there]
  | workRam | sound | nobody | cartridgeRom => simp [read, place]
  | cartridgeRam => cases fitted : bus.cartridge.board.hasRam <;> simp [read, place, fitted]

theorem ramCell_eq_iff {a b : UInt16} : ramCell a = ramCell b ↔ a % 0x800 = b % 0x800 := by
  rw [ramCell, ramCell, Fin.mk.injEq, ← UInt16.toNat_inj, UInt16.toNat_mod, UInt16.toNat_mod]
  rfl

/-- A write to another device changes neither work RAM nor the sound unit. -/
theorem write_elsewhere (bus : ConsoleBus) (a : UInt16) (v : UInt8) :
    (Device.at a ≠ .workRam → (bus.write a v).ram = bus.ram) ∧
      (Device.at a ≠ .sound → (bus.write a v).sound = bus.sound) := by
  have raised (fault : BusFault) : (bus.raise fault).ram = bus.ram ∧
      (bus.raise fault).sound = bus.sound :=
    ⟨congrArg Devices.ram (devices_raise bus fault),
      congrArg Devices.sound (devices_raise bus fault)⟩
  cases place : Device.at a with
  | workRam | picture | sound => simp [write, place]
  | nobody => simp [write, place, raised]
  | cartridgeRam =>
    cases fitted : bus.cartridge.board.hasRam <;> simp [write, place, fitted, raised, writeBoard]
  | cartridgeRom =>
    have refused := bus.cartridge.board.write_elsewhere (a := a) (by simp [place]) v
    simp [write, place, writeBoard, refused, raised]

section Written

variable (bus : ConsoleBus) {a : UInt16} (b : UInt16) (v : UInt8)

theorem peek_write_workRam (ram : a < 0x2000) : (bus.write b v).peek a =
    if b < 0x2000 ∧ b % 0x800 = a % 0x800 then v else bus.peek a := by
  have here := Device.at_workRam.mpr ram
  simp only [← Device.at_workRam, ← ramCell_eq_iff, peek, here]
  by_cases there : Device.at b = .workRam
  · simp [write, there, Vector.getElem_set, Fin.ext_iff]
  · simp [(bus.write_elsewhere b v).1 there, there]

theorem peek_write_sound (sound : 0x4000 ≤ a ∧ a < 0x4018) :
    (bus.write b v).peek a = if b = a then v else bus.peek a := by
  have here := Device.at_sound.mpr sound
  simp only [peek, here]
  by_cases there : Device.at b = .sound
  · have same : SoundUnit.select b = SoundUnit.select a ↔ b = a :=
      SoundUnit.select_inj (Device.at_sound.mp there) sound
    simp only [write, there, SoundUnit.peek, SoundUnit.write, ← same]
    simp [Vector.getElem_set, Fin.ext_iff]
  · have apart : b ≠ a := by
      rintro rfl
      exact there here
    rw [(bus.write_elsewhere b v).2 there, if_neg apart]

theorem peek_write_cartridgeRam {rom : Array UInt8} (fitted : bus.devices.Fitted rom)
    (window : 0x6000 ≤ a ∧ a < 0x8000) :
    (bus.write b v).peek a = if b = a then v else bus.peek a := by
  have here := Device.at_cartridgeRam.mpr window
  have shown (bus : ConsoleBus) : bus.peek a = bus.cartridge.board.peek a := by simp [peek, here]
  rw [shown, shown, board_write]
  have filled : bus.cartridge.board.prgRam.size = 0x2000 := fitted.ram
  rw [Nrom.peek_write _ window]
  simp only [Nrom.shares_iff_of_filled filled window]

end Written

theorem peek_serveAll {rom : Array UInt8} {here : UInt16 → Prop} [DecidablePred here] {a : UInt16}
    (once : ∀ bus : ConsoleBus, bus.devices.Fitted rom → ∀ b v,
      (bus.write b v).peek a = if here b then v else bus.peek a)
    (plain : ¬ IsStatusMirror a) {bus : ConsoleBus} (fitted : bus.devices.Fitted rom)
    (requests : List Request) : (Bus.serveAll bus requests).peek a =
      (requests.filterMap (Request.writtenAt? here)).getLastD (bus.peek a) := by
  have keeps : Bus.Keeps fun bus : ConsoleBus => bus.devices.Fitted rom :=
    ⟨fun b kept => fitted_serve kept (.read b), fun b v kept => fitted_serve kept (.write b v)⟩
  refine Bus.peek_serveAll_of_writes ?_ once fitted requests
  intro bus b
  show (bus.read b).2.peek a = bus.peek a
  rw [peek_read, if_neg fun mirrors => plain mirrors.2]

theorem peek_powerOn {image : Array UInt8} {cartridge : Cartridge}
    (accepted : Cartridge.ofImage image = .ok cartridge) (strict : Bool) {a : UInt16}
    (below : a < 0x8000) : (powerOn cartridge strict).peek a = 0 := by
  cases place : Device.at a with
  | workRam => simp [peek, place, powerOn]
  | picture => simp [peek, place, powerOn, PictureUnit.peek, PictureUnit.powerOn]
  | sound => simp [peek, place, powerOn, SoundUnit.peek, SoundUnit.powerOn]
  | nobody => simp [peek, place]
  | cartridgeRam =>
    have window := Device.at_cartridgeRam.mp place
    have shown : (powerOn cartridge strict).peek a = cartridge.board.peek a := by
      simp [peek, place, powerOn]
    rw [shown, Cartridge.peek_ram_of_ofImage accepted window]
  | cartridgeRom => exact absurd below (UInt16.not_lt.mpr (Device.at_cartridgeRom.mp place))

theorem peek_rom {bus : ConsoleBus} {cartridge : Cartridge}
    (fitted : bus.devices.Fitted cartridge.board.prgRom) {a : UInt16} (rom : 0x8000 ≤ a) :
    bus.peek a = cartridge.board.peek a := by
  have same : bus.cartridge.board.prgRom = cartridge.board.prgRom := fitted.rom
  have shown : bus.peek a = bus.cartridge.board.peek a := by
    simp only [peek, Device.at_cartridgeRom.mpr rom]
  rw [shown, Nrom.peek_of_rom _ rom, Nrom.peek_of_rom _ rom, same]

end ConsoleBus

namespace Console

theorem pc_reset (c : Console) : c.reset.pc = wordOf (c.peek 0xFFFC) (c.peek 0xFFFD) := by
  have same := congrArg Prod.snd (c.machine.bus.read_rom (a := 0xFFFC) (by decide))
  have pc : c.reset.pc = wordOf (c.machine.bus.read 0xFFFC).1
      ((c.machine.bus.read 0xFFFC).2.read 0xFFFD).1 := rfl
  rw [pc, same, ConsoleBus.read_value, ConsoleBus.read_value, peek, peek]

/-- However often it is pressed, reset goes to where the image says. -/
theorem pc_resets {settings : Settings} {cartridge : Cartridge}
    (accepted : Cartridge.ofImage settings.image = .ok cartridge) (commands : List Command)
    (k : Nat) : ((switchedOn settings cartridge).after
        (commands ++ List.replicate (k + 1) .reset)).pc =
      wordOf (cartridge.board.peek 0xFFFC) (cartridge.board.peek 0xFFFD) := by
  have fitted := keeps_after (fitted_switchedOn accepted) (commands ++ List.replicate k .reset)
  rw [List.replicate_succ', ← List.append_assoc, after_append]
  generalize (switchedOn settings cartridge).after (commands ++ List.replicate k .reset) = c at *
  show c.reset.pc = _
  have shown {a : UInt16} (rom : 0x8000 ≤ a) : c.peek a = cartridge.board.peek a :=
    ConsoleBus.peek_rom fitted rom
  rw [pc_reset, shown (by decide), shown (by decide)]

end Console

namespace ConsoleBus

/-- The bus is the memory that its address map promises. -/
theorem memory_of_requests {image : Array UInt8} {cartridge : Cartridge}
    (accepted : Cartridge.ofImage image = .ok cartridge) :
    (∀ strict requests,
      let bus := Bus.serveAll (powerOn cartridge strict) requests
      (∀ a < 0x2000,
        bus.peek a = lastWritten (fun b => b < 0x2000 ∧ b % 0x800 = a % 0x800) requests) ∧
      (∀ a, 0x4000 ≤ a ∧ a < 0x4018 ∨ 0x6000 ≤ a ∧ a < 0x8000 →
        bus.peek a = lastWritten (fun b => b = a) requests) ∧
      (∀ a, 0x4018 ≤ a ∧ a < 0x6000 → bus.peek a = 0) ∧
      (∀ a, 0x8000 ≤ a → image[Cartridge.romIndex image a]? = some (bus.peek a))) ∧
    (∀ (bus : ConsoleBus) (a : UInt16), (bus.read a).1 = bus.peek a ∧
      ∀ b, (bus.read a).2.peek b =
        if IsStatusMirror a ∧ IsStatusMirror b then bus.peek b ^^^ 0x80 else bus.peek b) ∧
    (∀ settings c commands k, settings.image = image → Console.powerOn settings = .ok c →
      let pc := (c.after (commands ++ List.replicate (k + 1) .reset)).pc
      image[Cartridge.romIndex image 0xFFFC]? = some (lowByte pc) ∧
        image[Cartridge.romIndex image 0xFFFD]? = some (highByte pc)) := by
  refine ⟨?_, ?_, ?_⟩
  · intro strict requests bus
    have begun := fitted_powerOn accepted strict
    have fitted : bus.devices.Fitted cartridge.board.prgRom := by
      rw [← Bus.serveAll_map devices]
      exact Bus.keeps_serveAll begun requests
    refine ⟨?_, ?_, ?_, ?_⟩
    · intro a ram
      have below : a < 0x8000 := UInt16.lt_trans ram (by decide)
      rw [lastWritten, ← peek_powerOn accepted strict below]
      exact peek_serveAll (fun bus _ b v => peek_write_workRam bus b v ram)
        (not_isStatusMirror (.inl ram)) begun requests
    · rintro a (sound | window)
      · have below : a < 0x8000 := UInt16.lt_trans sound.2 (by decide)
        rw [lastWritten, ← peek_powerOn accepted strict below]
        exact peek_serveAll (fun bus _ b v => peek_write_sound bus b v sound)
          (not_isStatusMirror (.inr sound.1)) begun requests
      · have above : 0x4000 ≤ a := UInt16.le_trans (by decide) window.1
        rw [lastWritten, ← peek_powerOn accepted strict window.2]
        exact peek_serveAll (fun bus fitted b v => peek_write_cartridgeRam bus b v fitted window)
          (not_isStatusMirror (.inr above)) begun requests
    · intro a unmapped
      simp only [peek, Device.at_nobody.mpr unmapped]
    · intro a rom
      rw [peek_rom fitted rom]
      exact Cartridge.rom_of_ofImage accepted rom
  · intro bus a
    exact ⟨bus.read_value a, bus.peek_read a⟩
  · rintro settings c commands k rfl on pc
    rw [Console.powerOn_of_ofImage accepted, Except.ok.injEq] at on
    subst on
    have started : pc = _ := Console.pc_resets accepted commands k
    rw [started, lowByte_wordOf, highByte_wordOf]
    exact ⟨Cartridge.rom_of_ofImage accepted (by decide),
      Cartridge.rom_of_ofImage accepted (by decide)⟩

theorem memory_of_requests_mirrored :
    ∃ cartridge, Cartridge.ofImage Cartridge.trainedImage = .ok cartridge ∧
      let bus := Bus.serveAll (powerOn cartridge true)
        [.write 0x0801 0xAB, .write 0xBFFD 0x07, .write 0x4016 0x33, .read 0x2002]
      bus.peek 0x1801 = 0xAB ∧ bus.peek 0x4016 = 0x33 ∧ bus.peek 0x7FFF = 0 ∧
        bus.peek 0xBFFD = 0x80 := by
  obtain ⟨cartridge, accepted⟩ := Cartridge.exists_ofImage_trainedImage
  obtain ⟨mirrored, own, -, rom⟩ := (memory_of_requests accepted).1 true
    [.write 0x0801 0xAB, .write 0xBFFD 0x07, .write 0x4016 0x33, .read 0x2002]
  have vector : Cartridge.trainedImage[Cartridge.romIndex Cartridge.trainedImage 0xBFFD]? =
      some 0x80 := by
    have index : Cartridge.romIndex Cartridge.trainedImage 0xBFFD = 528 + 0x3FFD :=
      Cartridge.romIndex_trainedImage 0xBFFD
    rw [index, Cartridge.getElem?_trainedImage (by omega),
      Array.getElem?_append_right (by rw [Array.size_replicate]; omega), Array.size_replicate]
    rfl
  refine ⟨cartridge, accepted, ?_, ?_, ?_, ?_⟩
  · rw [mirrored 0x1801 (by decide)]
    rfl
  · rw [own 0x4016 (by decide)]
    rfl
  · rw [own 0x7FFF (by decide)]
    rfl
  · exact Option.some.inj ((rom 0xBFFD (by decide)).symm.trans vector)

end ConsoleBus
end NesMachine
