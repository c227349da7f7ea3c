import NesMachine.Proofs.Console.AddressTable

/-!
# Away from its devices the console is flat memory

Work RAM at its first place, the RAM of the cartridge and its ROM are plain memory. For as
long as a machine on the bus of the console calls nothing else, and writes to no ROM, it
goes on as it would on flat memory with the same bytes.
-/
namespace NesMachine

/-- The addresses of work RAM at its first place, of the cartridge's RAM and of its ROM. -/
def IsMemory (a : UInt16) : Prop := a < 0x0800 ∨ 0x6000 ≤ a

/-- Whether a call is one that flat memory would serve alike. -/
def Request.InMemory : Request → Prop
  | .read a => IsMemory a
  | .write a _ => a < 0x0800 ∨ 0x6000 ≤ a ∧ a < 0x8000

instance : DecidablePred IsMemory := fun a =>
  inferInstanceAs (Decidable (a < 0x0800 ∨ 0x6000 ≤ a))

instance : DecidablePred Request.InMemory
  | .read a => inferInstanceAs (Decidable (IsMemory a))
  | .write a _ => inferInstanceAs (Decidable (a < 0x0800 ∨ 0x6000 ≤ a ∧ a < 0x8000))

/-- Flat memory that holds what memory on the console's bus shows. -/
structure MatchesFlat (rom : Array UInt8) (r : Recorded ConsoleBus) (flat : FlatMemory) :
    Prop where
  fitted : r.bus.devices.Fitted rom
  bytes (a : UInt16) : IsMemory a → flat.get a = r.bus.peek a

namespace ConsoleBus

variable {cartridge : Cartridge} {bus : ConsoleBus}

/-- A byte of memory is turned over by no read. -/
theorem peek_read_memory (bus : ConsoleBus) (a : UInt16) {b : UInt16} (memory : IsMemory b) :
    (bus.read a).2.peek b = bus.peek b := by
  have plain : ¬ IsStatusMirror b := by
    apply not_isStatusMirror
    rcases memory with low | high
    · exact .inl (UInt16.lt_trans low (by decide))
    · exact .inr (UInt16.le_trans (by decide) high)
  rw [peek_read, if_neg fun mirrors => plain mirrors.2]

theorem peek_write_memory (fitted : bus.devices.Fitted cartridge.board.prgRom) {a : UInt16}
    {v : UInt8} (inside : (Request.write a v).InMemory) {b : UInt16} (memory : IsMemory b) :
    (bus.write a v).peek b = if a = b then v else bus.peek b := by
  have fitted' : (bus.write a v).devices.Fitted cartridge.board.prgRom :=
    fitted_serve fitted (.write a v)
  rcases memory with low | high
  · have ram : b < 0x2000 := UInt16.lt_trans low (by decide)
    have same : (a < 0x2000 ∧ a % 0x800 = b % 0x800) ↔ a = b := by
      rw [Request.InMemory] at inside
      grind
    rw [peek_write_workRam bus a v ram]
    simp only [same]
  · by_cases window : b < 0x8000
    · exact peek_write_cartridgeRam bus a v fitted ⟨high, window⟩
    · have rom : 0x8000 ≤ b := UInt16.not_lt.mp window
      have apart : a ≠ b := by
        rintro rfl
        rcases inside with low | ram
        · exact window (UInt16.lt_trans low (by decide))
        · exact window ram.2
      rw [peek_rom fitted' rom, if_neg apart, peek_rom fitted rom]

/-- Such memory answers as the bus does until a call leaves memory. -/
theorem simulates_flat (cartridge : Cartridge) : Bus.Simulates
    (fun r : Recorded ConsoleBus => ∀ t ∈ r.traffic, t.request.InMemory)
    (MatchesFlat cartridge.board.prgRom) where
  good_of_read a good := fun t made => good t (Array.mem_push_of_mem _ made)
  good_of_write a v good := fun t made => good t (Array.mem_push_of_mem _ made)
  read := by
    rintro ⟨bus, traffic⟩ flat a ⟨fitted, same⟩ good
    have inside : IsMemory a := good (.read a (bus.read a).1) (Array.mem_push_self ..)
    refine ⟨(same a inside).trans (bus.read_value a).symm, fitted_serve fitted (.read a), ?_⟩
    intro b memory
    exact (same b memory).trans (peek_read_memory bus a memory).symm
  write := by
    rintro ⟨bus, traffic⟩ flat a v ⟨fitted, same⟩ good
    have inside : (Request.write a v).InMemory := good (.write a v) (Array.mem_push_self ..)
    refine ⟨fitted_serve fitted (.write a v), ?_⟩
    intro b memory
    show (flat.set a v).get b = (bus.write a v).peek b
    rw [FlatMemory.get_set, peek_write_memory fitted inside memory, same b memory]

end ConsoleBus

/-- Flat memory with the bytes of a view. -/
def FlatMemory.ofView (view : View) : FlatMemory := ⟨Vector.ofFn fun i => view (.ofNat i)⟩

theorem FlatMemory.get_ofView (view : View) (a : UInt16) : (ofView view).get a = view a := by
  simp [get, ofView]

namespace Machine

/-- A machine on the console's bus that calls nothing but memory is one on flat memory. -/
theorem flat_away_from_devices {image : Array UInt8} {cartridge : Cartridge}
    (accepted : Cartridge.ofImage image = .ok cartridge) (strict : Bool) {flat : FlatMemory}
    (same : ∀ a, flat.get a = (ConsoleBus.powerOn cartridge strict).peek a)
    {commands : List Command}
    (inMemory : ∀ t ∈ ((powerOn (Recorded.start (ConsoleBus.powerOn cartridge strict))).after
      commands).bus.traffic, t.request.InMemory)
    {made : List Command} (begun : made <+: commands) :
    let console := (powerOn (ConsoleBus.powerOn cartridge strict)).after made
    let plain := (powerOn flat).after made
    plain.cpu.registers = console.cpu.registers ∧ plain.cpu.cycles = console.cpu.cycles ∧
      plain.cpu.halted = console.cpu.halted ∧
      ∀ a, IsMemory a → plain.bus.get a = console.bus.peek a := by
  intro console plain
  obtain ⟨rest, rfl⟩ := begun
  let off : Cpu := ⟨.powerOn, 0, false, none⟩
  let start : Recorded ConsoleBus := .start (.powerOn cartridge strict)
  have simulates := ConsoleBus.simulates_flat cartridge
  have recorded : console = ((powerOn start).after made).map Recorded.bus := by
    rw [← after_map, ← powerOn_map]
    rfl
  rw [after_append] at inMemory
  have good := good_of_after simulates inMemory
  have switchedOff : Alike (MatchesFlat cartridge.board.prgRom) ⟨off, start⟩ ⟨off, flat⟩ :=
    ⟨rfl, ConsoleBus.fitted_powerOn accepted strict, fun a _ => same a⟩
  have switchedOn := switchedOff.reset simulates (good_of_after simulates good)
  have alike := switchedOn.after simulates made good
  rw [recorded]
  exact ⟨alike.registers, alike.cycles, alike.halted, alike.bus.bytes⟩

/-- Some requests, and one instruction run from work RAM, which counts a byte there up. -/
def counting : List Command :=
  [.nmi, .irq, .write 0x0000 0xE6, .write 0x0001 0x10, .jump 0x0000, .step, .reset]

theorem flat_away_from_devices_counting :
    ((powerOn (FlatMemory.ofView (ConsoleBus.powerOn .trained true).peek)).after
      counting).cpu.registers =
        ((powerOn (ConsoleBus.powerOn .trained true)).after counting).cpu.registers ∧
    ((powerOn (FlatMemory.ofView (ConsoleBus.powerOn .trained true).peek)).after
      counting).bus.get 0x0010 = 1 := by
  have inMemory : ∀ t ∈ ((powerOn (Recorded.start (ConsoleBus.powerOn .trained true))).after
      counting).bus.traffic, t.request.InMemory := by decide +kernel
  have counted : ((powerOn (ConsoleBus.powerOn .trained true)).after counting).bus.peek 0x0010 =
      1 := by decide +kernel
  obtain ⟨registers, -, -, bytes⟩ := flat_away_from_devices Cartridge.ofImage_trainedImage true
    (FlatMemory.get_ofView _) inMemory (List.prefix_refl _)
  exact ⟨registers, (bytes 0x0010 (by decide)).trans counted⟩

end Machine
end NesMachine
