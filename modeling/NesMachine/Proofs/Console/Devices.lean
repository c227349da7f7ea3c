import NesMachine.Console.AddressMap
import NesMachine.Proofs.Cartridge.BoardMemory

/-!
# The devices behind the console's bus

The devices alone make a bus that knows no faults. The bus of the console corresponds to it,
strict or lenient: no device sees whether an access was a fault. With a board that fills its
window with RAM, as boards made from images do, a fault can be told from the access.
-/
namespace NesMachine

namespace Device

theorem at_workRam {a : UInt16} : Device.at a = .workRam ↔ a < 0x2000 := by
  unfold Device.at
  grind

theorem at_picture {a : UInt16} : Device.at a = .picture ↔ 0x2000 ≤ a ∧ a < 0x4000 := by
  unfold Device.at
  grind

theorem at_sound {a : UInt16} : Device.at a = .sound ↔ 0x4000 ≤ a ∧ a < 0x4018 := by
  unfold Device.at
  grind

theorem at_nobody {a : UInt16} : Device.at a = .nobody ↔ 0x4018 ≤ a ∧ a < 0x6000 := by
  unfold Device.at
  grind

theorem at_cartridgeRam {a : UInt16} : Device.at a = .cartridgeRam ↔ 0x6000 ≤ a ∧ a < 0x8000 := by
  unfold Device.at
  grind

theorem at_cartridgeRom {a : UInt16} : Device.at a = .cartridgeRom ↔ 0x8000 ≤ a := by
  unfold Device.at
  grind

end Device

namespace Nrom

theorem peek_of_noRam {board : Nrom} (h : board.hasRam = false) {a : UInt16}
    (window : 0x6000 ≤ a ∧ a < 0x8000) : board.peek a = 0 := by
  have empty : board.prgRam = #[] := by simpa [hasRam] using h
  rw [peek_of_ram _ window, empty]
  simp [byteAt]

theorem write_of_noRam {board : Nrom} (h : board.hasRam = false) (a : UInt16) (v : UInt8) :
    board.write a v = (false, board) := by
  simp [write, h]

/-- The board takes no byte outside the window of its RAM. -/
theorem write_elsewhere (board : Nrom) {a : UInt16} (elsewhere : Device.at a ≠ .cartridgeRam)
    (v : UInt8) : board.write a v = (false, board) := by
  rw [write, if_neg]
  rintro ⟨above, below, -⟩
  exact elsewhere (Device.at_cartridgeRam.mpr ⟨above, below⟩)

end Nrom

structure Devices where
  ram : Vector UInt8 2048
  picture : PictureUnit
  sound : SoundUnit
  cartridge : Cartridge

def ConsoleBus.devices (bus : ConsoleBus) : Devices :=
  ⟨bus.ram, bus.picture, bus.sound, bus.cartridge⟩

namespace Devices

/-- A lenient bus with these devices on it. -/
def plugged (d : Devices) : ConsoleBus :=
  ⟨d.ram, d.picture, d.sound, d.cartridge, false, none, #[]⟩

instance : Bus Devices where
  read d a := ((d.plugged.read a).1, (d.plugged.read a).2.devices)
  peek d a := d.plugged.peek a
  write d a v := (d.plugged.write a v).devices

/-- The board fills its window with RAM and holds this ROM. -/
structure Fitted (rom : Array UInt8) (d : Devices) : Prop where
  ram : d.cartridge.board.prgRam.size = 0x2000
  rom : d.cartridge.board.prgRom = rom

theorem Fitted.hasRam {rom : Array UInt8} {d : Devices} (fitted : Fitted rom d) :
    d.cartridge.board.hasRam := Nrom.hasRam_of_filled fitted.ram

end Devices

namespace ConsoleBus

@[simp] theorem devices_raise (bus : ConsoleBus) (fault : BusFault) :
    (bus.raise fault).devices = bus.devices := by
  unfold raise
  split <;> rfl

@[simp] theorem devices_plugged (d : Devices) : d.plugged.devices = d := rfl

theorem devices_read (bus : ConsoleBus) (a : UInt16) :
    Bus.read bus.devices a = ((bus.read a).1, (bus.read a).2.devices) := by
  have board : bus.devices.plugged.cartridge = bus.cartridge := rfl
  simp only [Bus.read]
  cases place : Device.at a with
  | workRam | picture | sound | cartridgeRom =>
    simp only [read, place]
    rfl
  | nobody => simp only [read, place, devices_raise, devices_plugged]
  | cartridgeRam =>
    simp only [read, place, board]
    split
    · rfl
    · simp only [devices_raise, devices_plugged]

theorem devices_write (bus : ConsoleBus) (a : UInt16) (v : UInt8) :
    Bus.write bus.devices a v = (bus.write a v).devices := by
  have board : bus.devices.plugged.cartridge = bus.cartridge := rfl
  simp only [Bus.write]
  cases place : Device.at a with
  | workRam | picture | sound =>
    simp only [write, place]
    rfl
  | nobody => simp only [write, place, devices_raise, devices_plugged]
  | cartridgeRam =>
    simp only [write, place, board]
    split
    · rfl
    · simp only [devices_raise, devices_plugged]
  | cartridgeRom =>
    have elsewhere : Device.at a ≠ .cartridgeRam := by simp [place]
    have refused := bus.cartridge.board.write_elsewhere elsewhere v
    simp only [write, place, writeBoard, board, refused, Bool.false_eq_true, if_false,
      devices_raise]
    rfl

instance : Bus.Respects devices where
  peek _ _ := rfl
  read bus a := devices_read bus a
  write bus a v := devices_write bus a v

theorem cartridge_raise (bus : ConsoleBus) (fault : BusFault) :
    (bus.raise fault).cartridge = bus.cartridge :=
  congrArg Devices.cartridge (devices_raise bus fault)

theorem cartridge_read (bus : ConsoleBus) (a : UInt16) :
    (bus.read a).2.cartridge = bus.cartridge := by
  unfold read
  cases Device.at a with
  | workRam | picture | sound | cartridgeRom => rfl
  | nobody => exact bus.cartridge_raise (.unmappedRead a)
  | cartridgeRam =>
    dsimp only
    split
    · rfl
    · exact bus.cartridge_raise (.unmappedRead a)

/-- ROM is read without any effect. -/
theorem read_rom (bus : ConsoleBus) {a : UInt16} (rom : 0x8000 ≤ a) :
    bus.read a = (bus.peek a, bus) := by
  have place := Device.at_cartridgeRom.mpr rom
  simp only [read, peek, place, Nrom.read]

theorem board_write (bus : ConsoleBus) (a : UInt16) (v : UInt8) :
    (bus.write a v).cartridge.board = (bus.cartridge.board.write a v).2 := by
  by_cases window : Device.at a = .cartridgeRam
  · cases fitted : bus.cartridge.board.hasRam with
    | true => simp [write, window, fitted, writeBoard]
    | false => simp [write, window, fitted, Nrom.write_of_noRam fitted, cartridge_raise]
  · rw [bus.cartridge.board.write_elsewhere window]
    cases place : Device.at a with
    | workRam | picture | sound => simp [write, place]
    | nobody => simp [write, place, cartridge_raise]
    | cartridgeRam => exact absurd place window
    | cartridgeRom =>
      simp [write, place, writeBoard, bus.cartridge.board.write_elsewhere window, cartridge_raise]

end ConsoleBus

instance (rom : Array UInt8) : Bus.Keeps (Devices.Fitted rom) where
  read {d} a fitted := by
    have same : (Bus.read d a).2.cartridge = d.cartridge := d.plugged.cartridge_read a
    exact ⟨same ▸ fitted.ram, same ▸ fitted.rom⟩
  write {d} a v fitted := by
    have same : (Bus.write d a v).cartridge.board = (d.cartridge.board.write a v).2 :=
      d.plugged.board_write a v
    obtain ⟨prgRam, changed, size⟩ := d.cartridge.board.exists_prgRam_write a v
    rw [changed] at same
    exact ⟨by rw [same, size, fitted.ram], by rw [same, fitted.rom]⟩

/-- The fault that an access is, on a board whose window is filled with RAM. -/
def Request.fault? : Request → Option BusFault
  | .read a => if 0x4018 ≤ a ∧ a < 0x6000 then some (.unmappedRead a) else none
  | .write a v =>
    if 0x4018 ≤ a ∧ a < 0x6000 then some (.unmappedWrite a v)
    else if 0x8000 ≤ a then some (.romWrite a v)
    else none

namespace ConsoleBus

@[simp] theorem strict_raise (bus : ConsoleBus) (fault : BusFault) :
    (bus.raise fault).strict = bus.strict := by
  unfold raise
  split <;> rfl

theorem fault_raise (bus : ConsoleBus) (fault : BusFault) :
    (bus.raise fault).fault = if bus.strict then bus.fault.or (some fault) else bus.fault := by
  unfold raise
  split <;> rfl

theorem fitted_serve {rom : Array UInt8} {bus : ConsoleBus} (fitted : bus.devices.Fitted rom)
    (request : Request) : (Bus.serve bus request).devices.Fitted rom := by
  rw [← Bus.serve_map devices]
  exact Bus.keeps_serve fitted request

/-- An access that is a fault does nothing but to raise it. -/
theorem serve_of_fault (bus : ConsoleBus) {request : Request} {fault : BusFault}
    (h : request.fault? = some fault) : Bus.serve bus request = bus.raise fault := by
  cases request with
  | read a =>
    obtain ⟨nobody, rfl⟩ : (0x4018 ≤ a ∧ a < 0x6000) ∧ .unmappedRead a = fault := by
      simpa [Request.fault?] using h
    show (bus.read a).2 = _
    rw [read, Device.at_nobody.mpr nobody]
  | write a v =>
    show bus.write a v = _
    by_cases nobody : 0x4018 ≤ a ∧ a < 0x6000
    · obtain rfl : .unmappedWrite a v = fault := by simpa [Request.fault?, nobody] using h
      rw [write, Device.at_nobody.mpr nobody]
    · obtain ⟨rom, rfl⟩ : 0x8000 ≤ a ∧ .romWrite a v = fault := by
        simpa only [Request.fault?, if_neg nobody, Option.ite_none_right_eq_some,
          Option.some.injEq] using h
      have place := Device.at_cartridgeRom.mpr rom
      have elsewhere : Device.at a ≠ .cartridgeRam := by simp [place]
      have refused := bus.cartridge.board.write_elsewhere elsewhere v
      simp [write, writeBoard, place, refused]

/-- What a bus tells about faults. -/
def reports (bus : ConsoleBus) : Bool × Option BusFault × Array BusFault :=
  (bus.strict, bus.fault, bus.ignored)

/-- An access that is no fault leaves no trace of one. -/
theorem reports_serve {rom : Array UInt8} {bus : ConsoleBus} (fitted : bus.devices.Fitted rom)
    {request : Request} (h : request.fault? = none) :
    (Bus.serve bus request).reports = bus.reports := by
  have ram : bus.cartridge.board.hasRam = true := fitted.hasRam
  cases request with
  | read a =>
    have mapped : ¬ (0x4018 ≤ a ∧ a < 0x6000) := by simpa [Request.fault?] using h
    show (bus.read a).2.reports = _
    cases place : Device.at a with
    | nobody => exact absurd (Device.at_nobody.mp place) mapped
    | workRam | picture | sound | cartridgeRam | cartridgeRom => simp [read, place, ram, reports]
  | write a v =>
    show (bus.write a v).reports = _
    cases place : Device.at a with
    | nobody => simp [Request.fault?, Device.at_nobody.mp place] at h
    | workRam | picture | sound | cartridgeRam =>
      simp [write, writeBoard, place, ram, reports]
    | cartridgeRom =>
      have rom := Device.at_cartridgeRom.mp place
      simp only [Request.fault?, if_pos rom] at h
      split at h <;> cases h

/-- An access leaves a bus as strict as it was, and a strict bus keeps the fault that the
access is unless it has kept another. -/
theorem fault_serve {rom : Array UInt8} {bus : ConsoleBus} (fitted : bus.devices.Fitted rom)
    (request : Request) : (Bus.serve bus request).strict = bus.strict ∧
      (Bus.serve bus request).fault =
        if bus.strict then bus.fault.or request.fault? else bus.fault := by
  cases found : request.fault? with
  | some fault =>
    rw [serve_of_fault bus found]
    exact ⟨strict_raise bus fault, fault_raise bus fault⟩
  | none =>
    have same := reports_serve fitted found
    rw [Option.or_none, ite_self]
    exact ⟨congrArg Prod.fst same, congrArg (·.2.1) same⟩

theorem fault_serveAll {rom : Array UInt8} {bus : ConsoleBus} (fitted : bus.devices.Fitted rom)
    (requests : List Request) : (Bus.serveAll bus requests).strict = bus.strict ∧
      (Bus.serveAll bus requests).fault =
        if bus.strict then bus.fault.or (requests.filterMap Request.fault?).head?
        else bus.fault := by
  induction requests generalizing bus with
  | nil => simp
  | cons request rest ih =>
    have once := fault_serve fitted request
    obtain ⟨restStrict, restFault⟩ := ih (fitted_serve fitted request)
    rw [Bus.serveAll_cons, restStrict, restFault, once.1, once.2]
    refine ⟨rfl, ?_⟩
    cases bus.strict with
    | false => rfl
    | true => cases found : request.fault? <;> simp [found]

end ConsoleBus
end NesMachine
