import NesMachine.Console.AddressMap
import NesMachine.Proofs.Bus.Dialogues
import NesMachine.Proofs.Console.Devices

/-!
# The devices are called within their bounds

The bus of the console with every index, every difference of addresses and every remainder
checked. No check fails, on whatever bus: the address map passes no address to a device that
lies below it, and the board looks for nothing in an empty memory.
-/
namespace NesMachine.Checked

def peekPicture (unit : PictureUnit) (number : UInt16) : Except Panic UInt8 := do
  let register ← index 8 (number.toNat % 8)
  if register = PictureUnit.status then
    return unit.registers[← index 8 2] &&& 0x1F ||| if unit.vblank then 0x80 else 0
  return unit.registers[register]

def writePicture (unit : PictureUnit) (number : UInt16) (v : UInt8) :
    Except Panic PictureUnit := do
  let register ← index 8 (number.toNat % 8)
  let registers := unit.registers.set (← index 8 2) (v &&& 0x1F)
  return { unit with
    registers := if register = PictureUnit.status then registers else registers.set register v
    writeToggle :=
      if register = PictureUnit.scroll ∨ register = PictureUnit.address then !unit.writeToggle
      else unit.writeToggle }

/-- The register of the sound unit at an address, counted from its first one. -/
def soundRegister (a : UInt16) : Except Panic (Fin 24) := do
  index 24 (← remainder (← difference a.toNat 0x4000) 24)

/-- Where a memory repeated from `start` on answers at an address. -/
def cell (memory : Array UInt8) (start : Nat) (a : UInt16) : Except Panic (Fin memory.size) := do
  index memory.size (← remainder (← difference a.toNat start) memory.size)

def peekBoard (board : Nrom) (a : UInt16) : Except Panic UInt8 := do
  if 0x6000 ≤ a ∧ a < 0x8000 ∧ !board.prgRam.isEmpty then
    return board.prgRam[← cell board.prgRam 0x6000 a]
  if 0x8000 ≤ a ∧ !board.prgRom.isEmpty then return board.prgRom[← cell board.prgRom 0x8000 a]
  return 0

def writeBoard (board : Nrom) (a : UInt16) (v : UInt8) : Except Panic (Bool × Nrom) := do
  if 0x6000 ≤ a ∧ a < 0x8000 ∧ !board.prgRam.isEmpty then
    let i ← cell board.prgRam 0x6000 a
    return (true, { board with prgRam := board.prgRam.set i v })
  return (false, board)

def peek (bus : ConsoleBus) (a : UInt16) : Except Panic UInt8 := do
  match Device.at a with
  | .workRam => return bus.ram.get (← index 2048 (a.toNat % 2048))
  | .picture => peekPicture bus.picture a
  | .sound => return bus.sound.registers.get (← soundRegister a)
  | .nobody => return 0
  | .cartridgeRam | .cartridgeRom => peekBoard bus.cartridge.board a

def read (bus : ConsoleBus) (a : UInt16) : Except Panic (UInt8 × ConsoleBus) := do
  match Device.at a with
  | .workRam => return (bus.ram.get (← index 2048 (a.toNat % 2048)), bus)
  | .picture =>
    return (← peekPicture bus.picture a, { bus with picture := (bus.picture.read a).2 })
  | .sound => return (bus.sound.registers.get (← soundRegister a), bus)
  | .nobody => return (0, bus.raise (.unmappedRead a))
  | .cartridgeRam =>
    if bus.cartridge.board.hasRam then return (← peekBoard bus.cartridge.board a, bus)
    return (0, bus.raise (.unmappedRead a))
  | .cartridgeRom => return (← peekBoard bus.cartridge.board a, bus)

def write (bus : ConsoleBus) (a : UInt16) (v : UInt8) : Except Panic ConsoleBus := do
  match Device.at a with
  | .workRam =>
    let i ← index 2048 (a.toNat % 2048)
    return { bus with ram := bus.ram.set i v i.isLt }
  | .picture => return { bus with picture := ← writePicture bus.picture a v }
  | .sound =>
    let i ← soundRegister a
    return { bus with sound := ⟨bus.sound.registers.set i v i.isLt⟩ }
  | .nobody => return bus.raise (.unmappedWrite a v)
  | .cartridgeRam =>
    if bus.cartridge.board.hasRam then
      let (_, board) ← writeBoard bus.cartridge.board a v
      return { bus with cartridge := { bus.cartridge with board } }
    return bus.raise (.unmappedWrite a v)
  | .cartridgeRom =>
    let (taken, board) ← writeBoard bus.cartridge.board a v
    let bus := { bus with cartridge := { bus.cartridge with board } }
    return if taken then bus else bus.raise (.romWrite a v)

/-- The bus of the console, which panics where a check fails. -/
def answers : Answers ConsoleBus := ⟨read, peek, write⟩

theorem peekPicture_eq (unit : PictureUnit) (number : UInt16) :
    peekPicture unit number = .ok (unit.peek number) := by
  rw [peekPicture, index_of_lt (Nat.mod_lt _ (by decide)), index_of_lt (by decide)]
  show (if PictureUnit.select number = PictureUnit.status then _ else _) = _
  unfold PictureUnit.peek
  split <;> rfl

theorem writePicture_eq (unit : PictureUnit) (number : UInt16) (v : UInt8) :
    writePicture unit number v = .ok (unit.write number v) := by
  rw [writePicture, index_of_lt (Nat.mod_lt _ (by decide)), index_of_lt (by decide)]
  rfl

theorem soundRegister_eq {a : UInt16} (sound : Device.at a = .sound) :
    soundRegister a = .ok (SoundUnit.select a) := by
  have above : 0x4000 ≤ a := (Device.at_sound.mp sound).1
  have low : 0x4000 ≤ a.toNat := UInt16.le_iff_toNat_le.mp above
  have offset : (a - 0x4000).toNat = a.toNat - 0x4000 := UInt16.toNat_sub_of_le _ _ above
  rw [soundRegister, difference_of_le low, ok_bind, remainder_of_pos (by decide), ok_bind,
    index_of_lt (Nat.mod_lt _ (by decide))]
  simp only [SoundUnit.select, offset]

theorem exists_cell {memory : Array UInt8} (nonempty : (!memory.isEmpty) = true) {start : Nat}
    {a : UInt16} (above : start ≤ a.toNat) : ∃ i, cell memory start a = .ok i ∧
      i.val = (a.toNat - start) % memory.size := by
  have positive : 0 < memory.size := by
    rwa [Bool.not_eq_true', Array.isEmpty_eq_false_iff, ← Array.size_pos_iff] at nonempty
  refine ⟨⟨_, Nat.mod_lt _ positive⟩, ?_, rfl⟩
  rw [cell, difference_of_le above, ok_bind, remainder_of_pos positive, ok_bind,
    index_of_lt (Nat.mod_lt _ positive)]

theorem byteAt_cell {memory : Array UInt8} (nonempty : (!memory.isEmpty) = true) {start : Nat}
    {a : UInt16} (above : start ≤ a.toNat) :
    (do return memory[← cell memory start a]) =
      (.ok (Nrom.byteAt memory (a.toNat - start)) : Except Panic UInt8) := by
  obtain ⟨i, found, place⟩ := exists_cell nonempty above
  have inside : (a.toNat - start) % memory.size < memory.size := place ▸ i.isLt
  rw [found, ok_bind, Nrom.byteAt, Array.getD, dif_pos inside]
  simp only [← place]
  rfl

theorem byteAt_empty {memory : Array UInt8} (empty : ¬ (!memory.isEmpty) = true) (offset : Nat) :
    Nrom.byteAt memory offset = 0 := by
  obtain rfl : memory = #[] := by simpa using empty
  rfl

/-- The board shows a byte of a memory in its window, and zero where it has none. -/
theorem peekBoard_eq (board : Nrom) (a : UInt16) : peekBoard board a = .ok (board.peek a) := by
  unfold peekBoard Nrom.peek
  by_cases low : a < 0x6000
  · have below : ¬ 0x6000 ≤ a ∧ ¬ 0x8000 ≤ a :=
      ⟨UInt16.not_le.mpr low, UInt16.not_le.mpr (UInt16.lt_trans low (by decide))⟩
    rw [if_neg fun h => below.1 h.1, if_neg fun h => below.2 h.1, if_pos low]
    rfl
  · have above : 0x6000 ≤ a := UInt16.not_lt.mp low
    rw [if_neg low]
    by_cases window : a < 0x8000
    · have noRom : ¬ 0x8000 ≤ a := UInt16.not_le.mpr window
      rw [if_pos window, if_neg (c := 0x8000 ≤ a ∧ _) fun h => noRom h.1]
      by_cases ram : (!board.prgRam.isEmpty) = true
      · rw [if_pos ⟨above, window, ram⟩]
        exact byteAt_cell ram (UInt16.le_iff_toNat_le.mp above)
      · rw [if_neg fun h => ram h.2.2, byteAt_empty ram]
        rfl
    · have high : 0x8000 ≤ a := UInt16.not_lt.mp window
      rw [if_neg window, if_neg fun h => window h.2.1]
      by_cases rom : (!board.prgRom.isEmpty) = true
      · rw [if_pos ⟨high, rom⟩]
        exact byteAt_cell rom (UInt16.le_iff_toNat_le.mp high)
      · rw [if_neg fun h => rom h.2, byteAt_empty rom]
        rfl

theorem writeBoard_eq (board : Nrom) (a : UInt16) (v : UInt8) :
    writeBoard board a v = .ok (board.write a v) := by
  unfold writeBoard Nrom.write
  by_cases window : 0x6000 ≤ a ∧ a < 0x8000 ∧ (!board.prgRam.isEmpty) = true
  · have above : 0x6000 ≤ a.toNat := UInt16.le_iff_toNat_le.mp window.1
    obtain ⟨i, found, place⟩ := exists_cell window.2.2 above
    have same : board.prgRam.setIfInBounds i v = board.prgRam.set i v := dif_pos i.isLt
    rw [if_pos window, if_pos (by exact window), found, ok_bind, ← same, place]
    rfl
  · rw [if_neg window, if_neg (by exact window)]
    rfl

theorem peek_eq (bus : ConsoleBus) (a : UInt16) : peek bus a = .ok (bus.peek a) := by
  unfold peek ConsoleBus.peek
  cases place : Device.at a with
  | workRam =>
    dsimp only
    rw [index_of_lt (Nat.mod_lt _ (by decide))]
    rfl
  | picture => exact peekPicture_eq bus.picture a
  | sound =>
    dsimp only
    rw [soundRegister_eq place]
    rfl
  | nobody => rfl
  | cartridgeRam | cartridgeRom => exact peekBoard_eq bus.cartridge.board a

theorem read_eq (bus : ConsoleBus) (a : UInt16) : read bus a = .ok (bus.read a) := by
  unfold read ConsoleBus.read
  cases place : Device.at a with
  | workRam =>
    dsimp only
    rw [index_of_lt (Nat.mod_lt _ (by decide))]
    rfl
  | picture =>
    dsimp only
    rw [peekPicture_eq]
    rfl
  | sound =>
    dsimp only
    rw [soundRegister_eq place]
    rfl
  | nobody => rfl
  | cartridgeRam =>
    dsimp only
    rw [peekBoard_eq]
    split <;> rfl
  | cartridgeRom =>
    dsimp only
    rw [peekBoard_eq]
    rfl

theorem write_eq (bus : ConsoleBus) (a : UInt16) (v : UInt8) :
    write bus a v = .ok (bus.write a v) := by
  unfold write ConsoleBus.write
  cases place : Device.at a with
  | workRam =>
    dsimp only
    rw [index_of_lt (Nat.mod_lt _ (by decide))]
    rfl
  | picture =>
    dsimp only
    rw [writePicture_eq]
    rfl
  | sound =>
    dsimp only
    rw [soundRegister_eq place]
    rfl
  | nobody => rfl
  | cartridgeRam =>
    dsimp only
    rw [writeBoard_eq]
    split <;> rfl
  | cartridgeRom =>
    dsimp only
    rw [writeBoard_eq]
    rfl

/-- No check fails. -/
theorem answers_eq : answers = Bus.answers ConsoleBus := by
  unfold answers Bus.answers
  congr
  · funext bus a
    exact read_eq bus a
  · funext bus a
    exact peek_eq bus a
  · funext bus a v
    exact write_eq bus a v

end NesMachine.Checked
