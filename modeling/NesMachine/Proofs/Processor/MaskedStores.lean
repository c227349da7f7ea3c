import NesMachine.Proofs.Processor.EffectiveAddress
import NesMachine.Proofs.Processor.InstructionDependence
import NesMachine.Proofs.Processor.StepTraffic

/-!
# Masked stores

Five opcodes store a byte that is masked with the high byte of the unindexed address plus one.
When the index leaves the page, the masked byte takes the place of the high byte of the address as
well. Here is, in numbers, what they write and where; the unindexed address, which the processor
only gets back from the indexed one, is the word that the index was added to.
-/
namespace NesMachine

/-- The opcodes of the masked stores, with their modes. -/
def maskedStores : List (UInt8 × Mnemonic × Mode) := [
  (0x9F, .ahx, .absoluteY), (0x93, .ahx, .indirectIndexed), (0x9B, .tas, .absoluteY),
  (0x9E, .shx, .absoluteY), (0x9C, .shy, .absoluteX)]

theorem mem_maskedStores_iff (opcode : UInt8) (mnemonic : Mnemonic) (mode : Mode) :
    (opcode, mnemonic, mode) ∈ maskedStores ↔
      (Instruction.decode opcode).mnemonic = mnemonic ∧ (Instruction.decode opcode).mode = mode ∧
        mnemonic ∈ [Mnemonic.ahx, .tas, .shx, .shy] :=
  Instruction.mem_iff_decode (by decide +kernel) (by decide +kernel) opcode mnemonic mode

theorem cycles_of_maskedStore {opcode : UInt8} {mnemonic : Mnemonic} {mode : Mode}
    (listed : (opcode, mnemonic, mode) ∈ maskedStores) :
    (Instruction.decode opcode).cycles = if mode = .indirectIndexed then 6 else 5 :=
  have column : ∀ entry ∈ maskedStores, (Instruction.decode entry.1).cycles =
      if entry.2.2 = .indirectIndexed then 6 else 5 := by decide +kernel
  column _ listed

/-- What a masked store is given, as numbers. -/
structure MaskedStore where
  /-- The address before the index is added. -/
  base : Nat
  index : Nat
  /-- The byte before it is masked. -/
  value : Nat
  deriving DecidableEq, Repr

namespace MaskedStore

variable (store : MaskedStore)

def address : Nat := (store.base + store.index) % 65536

def byte : Nat := store.value &&& (store.base / 256 + 1) % 256

/-- Where the byte goes: to the indexed address, or to its place on the page that the byte names if
the index leads to another page. -/
def target : Nat :=
  if store.address / 256 = store.base / 256 then store.address
  else store.byte * 256 + store.address % 256

end MaskedStore

/-- The masked store of an instruction: its base is the operand word, or the word that its operand
byte points at in page zero. -/
def Machine.maskedStore (m : Machine FlatMemory) (mnemonic : Mnemonic) (mode : Mode) :
    MaskedStore :=
  let r := m.cpu.registers
  let operands := { r with pc := r.pc + 1 }
  { base := if mode = .indirectIndexed then Mode.pointedWord m.bus operands
      else Mode.nextWord m.bus operands
    index := (if mode = .absoluteX then r.x else r.y).toNat
    value := (mnemonic.storedByte r).toNat }

/-! The byte and the address in numbers. -/

section

variable (base : UInt16) (index value : UInt8)

theorem toNat_maskedByte : (maskedByte (base + index.toUInt16) index value).toNat =
    MaskedStore.byte ⟨base.toNat, index.toNat, value.toNat⟩ := by
  have next : (highByte base + 1).toNat = (base.toNat / 256 + 1) % 256 := by
    rw [UInt8.toNat_add, toNat_highByte]
    rfl
  rw [maskedByte, UInt16.add_sub_cancel, UInt8.toNat_and, next]
  rfl

theorem toNat_maskedAddress : (maskedAddress (base + index.toUInt16) index value).toNat =
    MaskedStore.target ⟨base.toNat, index.toNat, value.toNat⟩ := by
  have crossed : pageCrossed base (base + index.toUInt16) = true ↔
      ¬(base.toNat + index.toNat) % 65536 / 256 = base.toNat / 256 := (leavesPage_iff base index).symm
  rw [maskedAddress, UInt16.add_sub_cancel, MaskedStore.target, MaskedStore.address]
  by_cases same : (base.toNat + index.toNat) % 65536 / 256 = base.toNat / 256
  · rw [if_neg (mt crossed.mp (not_not_intro same)), if_pos same, toNat_add_index]
  · rw [if_pos (crossed.mpr same), if_neg same, toNat_wordOf, toNat_maskedByte, toNat_lowByte,
      toNat_add_index]

end

theorem Mode.operand_of_indexing {view : View} {r : Registers} {start base : UInt16}
    {index : UInt8} {mode : Mode} (indexed : mode.indexing view r start = some (base, index)) :
    mode.operand view r start = .memory (base + index.toUInt16) := by
  cases mode <;> cases indexed <;> rfl

/-- The index that an operation takes away again is the one that its mode has added. -/
theorem Mnemonic.action_of_maskedStore {opcode : UInt8} {mnemonic : Mnemonic} {mode : Mode}
    (listed : (opcode, mnemonic, mode) ∈ maskedStores) :
    ∃ index value update, mnemonic.action = .storeMasked index value update ∧
      ∀ r : Registers, value r = mnemonic.storedByte r ∧
        index r = (if mode = .absoluteX then r.x else r.y) ∧
        update r = { r with s := if mnemonic = .tas then r.a &&& r.x else r.s } ∧
        ∀ view start, mode.indexing view r start =
          some (if mode = .indirectIndexed then Bus.peekZeroPageWord view (view start)
            else Bus.peekWord view start, index r) := by
  simp only [maskedStores, List.mem_cons, Prod.mk.injEq, List.not_mem_nil, or_false] at listed
  rcases listed with ⟨-, rfl, rfl⟩ | ⟨-, rfl, rfl⟩ | ⟨-, rfl, rfl⟩ | ⟨-, rfl, rfl⟩ | ⟨-, rfl, rfl⟩ <;>
    exact ⟨_, _, _, rfl, fun r => ⟨rfl, rfl, rfl, fun view start => rfl⟩⟩

def Request.isWrite : Request → Bool
  | .read _ => false
  | .write .. => true

/-- Until it acts on its operand, an instruction only reads. -/
theorem filter_isWrite_stepEffect (view : View) (r : Registers) :
    let i := Instruction.decode (view r.pc)
    (stepEffect view r).requests.filter Request.isWrite =
      (i.mnemonic.action.effect view { r with pc := i.mode.afterOperand (r.pc + 1) }
        (i.mode.operand view r (r.pc + 1))).requests.filter Request.isWrite := by
  intro i
  have reads : (i.mode.effect view r (r.pc + 1) i.mnemonic.access).requests.filter
      Request.isWrite = [] := by
    refine List.filter_eq_nil_iff.mpr fun request made => ?_
    cases request with
    | read a => exact Bool.false_ne_true
    | write a v => exact absurd made (Mode.write_notMem_requests view r _ _ _ a v)
  rw [stepEffect, Instruction.effect, Effect.requests_andThen, Effect.requests_andThen,
    List.filter_append, List.filter_append, reads]
  rfl

/-- Reads leave a flat memory as it is. -/
theorem FlatMemory.serveAll_filter_isWrite (memory : FlatMemory) (requests : List Request) :
    Bus.serveAll memory (requests.filter Request.isWrite) = Bus.serveAll memory requests := by
  induction requests generalizing memory with
  | nil => rfl
  | cons request rest ih => cases request <;> exact ih _

theorem Mode.afterOperand_add_one (pc : UInt16) (mode : Mode) :
    mode.afterOperand (pc + 1) = pc + UInt16.ofNat mode.size := by
  cases mode <;> simp only [afterOperand, size] <;> grind

/-- The step of a masked store, as an effect: what it writes, what it leaves in the registers and
how long it takes. -/
theorem stepEffect_of_maskedStore (view : View) (r : Registers) {mnemonic : Mnemonic} {mode : Mode}
    (listed : (view r.pc, mnemonic, mode) ∈ maskedStores) :
    let start := r.pc + 1
    let base := if mode = .indirectIndexed then Bus.peekZeroPageWord view (view start)
      else Bus.peekWord view start
    let index := if mode = .absoluteX then r.x else r.y
    let value := mnemonic.storedByte r
    let address := base + index.toUInt16
    (stepEffect view r).requests.filter Request.isWrite =
        [.write (maskedAddress address index value) (maskedByte address index value)] ∧
      (stepEffect view r).registers = { r with
        pc := r.pc + UInt16.ofNat mode.size
        s := if mnemonic = .tas then r.a &&& r.x else r.s } ∧
      (stepEffect view r).cycles = if mode = .indirectIndexed then 6 else 5 := by
  intro start base index value address
  obtain ⟨named, placed, masks⟩ := (mem_maskedStores_iff _ _ _).mp listed
  obtain ⟨indexOf, valueOf, update, action, does⟩ := Mnemonic.action_of_maskedStore listed
  -- The action is given registers whose program counter has moved on; its byte and its index are
  -- those of the registers before.
  let located : Registers := { r with pc := mode.afterOperand start }
  obtain ⟨sameValue, sameIndex, updated, -⟩ := does located
  have value_eq : valueOf located = value := by
    rw [sameValue]
    cases mnemonic <;> rfl
  have operand : mode.operand view r start = .memory address := by
    have indexed := (does r).2.2.2 view start
    rw [(does r).2.1] at indexed
    exact Mode.operand_of_indexing indexed
  refine ⟨?_, ?_, ?_⟩
  · rw [filter_isWrite_stepEffect, named, placed, action, operand]
    show [Request.write (maskedAddress address (indexOf located) (valueOf located))
      (maskedByte address (indexOf located) (valueOf located))] = _
    rw [value_eq, sameIndex]
  · have left : (stepEffect view r).registers = update located := by
      rw [stepEffect, Instruction.effect, Effect.registers_andThen, Effect.registers_andThen, named,
        placed, action]
      rfl
    rw [left, updated, ← Mode.afterOperand_add_one]
  · have plain : ∀ name ∈ [Mnemonic.ahx, .tas, .shx, .shy],
        name.access = .write ∧ name.isBranch = false := by decide
    obtain ⟨access, straight⟩ := plain mnemonic masks
    have page := Instruction.pageCharge_le view r (Instruction.decode (view r.pc))
    have branch := Instruction.branchCharge_le view r (Instruction.decode (view r.pc))
    rw [named] at page branch
    simp only [access, straight, reduceCtorEq, and_false, Bool.false_eq_true, if_false] at page branch
    rw [cycles_stepEffect, Instruction.charge, cycles_of_maskedStore listed]
    omega

namespace Machine

/-- A masked store makes one write, of its masked byte to its place, changes no register but the
stack pointer where the operation sets it, and takes the same time whether or not the index leaves
the page. -/
theorem store_of_step (m : Machine FlatMemory) (running : m.cpu.halted = false)
    {mnemonic : Mnemonic} {mode : Mode}
    (listed : (m.bus.get m.cpu.registers.pc, mnemonic, mode) ∈ maskedStores) :
    let r := m.cpu.registers
    let store := m.maskedStore mnemonic mode
    ∃ (target : UInt16) (byte : UInt8), target.toNat = store.target ∧ byte.toNat = store.byte ∧
      m.recorded.step.calls.filter Request.isWrite = [.write target byte] ∧
      m.step.bus = m.bus.set target byte ∧
      m.step.cpu.registers = { r with
        pc := r.pc + UInt16.ofNat mode.size
        s := if mnemonic = .tas then r.a &&& r.x else r.s } ∧
      m.step.cpu.cycles = m.cpu.cycles + (if mode = .indirectIndexed then 6 else 5) := by
  intro r store
  let base := if mode = .indirectIndexed then Bus.peekZeroPageWord m.bus.get (m.bus.get (r.pc + 1))
    else Bus.peekWord m.bus.get (r.pc + 1)
  let index := if mode = .absoluteX then r.x else r.y
  let value := mnemonic.storedByte r
  have given : store = ⟨base.toNat, index.toNat, value.toNat⟩ := by
    have word : base.toNat = if mode = .indirectIndexed
        then Mode.pointedWord m.bus { r with pc := r.pc + 1 }
        else Mode.nextWord m.bus { r with pc := r.pc + 1 } := by
      rw [Mode.pointedWord_eq, Mode.nextWord_eq]
      exact apply_ite UInt16.toNat _ _ _
    rw [word]
    rfl
  obtain ⟨writes, registers, cycles⟩ := stepEffect_of_maskedStore m.bus.get r listed
  refine ⟨_, _, ?_, ?_, (congrArg _ (m.calls_step_recorded running)).trans writes, ?_,
    (registers_step m running).trans registers, ?_⟩
  · rw [given]
    exact toNat_maskedAddress base index value
  · rw [given]
    exact toNat_maskedByte base index value
  · rw [bus_step m running, ← FlatMemory.serveAll_filter_isWrite]
    exact congrArg (Bus.serveAll m.bus) writes
  · rw [cycles_step m running]
    exact congrArg (m.cpu.cycles + ·) cycles

/-- A store at the end of memory whose index leaves the page. Its byte goes to the page that the byte
itself names, and to the stack pointer before it is masked. -/
theorem store_of_step_moved :
    let memory := ((FlatMemory.zero.set 0xFFFE 0x9B).set 0xFFFF 0xF0).set 0x0000 0x12
    let m : Machine FlatMemory :=
      ⟨⟨⟨0xF1, 0x33, 0x20, 0xFD, 0xFFFE, Status.ofByte 0xC1⟩, 7, false, none⟩, memory⟩
    m.cpu.halted = false ∧ (m.bus.get m.cpu.registers.pc, .tas, .absoluteY) ∈ maskedStores ∧
      m.maskedStore .tas .absoluteY = ⟨0x12F0, 0x20, 0x31⟩ ∧
      m.recorded.step.calls.filter Request.isWrite = [.write 0x1110 0x11] ∧
      m.step.bus = memory.set 0x1110 0x11 ∧
      m.step.cpu.registers = ⟨0xF1, 0x33, 0x20, 0x31, 0x0001, Status.ofByte 0xC1⟩ ∧
      m.step.cpu.cycles = 12 := by
  intro memory m
  have opcode : memory.get 0xFFFE = 0x9B := by simp [memory, FlatMemory.get_set]
  have low : memory.get 0xFFFF = 0xF0 := by simp [memory, FlatMemory.get_set]
  have high : memory.get 0x0000 = 0x12 := by simp [memory, FlatMemory.get_set]
  -- The bytes looked up above are all that is needed of the memory.
  clear_value memory
  have listed : (m.bus.get m.cpu.registers.pc, .tas, .absoluteY) ∈ maskedStores := by
    show (memory.get 0xFFFE, _, _) ∈ _
    rw [opcode]
    decide
  have word : Bus.peekWord memory.get 0xFFFF = 0x12F0 := by
    have around : (0xFFFF : UInt16) + 1 = 0x0000 := by decide
    simp only [Bus.peekWord, Bus.peek, around, low, high]
    decide
  have given : m.maskedStore .tas .absoluteY = ⟨0x12F0, 0x20, 0x31⟩ := by
    have following : (0xFFFE : UInt16) + 1 = 0xFFFF := by decide
    simp only [maskedStore, m, Mode.nextWord_eq, following, word, reduceCtorEq, if_false]
    decide
  obtain ⟨target, byte, place, masked, writes, bus, registers, cycles⟩ := store_of_step m rfl listed
  rw [given] at place masked
  obtain rfl : target = 0x1110 := UInt16.toNat_inj.mp place
  obtain rfl : byte = 0x11 := UInt8.toNat_inj.mp masked
  exact ⟨rfl, listed, given, writes, bus, registers.trans (by simp only [m]; decide), cycles⟩

end Machine
end NesMachine
