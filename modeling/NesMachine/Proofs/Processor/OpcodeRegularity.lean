import NesMachine.Proofs.Processor.OperandEffects
import NesMachine.Processor.Action

/-!
# Regularities of the opcode matrix

The matrix pairs each action only with modes whose operands the action can work on, and
its cycle column is what the mode and the action need together. These are the facts about
the 256 entries that arguments about arbitrary opcodes rest on.
-/
namespace NesMachine

namespace Mode

/-- Whether the operand is a byte, in memory or in the instruction itself. -/
def holdsByte : Mode → Bool
  | .implied | .accumulator | .indirect | .relative => false
  | _ => true

def inMemory (mode : Mode) : Bool := mode.holdsByte && mode != .immediate

/-- Whether the mode adds an index to a full address, so that a carry can leave its page. -/
def carries : Mode → Bool
  | .absoluteX | .absoluteY | .indirectIndexed => true
  | _ => false

/-- The cycles that finding the operand takes without a carry. -/
def cycles : Mode → Nat
  | .immediate => 0
  | .implied | .accumulator | .zeroPage | .relative => 1
  | .zeroPageX | .zeroPageY | .absolute | .absoluteX | .absoluteY => 2
  | .indirectIndexed => 3
  | .indirect | .indexedIndirect => 4

theorem operand_of_holdsByte (view : View) (r : Registers) (start : UInt16) {mode : Mode}
    (h : mode.holdsByte = true) : ∃ a, mode.operand view r start = .memory a := by
  cases mode <;> simp [holdsByte, operand] at h ⊢

theorem operand_of_inMemory (view : View) (r : Registers) (start : UInt16) {mode : Mode}
    (h : mode.inMemory = true) : ∃ a, mode.operand view r start = .memory a :=
  operand_of_holdsByte view r start (Bool.and_eq_true_iff.mp h).1

end Mode

def Mnemonic.branches (p : Status) : Mnemonic → Bool
  | .bcc => !p.carry
  | .bcs => p.carry
  | .bne => !p.zero
  | .beq => p.zero
  | .bpl => !p.negative
  | .bmi => p.negative
  | .bvc => !p.overflow
  | .bvs => p.overflow
  | _ => false

/-- Whether an action goes on at its operand because a condition holds. -/
def Action.branches (r : Registers) : Action → Bool
  | .branch taken => taken r
  | _ => false

theorem Mnemonic.branches_action (r : Registers) (mnemonic : Mnemonic) :
    mnemonic.action.branches r = mnemonic.branches r.p := by
  cases mnemonic <;> rfl

theorem Mnemonic.action_of_isBranch {mnemonic : Mnemonic} (h : mnemonic.isBranch = true) :
    ∃ taken, mnemonic.action = .branch taken := by
  cases mnemonic <;> simp [isBranch, action] at h ⊢

theorem Mnemonic.isBranch_of_branches {p : Status} {mnemonic : Mnemonic}
    (h : mnemonic.branches p = true) : mnemonic.isBranch = true := by
  cases mnemonic <;> simp [branches, isBranch] at h ⊢

namespace Action

/-- Whether an action can work on the operands of a mode. -/
def suits (mode : Mode) : Action → Bool
  | .consume _ => mode.holdsByte
  | .store _ | .storeMasked .. => mode.inMemory
  | .modify .. => mode.inMemory || mode == .accumulator
  | .nothing => mode.holdsByte || mode == .implied
  | .branch _ => mode == .relative
  | .jump => mode == .absolute || mode == .indirect
  | .call => mode == .absolute
  | _ => mode == .implied

/-- The cycles that an action takes on an operand of a mode, if it does not branch. -/
def cycles (mode : Mode) : Action → Nat
  | .consume _ | .store _ | .storeMasked .. | .push _ => 1
  | .modify .. => if mode = .accumulator then 0 else 3
  | .nothing => if mode = .implied then 0 else 1
  | .pull _ => 2
  | .call => 3
  | .returnFromCall | .returnFromInterrupt => 4
  | .interrupt => 5
  | .internal _ | .branch _ | .jump | .jam => 0

end Action

namespace Instruction

theorem decode_forall {P : Instruction → Prop}
    (h : ∀ row column : Fin 16, P (opcodeMatrix[row][column])) (opcode : UInt8) :
    P (decode opcode) := by
  have := opcode.toNat_lt
  exact h ⟨opcode.toNat / 16, by omega⟩ ⟨opcode.toNat % 16, by omega⟩

/-- A list of opcodes with what they stand for holds all opcodes of some operations and no
others, if it agrees with the matrix in its own entries and in those of the matrix. -/
theorem mem_iff_decode {listed : List (UInt8 × Mnemonic × Mode)} {mnemonics : List Mnemonic}
    (decoded : ∀ entry ∈ listed, (decode entry.1).mnemonic = entry.2.1 ∧
      (decode entry.1).mode = entry.2.2 ∧ entry.2.1 ∈ mnemonics)
    (complete : ∀ row column : Fin 16, opcodeMatrix[row][column].mnemonic ∈ mnemonics →
      (UInt8.ofNat (16 * row + column), opcodeMatrix[row][column].mnemonic,
        opcodeMatrix[row][column].mode) ∈ listed)
    (opcode : UInt8) (mnemonic : Mnemonic) (mode : Mode) :
    (opcode, mnemonic, mode) ∈ listed ↔
      (decode opcode).mnemonic = mnemonic ∧ (decode opcode).mode = mode ∧
        mnemonic ∈ mnemonics := by
  constructor
  · exact decoded _
  · rintro ⟨rfl, rfl, among⟩
    have small := opcode.toNat_lt
    have digits : 16 * (opcode.toNat / 16) + opcode.toNat % 16 = opcode.toNat := by omega
    have found := complete ⟨opcode.toNat / 16, by omega⟩ ⟨opcode.toNat % 16, by omega⟩ among
    simp only [digits, UInt8.ofNat_toNat] at found
    exact found

/-- Every action stands beside a mode that it can work on. -/
theorem suits_decode (opcode : UInt8) :
    (decode opcode).mnemonic.action.suits (decode opcode).mode = true :=
  decode_forall (P := fun i => i.mnemonic.action.suits i.mode = true) (by decide +kernel) opcode

/-- The cycle column: one cycle for the opcode, then those of the mode and of the action.
Storing and changing in place always wait for a carry. -/
theorem cycles_decode (opcode : UInt8) :
    (decode opcode).cycles = 1 + (decode opcode).mode.cycles +
      (if (decode opcode).mode.carries ∧ (decode opcode).mnemonic.access ≠ .read then 1 else 0) +
      (decode opcode).mnemonic.action.cycles (decode opcode).mode :=
  decode_forall (P := fun i => i.cycles = 1 + i.mode.cycles +
    (if i.mode.carries ∧ i.mnemonic.access ≠ .read then 1 else 0) +
    i.mnemonic.action.cycles i.mode) (by decide +kernel) opcode

/-- With every charge that an instruction of its kind can have, a page crossed by reading
or a branch taken to another page, an instruction lasts two to eight cycles. -/
theorem cycles_decode_bounds (opcode : UInt8) :
    2 ≤ (decode opcode).cycles ∧ (decode opcode).cycles +
      (if (decode opcode).mode.carries ∧ (decode opcode).mnemonic.access = .read then 1 else 0) +
      (if (decode opcode).mnemonic.isBranch then 2 else 0) ≤ 8 :=
  decode_forall (P := fun i => 2 ≤ i.cycles ∧ i.cycles +
    (if i.mode.carries ∧ i.mnemonic.access = .read then 1 else 0) +
    (if i.mnemonic.isBranch then 2 else 0) ≤ 8) (by decide +kernel) opcode

end Instruction
end NesMachine
