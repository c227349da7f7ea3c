import NesMachine.Proofs.Processor.OpcodeRegularity
import NesMachine.Proofs.Processor.StepEffects

/-!
# Jams

On any bus, twelve opcodes jam the processor and nothing else does: no operand and no other
action touches the mark. An instruction that jams makes one call on the bus, for its opcode,
and steps over it.
-/
namespace NesMachine

/-- The opcodes that jam the processor. -/
def jamOpcodes : List UInt8 :=
  [0x02, 0x12, 0x22, 0x32, 0x42, 0x52, 0x62, 0x72, 0x92, 0xB2, 0xD2, 0xF2]

def Action.jams : Action → Bool
  | .jam => true
  | _ => false

theorem Mnemonic.jams_action (mnemonic : Mnemonic) :
    mnemonic.action.jams = true ↔ mnemonic = .kil := by
  cases mnemonic <;> simp [action, Action.jams]

namespace Instruction

theorem mnemonic_decode_eq_kil_iff (opcode : UInt8) :
    (decode opcode).mnemonic = .kil ↔ opcode ∈ jamOpcodes := by
  have entries : ∀ row column : Fin 16, opcodeMatrix[row][column].mnemonic = .kil ↔
      UInt8.ofNat (16 * row.val + column.val) ∈ jamOpcodes := by decide +kernel
  have small := opcode.toNat_lt
  have entry := entries ⟨opcode.toNat / 16, by omega⟩ ⟨opcode.toNat % 16, by omega⟩
  simp only [Nat.div_add_mod, UInt8.ofNat_toNat] at entry
  exact entry

/-- An opcode that jams has no operand. -/
theorem decode_of_jams {opcode : UInt8} (jams : (decode opcode).mnemonic.action.jams = true) :
    (decode opcode).mnemonic.action = .jam ∧ (decode opcode).mode = .implied := by
  have suits := suits_decode opcode
  rw [(Mnemonic.jams_action _).mp jams] at suits ⊢
  exact ⟨rfl, beq_iff_eq.mp suits⟩

end Instruction

namespace Machine

variable {β : Type} (m : Machine β)

theorem halted_branch (target : UInt16) : (m.branch target).cpu.halted = m.cpu.halted := by
  unfold branch
  dsimp only
  split <;> rfl

variable [Bus β]

theorem halted_resolveIndexed (base : UInt16) (index : UInt8) (access : Access) :
    (m.resolveIndexed base index access).2.cpu.halted = m.cpu.halted := by
  unfold resolveIndexed
  dsimp only
  split <;> rfl

theorem halted_resolve (mode : Mode) (access : Access) :
    (m.resolve mode access).2.cpu.halted = m.cpu.halted := by
  cases mode with
  | absoluteX | absoluteY => exact halted_resolveIndexed m.fetchWord.2 _ _ _
  | indirectIndexed =>
    exact halted_resolveIndexed (m.fetch.2.readZeroPageWord m.fetch.1).2 _ _ _
  | _ => rfl

theorem halted_perform (operand : Operand) (action : Action) :
    (m.perform operand action).cpu.halted = (m.cpu.halted || action.jams) := by
  cases action with
  | jam => exact (Bool.or_true _).symm
  | branch taken =>
    refine Eq.trans ?_ (Bool.or_false _).symm
    rw [perform]
    split
    · exact m.halted_branch operand.address
    · rfl
  | consume | store | modify | nothing =>
    refine Eq.trans ?_ (Bool.or_false _).symm
    cases operand <;> rfl
  | _ => exact (Bool.or_false _).symm

/-- Tracing changes neither the opcode that is fetched next nor what fetching it does. -/
theorem fetch_traceInstruction : m.traceInstruction.fetch.1 = m.fetch.1 ∧
    m.traceInstruction.fetch.2.bus = m.fetch.2.bus ∧
    m.traceInstruction.fetch.2.cpu.registers = m.fetch.2.cpu.registers := by
  unfold traceInstruction
  split <;> exact ⟨rfl, rfl, rfl⟩

/-- An opcode that jams is fetched, and nothing is done but to mark the processor. -/
theorem execute_of_jams (jams : (Instruction.decode m.fetch.1).mnemonic.action.jams = true) :
    m.execute.bus = m.fetch.2.bus ∧ m.execute.cpu.registers = m.fetch.2.cpu.registers := by
  obtain ⟨action, mode⟩ := Instruction.decode_of_jams jams
  rw [execute]
  simp only [action, mode]
  exact ⟨rfl, rfl⟩

/-- A step leaves the processor jammed if it was before, or if the opcode jams. -/
theorem halted_step_eq : m.step.cpu.halted =
    (m.cpu.halted || (Instruction.decode m.fetch.1).mnemonic.action.jams) := by
  cases halted : m.cpu.halted with
  | true => rw [m.step_of_halted halted, halted, Bool.true_or]
  | false =>
    have stepped : m.step = m.traceInstruction.execute := by
      rw [step, halted, if_neg Bool.false_ne_true]
    have fetched : m.traceInstruction.fetch.2.cpu.halted = false :=
      (m.halted_traceInstruction).trans halted
    rw [stepped, execute]
    simp only [halted_perform, halted_resolve, fetched, m.fetch_traceInstruction.1]

theorem step_of_jams (running : m.cpu.halted = false)
    (jams : (Instruction.decode m.fetch.1).mnemonic.action.jams = true) :
    m.step.bus = m.fetch.2.bus ∧ m.step.cpu.registers = m.fetch.2.cpu.registers := by
  obtain ⟨opcode, bus, registers⟩ := m.fetch_traceInstruction
  rw [← opcode] at jams
  rw [step, running, if_neg Bool.false_ne_true, ← bus, ← registers]
  exact m.traceInstruction.execute_of_jams jams

end Machine
end NesMachine
