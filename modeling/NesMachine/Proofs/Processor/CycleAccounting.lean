import Mathlib.Algebra.GroupWithZero.Nat
import NesMachine.Proofs.Processor.OpcodeRegularity
import NesMachine.Proofs.Processor.Operations

/-!
# Cycle accounting

The time of an instruction is spread over its fetches, its pointers, its carry, its own
accesses and its idle cycles. Added up it is the cycle column of the opcode matrix, one
cycle more where a reading instruction crosses a page, and one or two more where a branch
is taken. Over a run the counter is the seven cycles of the first reset and the charges
of all operations.
-/
namespace NesMachine

namespace Instruction

/-- The cycle for a page that a reading instruction crosses by its index. -/
def pageCharge (view : View) (r : Registers) (i : Instruction) : Nat :=
  match i.mode.indexing view r (r.pc + 1) with
  | some (base, index) =>
    if i.mnemonic.access = .read ∧ highByte base ≠ highByte (base + index.toUInt16)
    then 1 else 0
  | none => 0

/-- The cycle for a branch that is taken, and another for a target on another page than
the instruction after the branch. -/
def branchCharge (view : View) (r : Registers) (i : Instruction) : Nat :=
  let following := r.pc + 2
  let target := displaced following (view (r.pc + 1))
  if i.mnemonic.branches r.p then
    if highByte target = highByte following then 1 else 2
  else 0

/-- The time of an instruction: its entry in the cycle column and its charges. -/
def charge (view : View) (r : Registers) (i : Instruction) : Nat :=
  i.cycles + i.pageCharge view r + i.branchCharge view r

end Instruction

/-- The time of one operation. -/
def Operation.charge (m : Machine FlatMemory) : Operation FlatMemory → Nat
  | .step =>
    if m.cpu.halted then 0
    else (Instruction.decode (m.bus.get m.cpu.registers.pc)).charge m.bus.get m.cpu.registers
  | .irq => if m.irq.1 then 7 else 0
  | .nmi => if m.cpu.halted then 0 else 7
  | .reset => 7
  | .jump _ | .replace .. => 0

def Machine.charges (m : Machine FlatMemory) : List (Operation FlatMemory) → List Nat
  | [] => []
  | operation :: rest => operation.charge m :: (m.operate operation).charges rest

/-! The time of each part of an instruction. -/

theorem pageCrossed_iff (a b : UInt16) : pageCrossed a b = true ↔ highByte a ≠ highByte b := by
  simp [pageCrossed]

namespace Mode

theorem length_requests (view : View) (r : Registers) (start : UInt16) (access : Access)
    (mode : Mode) : (mode.effect view r start access).requests.length + mode.fixedIdle =
      mode.cycles := by
  cases mode <;> rfl

theorem cycles_effect (view : View) (r : Registers) (start : UInt16) (access : Access)
    (mode : Mode) :
    (mode.effect view r start access).cycles = mode.cycles + mode.carryIdle view r start access := by
  rw [← length_requests view r start access mode, Nat.add_assoc]
  rfl

theorem carries_eq_isSome (view : View) (r : Registers) (start : UInt16) (mode : Mode) :
    mode.carries = (mode.indexing view r start).isSome := by
  cases mode <;> rfl

end Mode

/-- The cycle of a carry is part of the cycle column where the instruction always waits for
it, and a charge where it does not. -/
theorem carryIdle_eq_pageCharge (view : View) (r : Registers) (i : Instruction) :
    i.mode.carryIdle view r (r.pc + 1) i.mnemonic.access =
      (if i.mode.carries ∧ i.mnemonic.access ≠ .read then 1 else 0) + i.pageCharge view r := by
  rw [Mode.carries_eq_isSome view r (r.pc + 1), Mode.carryIdle, Instruction.pageCharge]
  cases i.mode.indexing view r (r.pc + 1) with
  | none => rfl
  | some indexed =>
    by_cases read : i.mnemonic.access = .read
    · simp [read, pageCrossed_iff]
    · simp [read]

/-- The time of an action on an operand that it suits. Only a branch that is taken costs
more than the cycle column says. -/
theorem cycles_action_effect (view : View) (r : Registers) (start : UInt16) (mode : Mode)
    (action : Action) (suits : action.suits mode = true) :
    (action.effect view { r with pc := mode.afterOperand start }
      (mode.operand view r start)).cycles = action.cycles mode +
      if action.branches { r with pc := mode.afterOperand start } then
        if highByte (displaced (start + 1) (view start)) = highByte (start + 1) then 1 else 2
      else 0 := by
  cases action with
  | branch taken =>
    have relative : mode = .relative := by simpa [Action.suits] using suits
    subst relative
    by_cases h : taken { r with pc := start + 1 }
    · by_cases same : highByte (displaced (start + 1) (view start)) = highByte (start + 1)
      · simp [Action.effect, Action.branches, Action.cycles, Effect.cycles, Mode.operand,
          Mode.afterOperand, Mode.size, Operand.address, h, same, pageCrossed_iff]
      · simp [Action.effect, Action.branches, Action.cycles, Effect.cycles, Mode.operand,
          Mode.afterOperand, Mode.size, Operand.address, h, same, Ne.symm same, pageCrossed_iff]
    · simp [Action.effect, Action.branches, Action.cycles, Effect.cycles, Mode.afterOperand,
        Mode.size, h]
  | consume update =>
    obtain ⟨a, memory⟩ := Mode.operand_of_holdsByte view r start suits
    rw [memory]
    rfl
  | store value =>
    obtain ⟨a, memory⟩ := Mode.operand_of_inMemory view r start suits
    rw [memory]
    rfl
  | modify change update =>
    rcases Bool.or_eq_true_iff.mp suits with suits | suits
    · obtain ⟨a, memory⟩ := Mode.operand_of_inMemory view r start suits
      have other : mode ≠ .accumulator := by
        rintro rfl
        cases suits
      simp [memory, Action.effect, Action.branches, Action.cycles, Effect.cycles, other]
    · rw [beq_iff_eq.mp suits]
      rfl
  | nothing =>
    rcases Bool.or_eq_true_iff.mp suits with suits | suits
    · obtain ⟨a, memory⟩ := Mode.operand_of_holdsByte view r start suits
      have other : mode ≠ .implied := by
        rintro rfl
        cases suits
      simp [memory, Action.effect, Action.branches, Action.cycles, Effect.cycles, other,
        Operand.requests]
    · rw [beq_iff_eq.mp suits]
      rfl
  | _ => rfl

theorem Instruction.pageCharge_le (view : View) (r : Registers) (i : Instruction) :
    i.pageCharge view r ≤ if i.mode.carries ∧ i.mnemonic.access = .read then 1 else 0 := by
  rw [Mode.carries_eq_isSome view r (r.pc + 1), Instruction.pageCharge]
  cases i.mode.indexing view r (r.pc + 1) with
  | none => simp
  | some indexed =>
    by_cases read : i.mnemonic.access = .read
    · simp only [read, true_and, Option.isSome_some, and_self, if_true]
      split <;> omega
    · simp [read]

theorem Instruction.branchCharge_le (view : View) (r : Registers) (i : Instruction) :
    i.branchCharge view r ≤ if i.mnemonic.isBranch then 2 else 0 := by
  by_cases taken : i.mnemonic.branches r.p
  · rw [branchCharge, if_pos taken, if_pos (Mnemonic.isBranch_of_branches taken)]
    split <;> omega
  · simp [branchCharge, taken]

theorem Instruction.charge_bounds (view : View) (r : Registers) (opcode : UInt8) :
    2 ≤ (decode opcode).charge view r ∧ (decode opcode).charge view r ≤ 8 := by
  have bounds := cycles_decode_bounds opcode
  have page := pageCharge_le view r (decode opcode)
  have branch := branchCharge_le view r (decode opcode)
  rw [charge]
  omega

theorem cycles_stepEffect (view : View) (r : Registers) :
    (stepEffect view r).cycles = (Instruction.decode (view r.pc)).charge view r := by
  have action := cycles_action_effect view r (r.pc + 1) _ _
    (Instruction.suits_decode (view r.pc))
  simp only [Mnemonic.branches_action, add_one_add_one] at action
  rw [stepEffect, Instruction.effect, Effect.cycles_andThen, Effect.cycles_andThen, action,
    Effect.cycles_ofFetch, Mode.cycles_effect, carryIdle_eq_pageCharge, Instruction.charge,
    Instruction.branchCharge, Instruction.cycles_decode]
  omega

namespace Machine

theorem cycles_operate (m : Machine FlatMemory) (operation : Operation FlatMemory) :
    (m.operate operation).cpu.cycles = m.cpu.cycles + operation.charge m := by
  cases operation with
  | step =>
    cases h : m.cpu.halted with
    | true => simp [operate, Operation.charge, step_of_halted, h]
    | false =>
      rw [operate, cycles_step m h, cycles_stepEffect, Operation.charge, h]
      rfl
  | irq =>
    by_cases refused : m.cpu.halted = true ∨ m.cpu.registers.p.interruptDisable = true
    · simp [operate, Operation.charge, irq_of_refused m refused]
    · simp only [not_or, Bool.not_eq_true] at refused
      simp [operate, Operation.charge, irq_eq m refused.1 refused.2, requestEffect,
        interruptEffect, Effect.cycles]
  | nmi =>
    cases h : m.cpu.halted with
    | true => simp [operate, Operation.charge, nmi_of_halted, h]
    | false => simp [operate, Operation.charge, nmi_eq m h, h, requestEffect, interruptEffect,
        Effect.cycles]
  | reset => simp [operate, Operation.charge, reset_eq, resetEffect, Effect.cycles]
  | jump address => rfl
  | replace registers bus => rfl

theorem cycles_operateAll (m : Machine FlatMemory) (operations : List (Operation FlatMemory)) :
    (m.operateAll operations).cpu.cycles = m.cpu.cycles + (m.charges operations).sum := by
  induction operations generalizing m with
  | nil => rfl
  | cons operation rest ih =>
    rw [operateAll_cons, ih, cycles_operate, charges, List.sum_cons, Nat.add_assoc]

theorem cycles_powerOn (memory : FlatMemory) : (powerOn memory).cpu.cycles = 7 := by
  simp [powerOn, reset_eq, resetEffect, Effect.cycles]

/-- The counter after any run of a processor that was switched on is seven and the charges
of the run; the next operation adds its own charge, and an instruction two to eight. -/
theorem cycles_of_run (memory : FlatMemory) (operations : List (Operation FlatMemory)) :
    let start := powerOn memory
    let m := start.operateAll operations
    m.cpu.cycles = 7 + (start.charges operations).sum ∧
      (∀ operation, (m.operate operation).cpu.cycles = m.cpu.cycles + operation.charge m) ∧
      (m.cpu.halted = false →
        2 ≤ Operation.step.charge m ∧ Operation.step.charge m ≤ 8) := by
  intro start m
  refine ⟨?_, cycles_operate m, ?_⟩
  · rw [cycles_operateAll, cycles_powerOn]
  · intro running
    rw [Operation.charge, running]
    exact Instruction.charge_bounds m.bus.get m.cpu.registers _

/-- The first instruction after power-on branches back over a page boundary. -/
theorem cycles_of_run_branch_back :
    let memory := ((FlatMemory.zero.set 0xFFFD 0x80).set 0x8000 0xD0).set 0x8001 0x80
    let m := powerOn memory
    m.cpu.halted = false ∧ Operation.step.charge m = 4 ∧ Operation.step.charge m ≤ 8 ∧
      (m.operate .step).cpu.cycles = 11 := by
  intro memory m
  have registers : m.cpu.registers = ⟨0, 0, 0, 0xFD, 0x8000, Status.ofByte 0x34⟩ := by
    simp [m, powerOn, reset_eq, resetEffect, Registers.powerOn, Bus.peekWordInPage, Bus.peek,
      memory, FlatMemory.get_set, resetVector, nextInPage]
    decide
  have kept : m.bus = memory := by simp [m, powerOn, reset_eq, resetEffect]
  have running : m.cpu.halted = false := by simp [m, powerOn, reset_eq]
  have opcode : memory.get 0x8000 = 0xD0 := by simp [memory, FlatMemory.get_set]
  have offset : memory.get 0x8001 = 0x80 := by simp [memory, FlatMemory.get_set]
  have charge : Operation.step.charge m = 4 := by
    rw [Operation.charge, running, registers, kept, opcode]
    simp [Instruction.charge, Instruction.pageCharge, Instruction.branchCharge, offset]
    decide
  obtain ⟨-, next, bounds⟩ := cycles_of_run memory []
  refine ⟨running, charge, (bounds running).2, ?_⟩
  simpa [charge, cycles_powerOn, m] using next .step

end Machine
end NesMachine
