import NesMachine.Proofs.Bus.StaleBytes
import NesMachine.Proofs.Processor.StepEffects

/-!
# What an instruction depends on

An instruction is a function of the registers and of the bytes that it reads: memories that
agree at those addresses give it the same effect. It reads before it writes, so that all it
depends on is in memory when it begins; only the software interrupt reads afterwards, and
its vector lies outside the stack page.
-/
namespace NesMachine

section Agreement

variable {view view' : View} {r : Registers}

namespace Mode

variable {start : UInt16} {mode : Mode}

theorem operand_congr (agree : ∀ a, .read a ∈ mode.operandRequests start ++
      mode.pointerRequests view r start → view' a = view a) :
    mode.operand view' r start = mode.operand view r start := by
  cases mode <;> simp [operandRequests, pointerRequests, Bus.peekWord] at agree <;>
    simp [operand, Bus.peekWord, Bus.peekWordInPage, Bus.peekZeroPageWord, agree]

theorem effect_congr (access : Access) (agree : ∀ a, .read a ∈ mode.operandRequests start ++
      mode.pointerRequests view r start → view' a = view a) :
    mode.effect view' r start access = mode.effect view r start access := by
  cases mode <;> simp [operandRequests, pointerRequests, Bus.peekWord] at agree <;>
    simp [effect, pointerRequests, carryIdle, indexing, Bus.peekWord, Bus.peekZeroPageWord, agree]

end Mode

theorem Action.effect_congr {operand : Operand} (action : Action)
    (agree : ∀ a, .read a ∈ (action.effect view r operand).requests → view' a = view a) :
    action.effect view' r operand = action.effect view r operand := by
  cases action with
  | consume update | modify change update =>
    cases operand with
    | memory a =>
      have byte : view' a = view a := agree a (List.mem_cons_self ..)
      simp [effect, Operand.byte, byte]
    | accumulator | implied => rfl
  | pull update | returnFromCall | returnFromInterrupt =>
    simp [effect] at agree
    simp [effect, agree]
  | interrupt =>
    have low : view' irqVector = view irqVector := agree _ (by simp [effect, interruptEffect])
    have high : view' (nextInPage irqVector) = view (nextInPage irqVector) :=
      agree _ (by simp [effect, interruptEffect])
    simp [effect, interruptEffect, Bus.peekWordInPage, low, high]
  | _ => rfl

theorem Instruction.effect_congr (i : Instruction)
    (agree : ∀ a, .read a ∈ (i.effect view r).requests → view' a = view a) :
    i.effect view' r = i.effect view r := by
  have finding : ∀ a, .read a ∈ i.mode.operandRequests (r.pc + 1) ++
      i.mode.pointerRequests view r (r.pc + 1) → view' a = view a := by
    intro a read
    exact agree a (List.mem_append_right _ (List.mem_append_left _ read))
  rw [effect, effect, Mode.effect_congr _ finding, Mode.operand_congr finding,
    Action.effect_congr]
  intro a read
  exact agree a (List.mem_append_right _ (List.mem_append_right _ read))

/-- Memories that agree wherever an instruction reads give it one effect. -/
theorem stepEffect_congr
    (agree : ∀ a, .read a ∈ (stepEffect view r).requests → view' a = view a) :
    stepEffect view' r = stepEffect view r := by
  have opcode : view' r.pc = view r.pc := agree r.pc (List.mem_cons_self ..)
  rw [stepEffect, opcode]
  exact Instruction.effect_congr _ agree

end Agreement

theorem Mode.write_notMem_requests (view : View) (r : Registers) (start : UInt16)
    (access : Access) (mode : Mode) (a : UInt16) (v : UInt8) :
    .write a v ∉ (mode.effect view r start access).requests := by
  cases mode <;> simp [effect, operandRequests, pointerRequests]

theorem Action.readsFirst_effect (view : View) (r : Registers) (operand : Operand)
    (action : Action) : Request.ReadsFirst (action.effect view r operand).requests := by
  cases action with
  | consume update | store value | modify change update =>
    cases operand <;> simp [effect, Operand.requests, Request.ReadsFirst]
  | branch taken =>
    rw [effect]
    split <;> trivial
  | interrupt =>
    simp [effect, interruptEffect, Request.ReadsFirst]
    decide
  | _ => simp [effect, Request.ReadsFirst]

theorem readsFirst_stepEffect (view : View) (r : Registers) :
    Request.ReadsFirst (stepEffect view r).requests := by
  have fetching : ∀ a v, .write a v ∉ (Effect.ofFetch r).requests := by simp [Effect.ofFetch]
  have finding := Mode.write_notMem_requests view r (r.pc + 1)
    (Instruction.decode (view r.pc)).mnemonic.access (Instruction.decode (view r.pc)).mode
  exact (Request.readsFirst_append fetching).mpr
    ((Request.readsFirst_append finding).mpr (Action.readsFirst_effect ..))

end NesMachine
