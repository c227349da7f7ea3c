import NesMachine.Proofs.Processor.ActionEffects

/-!
# Steps, requests and resets, as effects

One equation for each thing that a machine can be told to do. What a step does is told
from the registers and from what peeks show before it; tracing adds a line and changes
nothing else.
-/
namespace NesMachine

def Effect.ofFetch (r : Registers) : Effect where
  registers := { r with pc := r.pc + 1 }
  requests := [.read r.pc]

@[simp] theorem Effect.cycles_ofFetch (r : Registers) : (ofFetch r).cycles = 1 := rfl

def Instruction.effect (view : View) (r : Registers) (i : Instruction) : Effect :=
  let start := r.pc + 1
  (Effect.ofFetch r).andThen <| (i.mode.effect view r start i.mnemonic.access).andThen <|
    i.mnemonic.action.effect view { r with pc := i.mode.afterOperand start }
      (i.mode.operand view r start)

def stepEffect (view : View) (r : Registers) : Effect :=
  (Instruction.decode (view r.pc)).effect view r

/-- What a request by a device does when it is taken. -/
def requestEffect (view : View) (r : Registers) (vector : UInt16) : Effect :=
  { interruptEffect view r vector r.pc false with idle := 2 }

/-- What a reset does, apart from ending a jam. -/
def resetEffect (view : View) (r : Registers) : Effect where
  registers := { r with
    s := r.s - 3
    pc := Bus.peekWordInPage view resetVector
    p := { r.p with interruptDisable := true } }
  requests := [.read resetVector, .read (nextInPage resetVector)]
  idle := 5

/-- The place of an operand does not depend on the program counter kept in the registers. -/
@[simp] theorem Mode.operand_pc (view : View) (r : Registers) (pc start : UInt16) (mode : Mode) :
    mode.operand view { r with pc } start = mode.operand view r start := by
  cases mode <;> rfl

@[simp] theorem Mode.effect_pc (view : View) (r : Registers) (pc start : UInt16)
    (access : Access) (mode : Mode) :
    mode.effect view { r with pc } start access = mode.effect view r start access := by
  cases mode <;> rfl

namespace Machine

variable {β : Type} [Bus β]

@[simp] theorem registers_traceInstruction (m : Machine β) :
    m.traceInstruction.cpu.registers = m.cpu.registers := by
  unfold traceInstruction
  split <;> rfl

@[simp] theorem cycles_traceInstruction (m : Machine β) :
    m.traceInstruction.cpu.cycles = m.cpu.cycles := by
  unfold traceInstruction
  split <;> rfl

@[simp] theorem halted_traceInstruction (m : Machine β) :
    m.traceInstruction.cpu.halted = m.cpu.halted := by
  unfold traceInstruction
  split <;> rfl

@[simp] theorem bus_traceInstruction (m : Machine β) :
    m.traceInstruction.bus = m.bus := by
  unfold traceInstruction
  split <;> rfl

theorem step_of_halted (m : Machine β) (h : m.cpu.halted = true) : m.step = m := by
  simp [step, h]

variable [PlainBus β]

/-- Fetching an opcode and finding its operand, as an execution does. -/
theorem resolve_fetch_eq (m : Machine β) (mode : Mode) (access : Access) :
    m.fetch.2.resolve mode access =
      (mode.operand (Bus.peek m.bus) m.cpu.registers (m.cpu.registers.pc + 1),
        m.undergo ((Effect.ofFetch m.cpu.registers).andThen
          (mode.effect (Bus.peek m.bus) m.cpu.registers (m.cpu.registers.pc + 1) access))) := by
  simp [fetch_eq, resolve_eq, Effect.ofFetch]

theorem execute_eq (m : Machine β) :
    m.execute = m.undergo (stepEffect (Bus.peek m.bus) m.cpu.registers) := by
  simp only [execute, resolve_fetch_eq, perform_eq, stepEffect, Instruction.effect]
  simp [fetch_eq, Effect.andThen_assoc, Effect.ofFetch]

theorem step_eq (m : Machine β) (h : m.cpu.halted = false) :
    m.step = m.traceInstruction.undergo (stepEffect (Bus.peek m.bus) m.cpu.registers) := by
  simp [step, h, execute_eq]

theorem registers_step (m : Machine β) (h : m.cpu.halted = false) :
    m.step.cpu.registers = (stepEffect (Bus.peek m.bus) m.cpu.registers).registers := by
  simp [step_eq m h]

theorem cycles_step (m : Machine β) (h : m.cpu.halted = false) :
    m.step.cpu.cycles =
      m.cpu.cycles + (stepEffect (Bus.peek m.bus) m.cpu.registers).cycles := by
  simp [step_eq m h]

theorem bus_step (m : Machine β) (h : m.cpu.halted = false) :
    m.step.bus = Bus.serveAll m.bus (stepEffect (Bus.peek m.bus) m.cpu.registers).requests := by
  simp [step_eq m h]

theorem halted_step (m : Machine β) (h : m.cpu.halted = false) :
    m.step.cpu.halted = (stepEffect (Bus.peek m.bus) m.cpu.registers).jams := by
  simp [step_eq m h, h]

/-- What a step leaves can be read off its effect. -/
theorem step_of_stepEffect (m : Machine β) (h : m.cpu.halted = false) {e : Effect}
    (effect : stepEffect (Bus.peek m.bus) m.cpu.registers = e) :
    m.step.cpu.registers = e.registers ∧ m.step.cpu.cycles = m.cpu.cycles + e.cycles ∧
      m.step.cpu.halted = e.jams ∧ m.step.bus = Bus.serveAll m.bus e.requests := by
  rw [← effect]
  exact ⟨registers_step m h, cycles_step m h, halted_step m h, bus_step m h⟩

theorem get_step (m : Machine FlatMemory) (running : m.cpu.halted = false) :
    m.step.bus.get = Bus.serveAll m.bus.get (stepEffect m.bus.get m.cpu.registers).requests :=
  (congrArg FlatMemory.get (bus_step m running)).trans (FlatMemory.get_serveAll _ _)

private theorem request_eq (m : Machine β) {vector : UInt16} (outside : highByte vector ≠ 1) :
    m.idle.idle.enterInterrupt vector m.cpu.registers.pc false =
      m.undergo (requestEffect (Bus.peek m.bus) m.cpu.registers vector) := by
  simp [idle_eq, enterInterrupt_eq _ _ _ outside, requestEffect, Effect.andThen, interruptEffect]

theorem nmi_eq (m : Machine β) (h : m.cpu.halted = false) :
    m.nmi = m.undergo (requestEffect (Bus.peek m.bus) m.cpu.registers nmiVector) := by
  rw [nmi, h, if_neg Bool.false_ne_true, request_eq m (by decide)]

/-- A maskable request is taken if besides such requests are not disabled. -/
theorem irq_eq (m : Machine β) (h : m.cpu.halted = false)
    (enabled : m.cpu.registers.p.interruptDisable = false) :
    m.irq = (true, m.undergo (requestEffect (Bus.peek m.bus) m.cpu.registers irqVector)) := by
  rw [irq, h, enabled, Bool.or_self, if_neg Bool.false_ne_true, request_eq m (by decide)]

omit [PlainBus β] in
theorem nmi_of_halted (m : Machine β) (h : m.cpu.halted = true) : m.nmi = m := by
  simp [nmi, h]

omit [PlainBus β] in
/-- A refused request leaves everything as it was. -/
theorem irq_of_refused (m : Machine β)
    (h : m.cpu.halted = true ∨ m.cpu.registers.p.interruptDisable = true) :
    m.irq = (false, m) := by
  rcases h with h | h <;> simp [irq, h]

/-- A reset is taken by every machine and ends a jam. -/
theorem reset_eq (m : Machine β) :
    m.reset = { m.undergo (resetEffect (Bus.peek m.bus) m.cpu.registers) with
      cpu := { (m.undergo (resetEffect (Bus.peek m.bus) m.cpu.registers)).cpu with
        halted := false } } := by
  simp [reset, idle_eq, mapRegisters_eq, readWordInPage_eq, jump_eq, resetEffect]

end Machine
end NesMachine
