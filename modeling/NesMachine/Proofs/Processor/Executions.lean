import NesMachine.Proofs.Processor.EffectiveAddress

/-!
# Operations on given operands

An operation may be done by itself, on an operand that somebody has found for it, or by the
instruction that is next. The instruction first steps over its own bytes; from there on
both are the same, so that what an operation leaves can be told from the bytes and registers
before it and from the place of its operand alone.
-/
namespace NesMachine.Machine

/-- The instruction that is next. -/
def nextInstruction (m : Machine FlatMemory) : Instruction :=
  Instruction.decode (m.bus.get m.cpu.registers.pc)

/-- Where the next instruction finds its operand. -/
def nextOperand (m : Machine FlatMemory) : Operand :=
  let r := m.cpu.registers
  m.nextInstruction.mode.effectiveOperand m.bus { r with pc := r.pc + 1 }

/-- The registers of a machine that has found the operand of the next instruction. -/
def located (m : Machine FlatMemory) : Registers :=
  let r := m.cpu.registers
  { r with pc := m.nextInstruction.mode.afterOperand (r.pc + 1) }

/-- An operation done on an operand. -/
inductive Executes (mnemonic : Mnemonic) (operand : Operand) :
    Machine FlatMemory → Machine FlatMemory → Prop where
  /-- The operation by itself. -/
  | alone (m : Machine FlatMemory) :
    Executes mnemonic operand m (m.perform operand mnemonic.action)
  /-- The next instruction, which is there for this operation and finds this operand. -/
  | step {m : Machine FlatMemory} (running : m.cpu.halted = false)
      (named : m.nextInstruction.mnemonic = mnemonic) (found : m.nextOperand = operand) :
    Executes mnemonic operand m m.step

/-- What an instruction leaves is what its operation does on the operand it finds. -/
theorem effect_of_step (m : Machine FlatMemory) (running : m.cpu.halted = false) :
    let e := m.nextInstruction.mnemonic.action.effect m.bus.get m.located m.nextOperand
    m.step.cpu.registers = e.registers ∧ m.step.bus = Bus.serveAll m.bus e.requests := by
  intro e
  have place : m.nextInstruction.mode.operand m.bus.get m.cpu.registers
      (m.cpu.registers.pc + 1) = m.nextOperand := by
    rw [nextOperand, ← Mode.operand_eq_effectiveOperand]
    exact (Mode.operand_pc _ _ _ _ _).symm
  have effect : stepEffect m.bus.get m.cpu.registers =
      (Effect.ofFetch m.cpu.registers).andThen ((m.nextInstruction.mode.effect m.bus.get
        m.cpu.registers (m.cpu.registers.pc + 1) m.nextInstruction.mnemonic.access).andThen e) := by
    rw [stepEffect, Instruction.effect]
    exact congrArg (fun operand => (Effect.ofFetch m.cpu.registers).andThen (Effect.andThen _
      (m.nextInstruction.mnemonic.action.effect m.bus.get m.located operand))) place
  constructor
  · have moved := (registers_step m running).trans (congrArg Effect.registers effect)
    exact moved
  · have served := (bus_step m running).trans
      (congrArg (Bus.serveAll m.bus) (congrArg Effect.requests effect))
    rw [served]
    simp only [Effect.requests_andThen, Bus.serveAll_append, Effect.ofFetch, Bus.serveAll_cons,
      Bus.serveAll_nil, FlatMemory.serve_read, Mode.serveAll_effect_requests]

/-- The step of an instruction that reads a byte and works it into the registers. -/
theorem step_of_consume (m : Machine FlatMemory) (running : m.cpu.halted = false)
    {update : Registers → UInt8 → Registers} {address : UInt16}
    (action : m.nextInstruction.mnemonic.action = .consume update)
    (found : m.nextOperand = .memory address) :
    m.step.cpu.registers = update m.located (m.bus.get address) ∧ m.step.bus = m.bus := by
  have effect := m.effect_of_step running
  rw [action, found] at effect
  exact effect

namespace Executes

variable {mnemonic : Mnemonic} {m m' : Machine FlatMemory}

/-- Of the registers before an execution only the program counter may have moved when the
operation is done. -/
theorem effect {operand : Operand} (h : Executes mnemonic operand m m') :
    ∃ pc, let e := mnemonic.action.effect m.bus.get { m.cpu.registers with pc } operand
      m'.cpu.registers = e.registers ∧ m'.bus = Bus.serveAll m.bus e.requests := by
  cases h with
  | alone =>
    refine ⟨m.cpu.registers.pc, ?_⟩
    rw [perform_eq]
    exact ⟨rfl, rfl⟩
  | step running named found =>
    subst named found
    exact ⟨_, m.effect_of_step running⟩

/-- Reading a byte and working it into the registers. -/
theorem consume {address : UInt16} {update : Registers → UInt8 → Registers}
    (h : Executes mnemonic (.memory address) m m') (action : mnemonic.action = .consume update) :
    m'.bus = m.bus ∧
      ∃ pc, m'.cpu.registers = update { m.cpu.registers with pc } (m.bus.get address) := by
  obtain ⟨pc, registers, bus⟩ := h.effect
  rw [action] at registers bus
  exact ⟨bus, pc, registers⟩

/-- Changing a byte in memory. -/
theorem modify {address : UInt16} {change : Registers → UInt8 → UInt8 × Registers}
    {update : Registers → UInt8 → Registers} (h : Executes mnemonic (.memory address) m m')
    (action : mnemonic.action = .modify change update) :
    ∃ pc, let changed := change { m.cpu.registers with pc } (m.bus.get address)
      m'.cpu.registers = update changed.2 changed.1 ∧
        m'.bus = (m.bus.set address (m.bus.get address)).set address changed.1 := by
  obtain ⟨pc, registers, bus⟩ := h.effect
  rw [action] at registers bus
  exact ⟨pc, registers, bus⟩

/-- Changing the accumulator. -/
theorem modify_accumulator {change : Registers → UInt8 → UInt8 × Registers}
    {update : Registers → UInt8 → Registers} (h : Executes mnemonic .accumulator m m')
    (action : mnemonic.action = .modify change update) :
    m'.bus = m.bus ∧ ∃ pc, let changed := change { m.cpu.registers with pc } m.cpu.registers.a
      m'.cpu.registers = update { changed.2 with a := changed.1 } changed.1 := by
  obtain ⟨pc, registers, bus⟩ := h.effect
  rw [action] at registers bus
  exact ⟨bus, pc, registers⟩

end Executes
end NesMachine.Machine
