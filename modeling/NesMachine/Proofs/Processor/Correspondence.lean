import NesMachine.Proofs.Bus.Correspondence
import NesMachine.Proofs.Processor.Routines

/-!
# A machine on corresponding buses

Machines with the same processor on related buses go on alike: whatever they are told to do,
the processors stay the same and the buses related. Only their traces may differ, and those
do not where the one bus is mapped to the other.
-/
namespace NesMachine
namespace Machine

section Trace

variable {β : Type} [Bus β] (m : Machine β)

theorem engine_traceInstruction : m.traceInstruction.cpu.engine = m.cpu.engine := by
  unfold traceInstruction
  split <;> rfl

theorem trace_traceInstruction : m.traceInstruction.cpu.trace =
    m.cpu.trace.map (·.push (.capture m.bus m.cpu.registers m.cpu.cycles)) := by
  unfold traceInstruction
  split
  · next none => rw [none, Option.map_none]
  · next lines some => rw [some, Option.map_some]

/-- A processor that is not jammed traces the state in which it is before a step. -/
theorem trace_step : m.step.cpu.trace =
    if m.cpu.halted then m.cpu.trace
    else m.cpu.trace.map (·.push (.capture m.bus m.cpu.registers m.cpu.cycles)) := by
  unfold step
  split
  · rfl
  · rw [(Routine.hold_of_on (Routine.on_execute _)).2, trace_traceInstruction]

theorem trace_irq : m.irq.2.cpu.trace = m.cpu.trace := by
  unfold irq
  split <;> rfl

theorem trace_nmi : m.nmi.cpu.trace = m.cpu.trace := by
  unfold nmi
  split <;> rfl

end Trace

section Alike

variable {β γ : Type}

/-- Nothing but the lines that they have traced tells the processors of two machines apart. -/
structure Alike (Related : β → γ → Prop) (m : Machine β) (n : Machine γ) : Prop where
  engine : n.cpu.engine = m.cpu.engine
  bus : Related m.bus n.bus

namespace Alike

variable {Related : β → γ → Prop} {m : Machine β} {n : Machine γ}

theorem registers (alike : Alike Related m n) : n.cpu.registers = m.cpu.registers :=
  congrArg Engine.registers alike.engine

theorem cycles (alike : Alike Related m n) : n.cpu.cycles = m.cpu.cycles :=
  congrArg Engine.cycles alike.engine

theorem halted (alike : Alike Related m n) : n.cpu.halted = m.cpu.halted :=
  congrArg Engine.halted alike.engine

theorem mapRegisters (alike : Alike Related m n) (f : Registers → Registers) :
    Alike Related (m.mapRegisters f) (n.mapRegisters f) where
  engine := congrArg (fun e : Engine => { e with registers := f e.registers }) alike.engine
  bus := alike.bus

variable [Bus β] [Bus γ] {Good : β → Prop} (simulates : Bus.Simulates Good Related)
include simulates

/-- A routine that is carried through on both machines leaves them alike. -/
theorem routine {p : Routine Unit} {m' : Machine β} {n' : Machine γ} (alike : Alike Related m n)
    (held : p.on (Bus.answers β) m = .ok ((), m')) (held' : p.on (Bus.answers γ) n = .ok ((), n'))
    (good : Good m'.bus) : Alike Related m' n' := by
  obtain ⟨here, -⟩ := Routine.hold_of_on held
  obtain ⟨there, -⟩ := Routine.hold_of_on held'
  obtain ⟨other, same, related⟩ := Dialogue.hold_simulates simulates alike.bus here good
  rw [alike.engine, same] at there
  obtain ⟨outcome, rfl⟩ := Prod.mk.inj (Except.ok.inj there)
  exact ⟨(congrArg Prod.snd outcome).symm, related⟩

theorem step (alike : Alike Related m n) (good : Good m.step.bus) : Alike Related m.step n.step := by
  unfold Machine.step at good ⊢
  rw [alike.halted]
  split at good
  · next jammed => rwa [if_pos jammed, if_pos jammed]
  · next running =>
    rw [if_neg running, if_neg running]
    have traced : Alike Related m.traceInstruction n.traceInstruction := by
      constructor
      · rw [engine_traceInstruction, engine_traceInstruction, alike.engine]
      · rw [bus_traceInstruction, bus_traceInstruction]
        exact alike.bus
    exact traced.routine simulates (Routine.on_execute _) (Routine.on_execute _) good

theorem serve (alike : Alike Related m n) (vector : UInt16)
    (good : Good (m.idle.idle.enterInterrupt vector m.cpu.registers.pc false).bus) :
    Alike Related (m.idle.idle.enterInterrupt vector m.cpu.registers.pc false)
      (n.idle.idle.enterInterrupt vector n.cpu.registers.pc false) :=
  alike.routine simulates (Routine.on_serve m vector) (Routine.on_serve n vector) good

theorem irq (alike : Alike Related m n) (good : Good m.irq.2.bus) :
    n.irq.1 = m.irq.1 ∧ Alike Related m.irq.2 n.irq.2 := by
  have refusal : (n.cpu.halted || n.cpu.registers.p.interruptDisable) =
      (m.cpu.halted || m.cpu.registers.p.interruptDisable) := by
    rw [alike.halted, alike.registers]
  unfold Machine.irq at good ⊢
  rw [refusal]
  split at good
  · next refused =>
    rw [if_pos refused, if_pos refused]
    exact ⟨rfl, alike⟩
  · next taken =>
    rw [if_neg taken, if_neg taken]
    exact ⟨rfl, alike.serve simulates irqVector good⟩

theorem nmi (alike : Alike Related m n) (good : Good m.nmi.bus) : Alike Related m.nmi n.nmi := by
  unfold Machine.nmi at good ⊢
  rw [alike.halted]
  split at good
  · next jammed => rwa [if_pos jammed, if_pos jammed]
  · next running =>
    rw [if_neg running, if_neg running]
    exact alike.serve simulates nmiVector good

theorem reset (alike : Alike Related m n) (good : Good m.reset.bus) :
    Alike Related m.reset n.reset :=
  alike.routine simulates (Routine.on_reset m) (Routine.on_reset n) good

end Alike
end Alike

section Processor

variable {β γ : Type} (f : β → γ) (m : Machine β)

/-- The same processor on another bus. -/
def map : Machine γ := ⟨m.cpu, f m.bus⟩

@[simp] theorem cpu_map : (m.map f).cpu = m.cpu := rfl

@[simp] theorem bus_map : (m.map f).bus = f m.bus := rfl

theorem alike_map : Alike (fun bus other => other = f bus) m (m.map f) := ⟨rfl, rfl⟩

variable {f m} in
theorem Alike.eq_map {n : Machine γ} (alike : Alike (fun bus other => other = f bus) m n)
    (trace : n.cpu.trace = m.cpu.trace) : n = m.map f := by
  obtain ⟨⟨registers, cycles, halted, lines⟩, bus⟩ := n
  obtain ⟨engine, rfl⟩ := alike
  obtain ⟨rfl, rfl, rfl⟩ := Engine.mk.inj engine
  obtain rfl : lines = m.cpu.trace := trace
  rfl

end Processor

variable {β γ : Type} [Bus β] [Bus γ] (f : β → γ) [Bus.Respects f] (m : Machine β)

/-- A trace line shows what peeks show. -/
theorem capture_map (bus : β) (r : Registers) (cycles : Nat) :
    TraceLine.capture (f bus) r cycles = TraceLine.capture bus r cycles := by
  simp only [TraceLine.capture, disassemble, Bus.peekMany_map f, Bus.peek_map f,
    OperandView.ofInstruction, OperandView.ofZeroPageIndexed, OperandView.ofAbsoluteIndexed,
    Bus.peekWord, Bus.peekWordInPage, Bus.peekZeroPageWord]

theorem step_map : (m.map f).step = m.step.map f := by
  refine ((alike_map f m).step (Bus.simulates_map f) trivial).eq_map ?_
  rw [trace_step, trace_step, cpu_map, bus_map, capture_map]

theorem irq_map : (m.map f).irq = (m.irq.1, m.irq.2.map f) := by
  obtain ⟨taken, alike⟩ := (alike_map f m).irq (Bus.simulates_map f) trivial
  refine Prod.ext taken (alike.eq_map ?_)
  rw [trace_irq, trace_irq, cpu_map]

theorem nmi_map : (m.map f).nmi = m.nmi.map f := by
  refine ((alike_map f m).nmi (Bus.simulates_map f) trivial).eq_map ?_
  rw [trace_nmi, trace_nmi, cpu_map]

theorem reset_map : (m.map f).reset = m.reset.map f :=
  ((alike_map f m).reset (Bus.simulates_map f) trivial).eq_map rfl

theorem powerOn_map (bus : β) : powerOn (f bus) = (powerOn bus).map f := reset_map f ⟨_, bus⟩

end Machine
end NesMachine
