import NesMachine.Proofs.Console.Commands
import NesMachine.Proofs.Processor.StepDuration

/-!
# What a step reports, and what it costs

A step reports a fault, a jam, or that the program goes on. One that it goes on after has
taken two to eight cycles, and no step gives cycles back. Counting steps numbers the
boundaries between the instructions of a program.
-/
namespace NesMachine.Console

section Report

variable {c : Console}

theorem fault_of_step {e : ConsoleError} (failed : c.step.1 = .error e) :
    ∃ fault, e = .memoryFault fault := by
  rw [report_step] at failed
  cases kept : c.machine.step.bus.fault with
  | none =>
    rw [kept] at failed
    cases failed
  | some fault =>
    rw [kept] at failed
    exact ⟨fault, (Except.error.inj failed).symm⟩

/-- A step that reports no fault reports whether its processor is jammed. -/
theorem halted_of_step {jammed : Bool} (report : c.step.1 = .ok jammed) :
    c.machine.step.cpu.halted = jammed := by
  rw [report_step] at report
  cases kept : c.machine.step.bus.fault with
  | none =>
    rw [kept] at report
    exact Except.ok.inj report
  | some fault =>
    rw [kept] at report
    cases report

theorem running_of_step (goesOn : c.step.1 = .ok false) : c.machine.cpu.halted = false := by
  cases halted : c.machine.cpu.halted with
  | false => rfl
  | true =>
    have jammed := halted_of_step goesOn
    rw [c.machine.step_of_halted halted, halted] at jammed
    cases jammed

/-- A step that the program goes on after has taken two to eight cycles. -/
theorem cycles_of_step (goesOn : c.step.1 = .ok false) :
    c.cycles + 2 ≤ c.step.2.cycles ∧ c.step.2.cycles ≤ c.cycles + 8 := by
  rw [cycles_step]
  exact c.machine.cycles_step_bounds (running_of_step goesOn)

theorem cycles_le_of_step {c' : Console} (goesOn : c.step = (.ok false, c')) :
    c.cycles ≤ c'.cycles := by
  have spent := (cycles_of_step (congrArg Prod.fst goesOn)).1
  rw [goesOn] at spent
  exact Nat.le_of_add_right_le spent

end Report

variable (c : Console)

theorem cycles_reset : c.reset.cycles = c.cycles + 7 := c.machine.cycles_reset

theorem pc_step : c.step.2.pc = c.machine.step.cpu.registers.pc := by
  obtain ⟨trace, cpu⟩ := c.exists_cpu_noted
  have same : c.noted.machine.cpu.registers = c.machine.step.cpu.registers := by rw [cpu]
  rw [step_eq]
  exact congrArg Registers.pc same

theorem halted_step : c.step.2.cpu.halted = c.machine.step.cpu.halted := by
  obtain ⟨trace, cpu⟩ := c.exists_cpu_noted
  have same : c.noted.machine.cpu.halted = c.machine.step.cpu.halted := by rw [cpu]
  rw [step_eq]
  exact same

theorem region_step : c.step.2.region = c.region := by
  rw [step_eq]
  exact c.region_noted

/-- Reporting takes nothing from the devices. -/
theorem devices_step : c.step.2.bus.devices = c.machine.step.bus.devices := by
  obtain ⟨trace, same⟩ := c.exists_core_noted
  have devices : c.noted.machine.bus.devices = c.core.step.bus := congrArg Machine.bus same
  rw [core, Machine.step_map] at devices
  rw [step_eq]
  exact devices

/-- The console after so many steps, whatever they report. -/
def stepped (k : Nat) : Console := c.after (List.replicate k .step)

theorem stepped_succ (k : Nat) : c.stepped (k + 1) = c.step.2.stepped k := rfl

theorem stepped_add (j k : Nat) : c.stepped (j + k) = (c.stepped j).stepped k := by
  rw [stepped, stepped, stepped, ← after_append, List.replicate_append_replicate]

theorem step_stepped (k : Nat) : (c.stepped k).step.2 = c.stepped (k + 1) :=
  (c.stepped_add k 1).symm

end NesMachine.Console
