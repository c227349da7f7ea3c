import NesMachine.Console.TestStatus
import NesMachine.Proofs.Cartridge.CheckedImages
import NesMachine.Proofs.Console.CheckedDevices
import NesMachine.Proofs.Console.StepReports
import NesMachine.Proofs.Processor.CheckedDisassembly

/-!
# Runs without a panic

Everything that a console does by itself, with everything checked that a program checks while
it runs: the places that instructions must not get to, and every index, slice, difference and
remainder. No check fails. The cycles spent are the one difference that could be negative
from the way a run goes, and they are not because no step gives cycles back. The cycles are
counted without a bound.
-/
namespace NesMachine.Checked

section Machine

def traceInstruction (m : Machine ConsoleBus) : Except Panic (Machine ConsoleBus) := do
  match m.cpu.trace with
  | none => return m
  | some lines =>
    let line ← captureLine (peek m.bus) m.cpu.registers m.cpu.cycles
    return { m with cpu := { m.cpu with trace := some (lines.push line) } }

def execute (m : Machine ConsoleBus) : Except Panic (Machine ConsoleBus) :=
  return (← Routine.execute.on answers m).2

def serve (vector : UInt16) (m : Machine ConsoleBus) : Except Panic (Machine ConsoleBus) :=
  return (← (Routine.serve vector).on answers m).2

def reset (m : Machine ConsoleBus) : Except Panic (Machine ConsoleBus) :=
  return (← Routine.reset.on answers m).2

def stepMachine (m : Machine ConsoleBus) : Except Panic (Machine ConsoleBus) := do
  if m.cpu.halted then return m
  execute (← traceInstruction m)

def irq (m : Machine ConsoleBus) : Except Panic (Bool × Machine ConsoleBus) := do
  if m.cpu.halted || m.cpu.registers.p.interruptDisable then return (false, m)
  return (true, ← serve irqVector m)

def nmi (m : Machine ConsoleBus) : Except Panic (Machine ConsoleBus) := do
  if m.cpu.halted then return m
  serve nmiVector m

variable (m : Machine ConsoleBus)

theorem peek_bus_eq (bus : ConsoleBus) : peek bus = fun a => .ok (Bus.peek bus a) := by
  funext a
  exact peek_eq bus a

theorem traceInstruction_eq : traceInstruction m = .ok m.traceInstruction := by
  unfold traceInstruction Machine.traceInstruction
  cases m.cpu.trace with
  | none => rfl
  | some lines =>
    dsimp only
    rw [peek_bus_eq, captureLine_eq]
    rfl

theorem execute_eq : execute m = .ok m.execute := by
  rw [execute, answers_eq, Routine.on_execute]
  rfl

theorem serve_eq (vector : UInt16) : serve vector m =
    .ok (m.idle.idle.enterInterrupt vector m.cpu.registers.pc false) := by
  rw [serve, answers_eq, Routine.on_serve]
  rfl

theorem reset_eq : reset m = .ok m.reset := by
  rw [reset, answers_eq, Routine.on_reset]
  rfl

theorem stepMachine_eq : stepMachine m = .ok m.step := by
  unfold stepMachine Machine.step
  split
  · rfl
  · rw [traceInstruction_eq, ok_bind, execute_eq]

theorem irq_eq : irq m = .ok m.irq := by
  unfold irq Machine.irq
  split
  · rfl
  · rw [serve_eq]
    rfl

theorem nmi_eq : nmi m = .ok m.nmi := by
  unfold nmi Machine.nmi
  split
  · rfl
  · rw [serve_eq]

end Machine

section Console

def powerOn (settings : Settings) : Except Panic (Except ConsoleError Console) := do
  match ← readCartridge settings.image with
  | .error e => return .error (.cartridge e)
  | .ok cartridge =>
    let bus := ConsoleBus.powerOn cartridge settings.strictMemory
    let machine ← reset ⟨⟨.powerOn, 0, false, none⟩, bus⟩
    return .ok {
      machine := if settings.traceInstructions then machine.startTrace else machine
      region := settings.region
      journalsInstructions := settings.traceInstructions
      journal := #[] }

def step (c : Console) : Except Panic (Except ConsoleError Bool × Console) := do
  let machine ← stepMachine c.machine
  let c := { c with machine }.noteInstructions.noteFaults
  match c.machine.bus.fault with
  | none => return (.ok c.machine.cpu.halted, c)
  | some fault => return (.error (.memoryFault fault), c.takeFault.2)

def obey (c : Console) : Command → Except Panic (Reply × Console)
  | .step => do
    let (outcome, c) ← step c
    return (.outcome outcome, c)
  | .irq => do
    let (taken, machine) ← irq c.machine
    return (.taken taken, { c with machine })
  | .nmi => return (.done, { c with machine := ← nmi c.machine })
  | .reset => return (.done, { c with machine := ← reset c.machine })
  | .jump a => return (.done, c.jump a)
  | .setRegisters registers => return (.done, c.mapMachine (·.mapRegisters fun _ => registers))
  | .read a => do
    let (v, bus) ← read c.machine.bus a
    return (.byte v, { c with machine := { c.machine with bus } })
  | .write a v => do
    let bus ← write c.machine.bus a v
    return (.done, { c with machine := { c.machine with bus } })

def runFrom (start limit : Nat) (stop : Console → Bool) : (fuel : Nat) → Console →
    Except Panic (Except ConsoleError RunOutcome × Console)
  | 0, c => return (.ok .limitReached, c)
  | fuel + 1, c => do
    if stop c then return (.ok .stopped, c)
    if limit ≤ (← difference c.cycles start) then return (.ok .limitReached, c)
    match ← step c with
    | (.error e, c) => return (.error e, c)
    | (.ok true, c) => return (.ok .halted, c)
    | (.ok false, c) => runFrom start limit stop fuel c

theorem powerOn_eq (settings : Settings) : powerOn settings = .ok (Console.powerOn settings) := by
  rw [powerOn, readCartridge_eq, ok_bind, Console.powerOn]
  cases Cartridge.ofImage settings.image with
  | error e => rfl
  | ok cartridge =>
    dsimp only
    rw [reset_eq]
    rfl

theorem step_eq (c : Console) : step c = .ok c.step := by
  rw [step, stepMachine_eq, ok_bind, Console.step]
  dsimp only [Console.mapMachine]
  generalize Console.noteFaults _ = noted
  cases noted.machine.bus.fault <;> rfl

theorem obey_eq (c : Console) (command : Command) : obey c command = .ok (c.obey command) := by
  cases command with
  | step => rw [obey, step_eq]; rfl
  | irq => rw [obey, irq_eq]; rfl
  | nmi => rw [obey, nmi_eq]; rfl
  | reset => rw [obey, reset_eq]; rfl
  | jump a | setRegisters registers => rfl
  | read a => rw [obey, read_eq]; rfl
  | write a v => rw [obey, write_eq]; rfl

/-- The cycles spent are counted from where the run has begun. -/
theorem runFrom_eq {start : Nat} (limit : Nat) (stop : Console → Bool) (fuel : Nat) {c : Console}
    (past : start ≤ c.cycles) :
    runFrom start limit stop fuel c = .ok (c.runFrom start limit stop fuel) := by
  induction fuel generalizing c with
  | zero => rfl
  | succ fuel ih =>
    rw [runFrom, Console.runFrom]
    split
    · rfl
    · rw [difference_of_le past, ok_bind]
      split
      · rfl
      · rw [step_eq, ok_bind]
        rcases report : c.step with ⟨e | jammed, c'⟩
        · rfl
        · cases jammed with
          | true => rfl
          | false =>
            have later : c.cycles ≤ c'.cycles := Console.cycles_le_of_step report
            exact ih (by omega)

end Console

section Test

open TestStatus

def started (c : Console) : Except Panic Bool :=
  signature.allM fun (a, v) => return (← peek c.bus a) == v

def observe (c : Console) (elapsed : Nat) (w : Watch) :
    Except Panic (Except StatusReport Watch) := do
  if ← started c then
    let status ← peek c.bus statusAddress
    if status = running then return .ok { w with lastStatus := some status }
    if status = needsReset then
      let due := c.cycles + c.region.cyclesIn resetDelayMilliseconds
      return .ok {
        resetAt := if w.lastStatus = some needsReset then w.resetAt else some due
        lastStatus := some status }
    let bytes ← peekText (peek c.bus) messageAddress Console.maxStringSize
    return .error ⟨status, Text.decodeUtf8 bytes, elapsed⟩
  return .ok w

def pressReset (c : Console) (w : Watch) : Except Panic (Console × Watch) := do
  match w.resetAt with
  | some due =>
    if due ≤ c.cycles then
      return ({ c with machine := ← reset c.machine }, { w with resetAt := none })
    return (c, w)
  | none => return (c, w)

def testFrom (start budget : Nat) : (fuel : Nat) → Console → Watch →
    Except Panic (Except ConsoleError StatusReport × Console)
  | 0, c, _ => return (.error (.timeout (← difference c.cycles start)), c)
  | fuel + 1, c, w => do
    let elapsed ← difference c.cycles start
    match ← observe c elapsed w with
    | .error report => return (.ok report, c)
    | .ok w =>
      let (c, w) ← pressReset c w
      if budget ≤ elapsed then return (.error (.timeout elapsed), c)
      match ← step c with
      | (.error e, c) => return (.error e, c)
      | (.ok true, c) =>
        let pc := c.pc - 1
        return (.error (.jammed pc (← peek c.bus pc)), c)
      | (.ok false, c) => testFrom start budget fuel c w

theorem started_eq (c : Console) : started c = .ok (TestStatus.started c) := by
  unfold started
  simp only [peek_eq, ok_bind]
  exact List.allM_pure

theorem observe_eq (c : Console) (elapsed : Nat) (w : Watch) :
    observe c elapsed w = .ok (TestStatus.observe c elapsed w) := by
  rw [observe, started_eq, ok_bind, TestStatus.observe]
  split
  · have shown : c.bus.peek statusAddress = c.peek statusAddress := rfl
    rw [peek_eq, ok_bind, shown]
    dsimp only
    split
    · rfl
    · split
      · rfl
      · rw [peek_bus_eq, peekText_eq]
        rfl
  · rfl

theorem pressReset_eq (c : Console) (w : Watch) :
    pressReset c w = .ok (TestStatus.pressReset c w) := by
  unfold pressReset TestStatus.pressReset
  cases w.resetAt with
  | none => rfl
  | some due =>
    dsimp only
    split
    · rw [reset_eq]
      rfl
    · rfl

theorem cycles_le_pressReset (c : Console) (w : Watch) :
    c.cycles ≤ (TestStatus.pressReset c w).1.cycles := by
  unfold TestStatus.pressReset
  cases w.resetAt with
  | none => exact Nat.le_refl _
  | some due =>
    dsimp only
    split
    · rw [Console.cycles_reset]
      exact Nat.le_add_right _ _
    · exact Nat.le_refl _

theorem testFrom_eq {start : Nat} (budget fuel : Nat) {c : Console} (w : Watch)
    (past : start ≤ c.cycles) :
    testFrom start budget fuel c w = .ok (TestStatus.runFrom start budget fuel c w) := by
  induction fuel generalizing c w with
  | zero =>
    rw [testFrom, difference_of_le past]
    rfl
  | succ fuel ih =>
    rw [testFrom, difference_of_le past, ok_bind, observe_eq, ok_bind, TestStatus.runFrom]
    cases TestStatus.observe c (c.cycles - start) w with
    | error report => rfl
    | ok w =>
      dsimp only
      rw [pressReset_eq, ok_bind]
      rcases pressed : TestStatus.pressReset c w with ⟨c', w'⟩
      have notEarlier : c.cycles ≤ c'.cycles := by
        have grown := cycles_le_pressReset c w
        rwa [pressed] at grown
      dsimp only
      split
      · rfl
      · rw [step_eq, ok_bind]
        rcases report : c'.step with ⟨e | jammed, c''⟩
        · rfl
        · cases jammed with
          | true =>
            dsimp only
            rw [peek_eq]
            rfl
          | false =>
            have later : c'.cycles ≤ c''.cycles := Console.cycles_le_of_step report
            exact ih w' (by omega)

end Test

end NesMachine.Checked
