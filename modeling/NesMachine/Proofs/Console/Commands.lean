import NesMachine.Console.Basic
import NesMachine.Proofs.Cartridge.Images
import NesMachine.Proofs.Console.Devices
import NesMachine.Proofs.Processor.Commands

/-!
# Commands of a host to a console

The host gives the console the commands that it can give a machine, and is told something
in return. The machine on the devices alone goes on as it would without a console around
it: reports of faults and the journal take nothing from it but the traced lines.
-/
namespace NesMachine

inductive Reply where
  | outcome (outcome : Except ConsoleError Bool)
  | taken (taken : Bool)
  | byte (value : UInt8)
  | done

namespace Machine

theorem takeTrace_map {β γ : Type} (f : β → γ) (m : Machine β) :
    (m.map f).takeTrace = (m.takeTrace.1, m.takeTrace.2.map f) := by
  obtain ⟨⟨registers, cycles, halted, trace⟩, bus⟩ := m
  cases trace <;> rfl

theorem exists_takeTrace {β : Type} (m : Machine β) :
    ∃ trace, m.takeTrace.2 = { m with cpu := { m.cpu with trace } } := by
  obtain ⟨⟨registers, cycles, halted, trace⟩, bus⟩ := m
  cases trace with
  | none => exact ⟨none, rfl⟩
  | some lines => exact ⟨some #[], rfl⟩

theorem startTrace_map {β γ : Type} (f : β → γ) (m : Machine β) :
    (m.map f).startTrace = m.startTrace.map f := rfl

/-- A reset reads two bytes of ROM, and nothing on the bus notices. -/
theorem bus_reset (m : Machine ConsoleBus) : m.reset.bus = m.bus := by
  have calls : m.reset.bus = Bus.serveAll m.bus (m.callsOf .reset) := m.bus_obey .reset
  rw [calls, callsOf_reset]
  show ((m.bus.read 0xFFFC).2.read 0xFFFD).2 = m.bus
  rw [m.bus.read_rom (by decide), m.bus.read_rom (by decide)]

end Machine

theorem ConsoleBus.fitted_powerOn {image : Array UInt8} {cartridge : Cartridge}
    (accepted : Cartridge.ofImage image = .ok cartridge) (strict : Bool) :
    (powerOn cartridge strict).devices.Fitted cartridge.board.prgRom := by
  constructor
  · show cartridge.board.prgRam.size = 0x2000
    rw [Cartridge.prgRam_of_ofImage accepted, Array.size_replicate]
  · rfl

namespace Console

def obey (c : Console) : Command → Reply × Console
  | .step => (.outcome c.step.1, c.step.2)
  | .irq => (.taken c.irq.1, c.irq.2)
  | .nmi => (.done, c.nmi)
  | .reset => (.done, c.reset)
  | .jump a => (.done, c.jump a)
  | .setRegisters registers => (.done, c.mapMachine (·.mapRegisters fun _ => registers))
  | .read a => (.byte (c.read a).1, (c.read a).2)
  | .write a v => (.done, c.write a v)

/-- The console after several commands. -/
def after (c : Console) (commands : List Command) : Console :=
  commands.foldl (fun c command => (c.obey command).2) c

theorem after_append (c : Console) (before commands : List Command) :
    c.after (before ++ commands) = (c.after before).after commands := List.foldl_append

/-- The machine on the devices of the console. -/
def core (c : Console) : Machine Devices := c.machine.map ConsoleBus.devices

section Step

variable (c : Console)

theorem journalsInstructions_noteInstructions :
    c.noteInstructions.journalsInstructions = c.journalsInstructions := by
  unfold noteInstructions
  split <;> rfl

theorem journalsInstructions_noteFaults :
    c.noteFaults.journalsInstructions = c.journalsInstructions := by
  unfold noteFaults
  split <;> rfl

theorem region_noteInstructions : c.noteInstructions.region = c.region := by
  unfold noteInstructions
  split <;> rfl

theorem region_noteFaults : c.noteFaults.region = c.region := by
  unfold noteFaults
  split <;> rfl

theorem bus_noteInstructions : c.noteInstructions.machine.bus = c.machine.bus := by
  obtain ⟨⟨⟨registers, cycles, halted, trace⟩, bus⟩, region, journals, journal⟩ := c
  cases journals <;> cases trace <;> rfl

theorem core_noteInstructions : c.noteInstructions.core =
    if c.journalsInstructions then c.core.takeTrace.2 else c.core := by
  unfold noteInstructions
  split
  · rw [core, core, Machine.takeTrace_map]
  · rfl

theorem cpu_noteFaults : c.noteFaults.machine.cpu = c.machine.cpu := by
  unfold noteFaults
  split <;> rfl

theorem bus_noteFaults : c.noteFaults.machine.bus.devices = c.machine.bus.devices ∧
    c.noteFaults.machine.bus.strict = c.machine.bus.strict ∧
    c.noteFaults.machine.bus.fault = c.machine.bus.fault := by
  unfold noteFaults
  split <;> exact ⟨rfl, rfl, rfl⟩

theorem core_noteFaults : c.noteFaults.core = c.core := by
  rw [core, core, Machine.map, Machine.map, cpu_noteFaults, (bus_noteFaults c).1]

/-- The console once its machine has taken a step and what there was to tell is noted. -/
def noted : Console := (c.mapMachine Machine.step).noteInstructions.noteFaults

theorem journalsInstructions_noted : c.noted.journalsInstructions = c.journalsInstructions := by
  rw [noted, journalsInstructions_noteFaults, journalsInstructions_noteInstructions]
  rfl

theorem region_noted : c.noted.region = c.region := by
  rw [noted, region_noteFaults, region_noteInstructions]
  rfl

theorem noted_bus : c.noted.machine.bus.strict = c.machine.step.bus.strict ∧
    c.noted.machine.bus.fault = c.machine.step.bus.fault := by
  obtain ⟨-, strict, fault⟩ := bus_noteFaults (c.mapMachine Machine.step).noteInstructions
  rw [bus_noteInstructions] at strict fault
  exact ⟨strict, fault⟩

theorem core_noted : c.noted.core =
    if c.journalsInstructions then c.core.step.takeTrace.2 else c.core.step := by
  have stepped : (c.mapMachine Machine.step).core = c.core.step :=
    (Machine.step_map ConsoleBus.devices c.machine).symm
  rw [noted, core_noteFaults, core_noteInstructions, stepped]
  rfl

/-- Apart from the traced lines, noting takes nothing from the machine. -/
theorem exists_core_noted : ∃ trace,
    c.noted.core = { c.core.step with cpu := { c.core.step.cpu with trace } } := by
  rw [core_noted]
  split
  · exact c.core.step.exists_takeTrace
  · exact ⟨_, rfl⟩

theorem exists_cpu_noted : ∃ trace,
    c.noted.machine.cpu = { c.machine.step.cpu with trace } := by
  obtain ⟨trace, same⟩ := c.exists_core_noted
  have cpu := congrArg Machine.cpu same
  rw [core, core, Machine.step_map] at cpu
  exact ⟨trace, cpu⟩

/-- A step reports the fault that is kept once its instruction has run, and takes it. -/
theorem step_eq : c.step =
    (c.noted.machine.bus.fault.elim (.ok c.noted.machine.cpu.halted)
      (fun fault => .error (.memoryFault fault)), c.noted.takeFault.2) := by
  have known : (c.mapMachine Machine.step).noteInstructions.noteFaults = c.noted := rfl
  cases kept : c.noted.machine.bus.fault with
  | none =>
    have nothing : c.noted.takeFault.2 = c.noted := by
      simp only [takeFault, ConsoleBus.takeFault, ← kept]
    simp only [step, known, kept, nothing, Option.elim]
  | some fault => simp only [step, known, kept, Option.elim]

theorem report_step : c.step.1 = c.machine.step.bus.fault.elim (.ok c.machine.step.cpu.halted)
    (fun fault => .error (.memoryFault fault)) := by
  obtain ⟨trace, cpu⟩ := c.exists_cpu_noted
  rw [step_eq, c.noted_bus.2, cpu]

theorem cycles_step : c.step.2.cycles = c.machine.step.cpu.cycles := by
  obtain ⟨trace, cpu⟩ := c.exists_cpu_noted
  have spent : c.noted.machine.cpu.cycles = c.machine.step.cpu.cycles := by rw [cpu]
  rw [step_eq]
  exact spent

end Step

theorem machine_obey (c : Console) {command : Command} (other : command ≠ .step) :
    (c.obey command).2.machine = c.machine.obey command := by
  cases command with
  | step => exact absurd rfl other
  | irq | nmi | reset | jump a | setRegisters registers | read a | write a v => rfl

theorem journalsInstructions_obey (c : Console) (command : Command) :
    (c.obey command).2.journalsInstructions = c.journalsInstructions := by
  cases command with
  | step =>
    show c.step.2.journalsInstructions = _
    rw [step_eq]
    exact c.journalsInstructions_noted
  | irq | nmi | reset | jump a | setRegisters registers | read a | write a v => rfl

theorem core_obey (c : Console) (command : Command) : (c.obey command).2.core =
    if command = .step ∧ c.journalsInstructions then (c.core.obey command).takeTrace.2
    else c.core.obey command := by
  by_cases other : command = .step
  · subst other
    show c.step.2.core = _
    simp only [true_and, step_eq]
    exact c.core_noted
  · rw [if_neg (fun h => other h.1), core, machine_obey c other]
    exact (Machine.obey_map ConsoleBus.devices c.machine command).symm

theorem keeps_obey {P : Devices → Prop} [Bus.Keeps P] {c : Console} (h : P c.core.bus)
    (command : Command) : P (c.obey command).2.core.bus := by
  have kept : P (c.core.obey command).bus := Machine.keeps_obey h command
  rw [core_obey]
  split
  · obtain ⟨trace, same⟩ := (c.core.obey command).exists_takeTrace
    rw [same]
    exact kept
  · exact kept

theorem keeps_after {P : Devices → Prop} [Bus.Keeps P] {c : Console} (h : P c.core.bus)
    (commands : List Command) : P (c.after commands).core.bus := by
  induction commands generalizing c with
  | nil => exact h
  | cons command rest ih => exact ih (keeps_obey h command)

def switchedOn (settings : Settings) (cartridge : Cartridge) : Console :=
  let machine := Machine.powerOn (ConsoleBus.powerOn cartridge settings.strictMemory)
  { machine := if settings.traceInstructions then machine.startTrace else machine
    region := settings.region
    journalsInstructions := settings.traceInstructions
    journal := #[] }

theorem powerOn_of_ofImage {settings : Settings} {cartridge : Cartridge}
    (accepted : Cartridge.ofImage settings.image = .ok cartridge) :
    powerOn settings = .ok (switchedOn settings cartridge) := by
  rw [powerOn, accepted]
  rfl

theorem ofImage_of_powerOn {settings : Settings} {c : Console} (on : powerOn settings = .ok c) :
    ∃ cartridge, Cartridge.ofImage settings.image = .ok cartridge ∧
      c = switchedOn settings cartridge := by
  cases accepted : Cartridge.ofImage settings.image with
  | error e =>
    rw [powerOn, accepted] at on
    cases on
  | ok cartridge =>
    rw [powerOn_of_ofImage accepted] at on
    exact ⟨cartridge, rfl, (Except.ok.inj on).symm⟩

theorem bus_switchedOn (settings : Settings) (cartridge : Cartridge) :
    (switchedOn settings cartridge).machine.bus =
      ConsoleBus.powerOn cartridge settings.strictMemory := by
  have on : (Machine.powerOn (ConsoleBus.powerOn cartridge settings.strictMemory)).bus =
      ConsoleBus.powerOn cartridge settings.strictMemory := Machine.bus_reset _
  unfold switchedOn
  split <;> exact on

theorem core_switchedOn (settings : Settings) (cartridge : Cartridge) :
    (switchedOn settings cartridge).core =
      (switchedOn { settings with strictMemory := false } cartridge).core := by
  have alike (strict : Bool) : (Machine.powerOn (ConsoleBus.powerOn cartridge strict)).map
      ConsoleBus.devices = Machine.powerOn (ConsoleBus.powerOn cartridge false).devices :=
    (Machine.powerOn_map ConsoleBus.devices (ConsoleBus.powerOn cartridge strict)).symm
  unfold switchedOn core
  split
  · rw [← Machine.startTrace_map, ← Machine.startTrace_map, alike, alike]
  · rw [alike, alike]

theorem fitted_switchedOn {settings : Settings} {cartridge : Cartridge}
    (accepted : Cartridge.ofImage settings.image = .ok cartridge) :
    (switchedOn settings cartridge).core.bus.Fitted cartridge.board.prgRom := by
  show (switchedOn settings cartridge).machine.bus.devices.Fitted cartridge.board.prgRom
  rw [bus_switchedOn]
  exact ConsoleBus.fitted_powerOn accepted settings.strictMemory

end Console
end NesMachine
