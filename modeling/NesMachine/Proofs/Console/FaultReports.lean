import NesMachine.Proofs.Console.Commands

/-!
# Strict and lenient consoles

A strict console and a lenient one that are switched on with the same image go on alike
under the same commands. They differ in what a step reports: the lenient console never
reports a fault, and the strict one reports the first fault since its last report, of the
instruction that has just run or of what the host did before it.
-/
namespace NesMachine

def Reply.reportsFault : Reply → Bool
  | .outcome (.error _) => true
  | _ => false

namespace Console

/-- The faults among the accesses that a command makes. -/
def faultsOf (c : Console) (command : Command) : List BusFault :=
  (c.machine.callsOf command).filterMap Request.fault?

/-- The faults since the last report of one, of those still without a report and those of
several commands. -/
def unreported (c : Console) (pending : List BusFault) : List Command → List BusFault
  | [] => pending
  | command :: rest =>
    let (reply, next) := c.obey command
    next.unreported (if reply.reportsFault then [] else pending ++ c.faultsOf command) rest

/-- What the host can see of both consoles is the same. -/
structure Agrees (c d : Console) : Prop where
  registers : c.cpu.registers = d.cpu.registers
  cycles : c.cycles = d.cycles
  halted : c.cpu.halted = d.cpu.halted
  ram : c.bus.ram = d.bus.ram
  picture : c.bus.picture = d.bus.picture
  sound : c.bus.sound = d.bus.sound
  prgRam : c.bus.cartridge.board.prgRam = d.bus.cartridge.board.prgRam

theorem agrees_of_core {c d : Console} {trace : Option (Array TraceLine)}
    (same : c.core = { d.core with cpu := { d.core.cpu with trace } }) : Agrees c d := by
  have cpu : c.cpu = { d.cpu with trace } := congrArg Machine.cpu same
  have devices : c.bus.devices = d.bus.devices := congrArg Machine.bus same
  constructor
  · rw [cpu]
  · show c.cpu.cycles = d.cpu.cycles
    rw [cpu]
  · rw [cpu]
  · exact congrArg Devices.ram devices
  · exact congrArg Devices.picture devices
  · exact congrArg Devices.sound devices
  · exact congrArg (·.cartridge.board.prgRam) devices

theorem fault_machine_obey {rom : Array UInt8} {c : Console} (fitted : c.core.bus.Fitted rom)
    (command : Command) : (c.machine.obey command).bus.strict = c.bus.strict ∧
      (c.machine.obey command).bus.fault =
        if c.bus.strict then c.bus.fault.or (c.faultsOf command).head? else c.bus.fault := by
  rw [Machine.bus_obey]
  exact ConsoleBus.fault_serveAll fitted (c.machine.callsOf command)

/-- A strict console keeps the first of the faults that are still without a report. -/
structure KeepsFirst (c : Console) (pending : List BusFault) : Prop where
  strict : c.bus.strict = true
  first : c.bus.fault = pending.head?

section Strict

variable {rom : Array UInt8} {c : Console} (fitted : c.core.bus.Fitted rom)
  {pending : List BusFault}

include fitted

theorem KeepsFirst.fault_machine_obey (keeps : c.KeepsFirst pending) (command : Command) :
    (c.machine.obey command).bus.fault = (pending ++ c.faultsOf command).head? := by
  rw [(Console.fault_machine_obey fitted command).2, if_pos keeps.strict, keeps.first,
    List.head?_append]

theorem KeepsFirst.report_step (keeps : c.KeepsFirst pending) : c.step.1 =
    (pending ++ c.faultsOf .step).head?.elim (.ok c.machine.step.cpu.halted)
      (fun fault => .error (.memoryFault fault)) := by
  have kept : c.machine.step.bus.fault = _ := keeps.fault_machine_obey fitted .step
  rw [Console.report_step, kept]

theorem KeepsFirst.unreported_step (keeps : c.KeepsFirst pending) :
    c.unreported pending [.step] = [] := by
  have report := keeps.report_step fitted
  show (if (Reply.outcome c.step.1).reportsFault then [] else pending ++ c.faultsOf .step) = []
  rw [report]
  cases pending ++ c.faultsOf .step with
  | nil => rfl
  | cons first rest => rfl

theorem KeepsFirst.obey (keeps : c.KeepsFirst pending) (command : Command) :
    (c.obey command).2.KeepsFirst (if (c.obey command).1.reportsFault then []
      else pending ++ c.faultsOf command) := by
  have stillStrict := (Console.fault_machine_obey fitted command).1.trans keeps.strict
  by_cases other : command = .step
  · subst other
    show c.step.2.KeepsFirst (c.unreported pending [.step])
    rw [keeps.unreported_step fitted, step_eq]
    exact ⟨c.noted_bus.1.trans stillStrict, rfl⟩
  · have silent : (c.obey command).1.reportsFault = false := by
      cases command with
      | step => exact absurd rfl other
      | _ => rfl
    rw [silent]
    constructor
    · rw [bus, machine_obey c other, stillStrict]
    · rw [bus, machine_obey c other, keeps.fault_machine_obey fitted command]
      rfl

end Strict

/-- A lenient console keeps no fault. -/
structure Lenient (c : Console) : Prop where
  lenient : c.bus.strict = false
  nothing : c.bus.fault = none

theorem Lenient.machine_obey {rom : Array UInt8} {c : Console} (fitted : c.core.bus.Fitted rom)
    (lenient : c.Lenient) (command : Command) :
    (c.machine.obey command).bus.strict = false ∧ (c.machine.obey command).bus.fault = none := by
  obtain ⟨strict, fault⟩ := fault_machine_obey fitted command
  rw [lenient.lenient] at strict fault
  exact ⟨strict, fault.trans lenient.nothing⟩

theorem Lenient.report_step {rom : Array UInt8} {c : Console} (fitted : c.core.bus.Fitted rom)
    (lenient : c.Lenient) : c.step.1 = .ok c.machine.step.cpu.halted := by
  have none : c.machine.step.bus.fault = none := (lenient.machine_obey fitted .step).2
  rw [Console.report_step, none]
  rfl

theorem Lenient.obey {rom : Array UInt8} {c : Console} (fitted : c.core.bus.Fitted rom)
    (lenient : c.Lenient) (command : Command) : (c.obey command).2.Lenient := by
  have still := lenient.machine_obey fitted command
  by_cases other : command = .step
  · subst other
    show c.step.2.Lenient
    rw [step_eq]
    exact ⟨c.noted_bus.1.trans still.1, rfl⟩
  · constructor
    · rw [bus, Console.machine_obey c other, still.1]
    · rw [bus, Console.machine_obey c other, still.2]

/-- A strict and a lenient console that have gone through the same. -/
structure Paired (rom : Array UInt8) (pending : List BusFault) (s l : Console) : Prop where
  core : s.core = l.core
  journals : s.journalsInstructions = l.journalsInstructions
  fitted : s.core.bus.Fitted rom
  keeps : s.KeepsFirst pending
  lenient : l.Lenient

namespace Paired

variable {rom : Array UInt8} {pending : List BusFault} {s l : Console}

theorem fitted_lenient (pair : Paired rom pending s l) : l.core.bus.Fitted rom :=
  pair.core ▸ pair.fitted

theorem obey (pair : Paired rom pending s l) (command : Command) :
    Paired rom (if (s.obey command).1.reportsFault then [] else pending ++ s.faultsOf command)
      (s.obey command).2 (l.obey command).2 where
  core := by rw [core_obey, core_obey, pair.core, pair.journals]
  journals := by rw [journalsInstructions_obey, journalsInstructions_obey, pair.journals]
  fitted := keeps_obey pair.fitted command
  keeps := pair.keeps.obey pair.fitted command
  lenient := pair.lenient.obey pair.fitted_lenient command

theorem after (pair : Paired rom pending s l) (commands : List Command) :
    Paired rom (s.unreported pending commands) (s.after commands) (l.after commands) := by
  induction commands generalizing pending s l with
  | nil => exact pair
  | cons command rest ih => exact ih (pair.obey command)

theorem agrees (pair : Paired rom pending s l) : s.Agrees l := by
  apply agrees_of_core
  exact pair.core

theorem reply_eq (pair : Paired rom pending s l) {command : Command} (other : command ≠ .step) :
    (s.obey command).1 = (l.obey command).1 := by
  cases command with
  | step => exact absurd rfl other
  | irq =>
    have same := congrArg (fun m => m.irq.1) pair.core
    simp only [Console.core, Machine.irq_map] at same
    exact congrArg Reply.taken same
  | read a =>
    have same := congrArg (fun m => (Bus.read m.bus a).1) pair.core
    simp only [Console.core, Machine.bus_map, Bus.read_map ConsoleBus.devices] at same
    exact congrArg Reply.byte same
  | nmi | reset | jump a | setRegisters registers | write a v => rfl

end Paired

theorem paired_switchedOn {settings : Settings} {cartridge : Cartridge}
    (accepted : Cartridge.ofImage settings.image = .ok cartridge) :
    Paired cartridge.board.prgRom [] (switchedOn { settings with strictMemory := true } cartridge)
      (switchedOn { settings with strictMemory := false } cartridge) where
  core := core_switchedOn _ cartridge
  journals := rfl
  fitted := fitted_switchedOn accepted
  keeps := by constructor <;> rw [bus, bus_switchedOn] <;> rfl
  lenient := by constructor <;> rw [bus, bus_switchedOn] <;> rfl

theorem unreported_append (c : Console) (pending : List BusFault) (before commands : List Command) :
    c.unreported pending (before ++ commands) =
      (c.after before).unreported (c.unreported pending before) commands := by
  induction before generalizing c pending with
  | nil => rfl
  | cons command rest ih => exact ih _ _

/-- Strict and lenient consoles go on alike. A strict step reports the first fault since the
last report, in place of what the lenient step tells, and has then run its instruction to the
end. -/
theorem agrees_of_same_image {settings : Settings} {cartridge : Cartridge}
    (accepted : Cartridge.ofImage settings.image = .ok cartridge) :
    ∃ strict lenient, powerOn { settings with strictMemory := true } = .ok strict ∧
      powerOn { settings with strictMemory := false } = .ok lenient ∧
      ∀ commands,
        let s := strict.after commands
        let l := lenient.after commands
        let faults := strict.unreported [] commands ++ s.faultsOf .step
        s.Agrees l ∧
        (∀ command ≠ .step, (s.obey command).1 = (l.obey command).1) ∧
        l.step.1 = .ok l.machine.step.cpu.halted ∧
        (faults = [] → s.step.1 = l.step.1) ∧
        (∀ fault, s.step.1 = .error (.memoryFault fault) ↔ faults.head? = some fault) ∧
        s.step.2.Agrees (s.mapMachine Machine.step) ∧
        strict.unreported [] (commands ++ [.step]) = [] := by
  have begun := paired_switchedOn accepted
  refine ⟨_, _, powerOn_of_ofImage accepted, powerOn_of_ofImage accepted, ?_⟩
  intro commands s l faults
  have pair := begun.after commands
  have lenientReport := pair.lenient.report_step pair.fitted_lenient
  have strictReport : s.step.1 = faults.head?.elim _ _ := pair.keeps.report_step pair.fitted
  have sameHalt : s.machine.step.cpu.halted = l.machine.step.cpu.halted := by
    have same := congrArg (fun m => m.step.cpu.halted) pair.core
    simp only [core, Machine.step_map] at same
    exact same
  refine ⟨pair.agrees, fun command => pair.reply_eq, lenientReport, ?_, ?_, ?_, ?_⟩
  · intro none
    rw [strictReport, none, lenientReport, ← sameHalt]
    rfl
  · intro fault
    rw [strictReport]
    cases faults.head? with
    | none => simp
    | some first => simp
  · obtain ⟨trace, same⟩ := s.exists_core_noted
    have stepped : (s.mapMachine Machine.step).core = s.core.step :=
      (Machine.step_map ConsoleBus.devices s.machine).symm
    apply agrees_of_core
    rw [stepped, step_eq]
    exact same
  · rw [unreported_append]
    exact pair.keeps.unreported_step pair.fitted

theorem agrees_of_same_image_rom_written :
    ∃ cartridge strict lenient, Cartridge.ofImage Cartridge.trainedImage = .ok cartridge ∧
      powerOn ⟨Cartridge.trainedImage, .ntsc, true, true⟩ = .ok strict ∧
      powerOn ⟨Cartridge.trainedImage, .ntsc, false, true⟩ = .ok lenient ∧
      let s := strict.after [.step, .write 0x8000 0x2A, .read 0x5000]
      let l := lenient.after [.step, .write 0x8000 0x2A, .read 0x5000]
      s.step.1 = .error (.memoryFault (.romWrite 0x8000 0x2A)) ∧
      l.step.1 = .ok l.machine.step.cpu.halted ∧ s.step.2.Agrees (s.mapMachine Machine.step) := by
  obtain ⟨cartridge, accepted⟩ := Cartridge.exists_ofImage_trainedImage
  let settings : Settings := ⟨Cartridge.trainedImage, .ntsc, true, true⟩
  have traced : Cartridge.ofImage settings.image = .ok cartridge := accepted
  obtain ⟨strict, lenient, on, on', alike⟩ := agrees_of_same_image traced
  refine ⟨cartridge, strict, lenient, accepted, on, on', ?_⟩
  obtain ⟨-, -, lenientReport, -, report, stepped, -⟩ :=
    alike [.step, .write 0x8000 0x2A, .read 0x5000]
  obtain ⟨-, -, -, -, -, -, reported⟩ := alike []
  refine ⟨(report _).mpr ?_, lenientReport, stepped⟩
  rw [show [Command.step, .write 0x8000 0x2A, .read 0x5000] =
    [.step] ++ [.write 0x8000 0x2A, .read 0x5000] from rfl, unreported_append]
  rw [show strict.unreported [] [.step] = [] from reported]
  rfl

end Console
end NesMachine
