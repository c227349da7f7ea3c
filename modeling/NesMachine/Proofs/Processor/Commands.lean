import NesMachine.Proofs.Processor.Correspondence
import NesMachine.Proofs.Processor.StepTraffic

/-!
# Commands of a host, on any bus

The host of a machine has it run an instruction, makes requests, presses reset, sets
registers, and reads and writes on the bus itself. Whatever devices the bus has, all that a
command does to it are the calls that a record of the bus shows, and a property that no
access takes away from the bus is not taken away by a command either.
-/
namespace NesMachine

inductive Command where
  | step
  | irq
  | nmi
  | reset
  | jump (address : UInt16)
  | setRegisters (registers : Registers)
  | read (address : UInt16)
  | write (address : UInt16) (value : UInt8)
  deriving DecidableEq, Repr

namespace Machine

variable {β γ : Type} [Bus β] [Bus γ]

def obey (m : Machine β) : Command → Machine β
  | .step => m.step
  | .irq => m.irq.2
  | .nmi => m.nmi
  | .reset => m.reset
  | .jump a => m.jump a
  | .setRegisters registers => m.mapRegisters fun _ => registers
  | .read a => { m with bus := (Bus.read m.bus a).2 }
  | .write a v => { m with bus := Bus.write m.bus a v }

theorem obey_map (f : β → γ) [Bus.Respects f] (m : Machine β) (command : Command) :
    (m.map f).obey command = (m.obey command).map f := by
  cases command with
  | step => exact step_map f m
  | irq => exact congrArg Prod.snd (irq_map f m)
  | nmi => exact nmi_map f m
  | reset => exact reset_map f m
  | jump a | setRegisters registers => rfl
  | read a => simp [obey, Bus.read_map f, map]
  | write a v => simp [obey, Bus.write_map f, map]

/-- The calls on the bus that a command leads to. -/
def callsOf (m : Machine β) (command : Command) : List Request := (m.recorded.obey command).calls

theorem keeps_obey {P : β → Prop} [Bus.Keeps P] {m : Machine β} (h : P m.bus) (command : Command) :
    P (m.obey command).bus := by
  let kept : Machine {bus : β // P bus} := ⟨m.cpu, ⟨m.bus, h⟩⟩
  have same : m.obey command = (kept.obey command).map Subtype.val :=
    obey_map Subtype.val kept command
  rw [same]
  exact (kept.obey command).bus.2

/-- What a command does to the bus is to make its calls there. -/
theorem bus_obey (m : Machine β) (command : Command) :
    (m.obey command).bus = Bus.serveAll m.bus (m.callsOf command) := by
  have begun : m.recorded.bus.Since m.bus := rfl
  have since : (m.recorded.obey command).bus.Since m.bus := keeps_obey begun command
  have same : m.obey command = (m.recorded.obey command).map Recorded.bus :=
    obey_map Recorded.bus m.recorded command
  rw [same]
  exact since

/-- A command leaves related buses related, and nothing in the processors to tell apart. -/
theorem Alike.obey {Good : β → Prop} {Related : β → γ → Prop}
    (simulates : Bus.Simulates Good Related) {m : Machine β} {n : Machine γ}
    (alike : Alike Related m n) (command : Command) (good : Good (m.obey command).bus) :
    Alike Related (m.obey command) (n.obey command) := by
  cases command with
  | step => exact alike.step simulates good
  | irq => exact (alike.irq simulates good).2
  | nmi => exact alike.nmi simulates good
  | reset => exact alike.reset simulates good
  | jump a => exact alike.mapRegisters fun r => { r with pc := a }
  | setRegisters registers => exact alike.mapRegisters fun _ => registers
  | read a => exact ⟨alike.engine, (simulates.read a alike.bus good).2⟩
  | write a v => exact ⟨alike.engine, simulates.write a v alike.bus good⟩

/-- The machine after several commands. -/
def after (m : Machine β) (commands : List Command) : Machine β := commands.foldl obey m

theorem after_append (m : Machine β) (before commands : List Command) :
    m.after (before ++ commands) = (m.after before).after commands := List.foldl_append

theorem after_map (f : β → γ) [Bus.Respects f] (m : Machine β) (commands : List Command) :
    (m.map f).after commands = (m.after commands).map f := by
  induction commands generalizing m with
  | nil => rfl
  | cons command rest ih =>
    show ((m.map f).obey command).after rest = ((m.obey command).after rest).map f
    rw [obey_map, ih]

theorem good_of_after {Good : β → Prop} {Related : β → γ → Prop}
    (simulates : Bus.Simulates Good Related) {m : Machine β} {commands : List Command}
    (good : Good (m.after commands).bus) : Good m.bus := by
  induction commands generalizing m with
  | nil => exact good
  | cons command rest ih =>
    have soon : Good (m.obey command).bus := ih good
    rw [bus_obey] at soon
    exact simulates.good_of_serveAll soon

theorem Alike.after {Good : β → Prop} {Related : β → γ → Prop}
    (simulates : Bus.Simulates Good Related) {m : Machine β} {n : Machine γ}
    (alike : Alike Related m n) (commands : List Command) (good : Good (m.after commands).bus) :
    Alike Related (m.after commands) (n.after commands) := by
  induction commands generalizing m n with
  | nil => exact alike
  | cons command rest ih =>
    exact ih (alike.obey simulates command (good_of_after simulates good)) good

theorem callsOf_reset (m : Machine β) : m.callsOf .reset = [.read 0xFFFC, .read 0xFFFD] := rfl

end Machine
end NesMachine
