import NesMachine.Proofs.Processor.Commands

/-!
# Tracing goes unnoticed

Whether instructions are traced, and what peeks show, makes no difference to a machine: it
goes on alike, with the same calls on its bus. The trace in turn shows every step of a
processor that is not jammed as it begins, and nothing else.
-/
namespace NesMachine

/-- A bus on which peeks show something of their own. -/
structure Showing {β : Type} (shown : β → UInt16 → UInt8) where
  bus : β

namespace Showing

variable {β : Type} [Bus β] {shown : β → UInt16 → UInt8}

instance : Bus (Showing shown) where
  read b a := ((Bus.read b.bus a).1, ⟨(Bus.read b.bus a).2⟩)
  peek b a := shown b.bus a
  write b a v := ⟨Bus.write b.bus a v⟩

/-- What is recorded on a bus does not depend on what peeks show. -/
theorem simulates_recorded : Bus.Simulates (fun _ : Recorded β => True)
    fun (r : Recorded β) (s : Recorded (Showing shown)) =>
      s.bus.bus = r.bus ∧ s.traffic = r.traffic where
  good_of_read _ _ := trivial
  good_of_write _ _ _ := trivial
  read := by
    rintro ⟨bus, traffic⟩ ⟨⟨_⟩, _⟩ a ⟨rfl, rfl⟩ -
    exact ⟨rfl, rfl, rfl⟩
  write := by
    rintro ⟨bus, traffic⟩ ⟨⟨_⟩, _⟩ a v ⟨rfl, rfl⟩ -
    exact ⟨rfl, rfl⟩

end Showing

theorem Bus.simulates_self {β : Type} [Bus β] :
    Simulates (fun _ : β => True) fun bus other => other = bus where
  good_of_read _ _ := trivial
  good_of_write _ _ _ := trivial
  read := by
    rintro bus _ a rfl -
    exact ⟨rfl, rfl⟩
  write := by
    rintro bus _ a v rfl -
    rfl

namespace Machine

variable {β : Type}

/-- The machine with these lines traced so far, or with no trace at all. -/
def tracing (m : Machine β) (trace : Option (Array TraceLine)) : Machine β :=
  { m with cpu := { m.cpu with trace } }

/-- The machine on a bus on which peeks show something else. -/
def showing (m : Machine β) (shown : β → UInt16 → UInt8) : Machine (Showing shown) :=
  m.map Showing.mk

variable [Bus β]

/-- The line that a trace gets for a step that begins now. -/
def line (m : Machine β) : TraceLine := .capture m.bus m.cpu.registers m.cpu.cycles

/-- The machine as it is before each step of a processor that is not jammed. -/
def starts (m : Machine β) : List Command → List (Machine β)
  | [] => []
  | .step :: rest => (if m.cpu.halted then [] else [m]) ++ m.step.starts rest
  | command :: rest => (m.obey command).starts rest

theorem starts_cons_of_ne_step (m : Machine β) {command : Command} (h : command ≠ .step)
    (rest : List Command) : m.starts (command :: rest) = (m.obey command).starts rest := by
  cases command with
  | step => exact absurd rfl h
  | _ => rfl

theorem trace_obey_of_ne_step (m : Machine β) {command : Command} (h : command ≠ .step) :
    (m.obey command).cpu.trace = m.cpu.trace := by
  cases command with
  | step => exact absurd rfl h
  | irq => exact m.trace_irq
  | nmi => exact m.trace_nmi
  | _ => rfl

theorem trace_after (m : Machine β) (commands : List Command) :
    (m.after commands).cpu.trace =
      m.cpu.trace.map (· ++ ((m.starts commands).map line).toArray) := by
  induction commands generalizing m with
  | nil => simp [after, starts]
  | cons command rest ih =>
    by_cases step : command = .step
    · subst step
      have next : m.after (.step :: rest) = m.step.after rest := rfl
      rw [next, ih, trace_step, starts]
      cases m.cpu.halted with
      | true => simp
      | false => simp [line, Function.comp_def]
    · have next : m.after (command :: rest) = (m.obey command).after rest := rfl
      rw [next, ih, starts_cons_of_ne_step m step, trace_obey_of_ne_step m step]

end Machine
end NesMachine
