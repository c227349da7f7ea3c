import NesMachine.Proofs.Bus.Requests
import NesMachine.Proofs.Panics

/-!
# Dialogues with a bus

A program that works on a bus is the tree of its calls: what it does next may depend on the
bytes it has read so far, and on nothing else of the bus. A byte that is only looked at is
not part of the dialogue, so that no program can tell what a look shows.
-/
namespace NesMachine

inductive Dialogue (α : Type) where
  | done (result : α)
  | read (address : UInt16) (next : UInt8 → Dialogue α)
  /-- Looks at a byte and drops it. -/
  | look (address : UInt16) (next : Dialogue α)
  | write (address : UInt16) (value : UInt8) (next : Dialogue α)
  /-- Where no dialogue is meant to get. -/
  | unreachable

/-- How calls are answered: each answer may be a panic. -/
structure Answers (β : Type) where
  read : β → UInt16 → Except Panic (UInt8 × β)
  peek : β → UInt16 → Except Panic UInt8
  write : β → UInt16 → UInt8 → Except Panic β

/-- A bus answers every call. -/
def Bus.answers (β : Type) [Bus β] : Answers β where
  read bus a := .ok (read bus a)
  peek bus a := .ok (peek bus a)
  write bus a v := .ok (write bus a v)

namespace Dialogue

variable {α δ : Type}

def bind (f : α → Dialogue δ) : Dialogue α → Dialogue δ
  | done a => f a
  | read a next => read a fun v => (next v).bind f
  | look a next => look a (next.bind f)
  | write a v next => write a v (next.bind f)
  | unreachable => unreachable

instance : Monad Dialogue where
  pure := done
  bind d f := d.bind f

variable {β γ : Type}

/-- Holds a dialogue with a bus. -/
def hold (answers : Answers β) : Dialogue α → β → Except Panic (α × β)
  | done a, bus => .ok (a, bus)
  | read a next, bus => do
    let (v, bus) ← answers.read bus a
    (next v).hold answers bus
  | look a next, bus => do
    let _ ← answers.peek bus a
    next.hold answers bus
  | write a v next, bus => do
    let bus ← answers.write bus a v
    next.hold answers bus
  | unreachable, _ => .error .unreachable

theorem hold_bind (answers : Answers β) (d : Dialogue α) (f : α → Dialogue δ) (bus : β) :
    (d.bind f).hold answers bus =
      d.hold answers bus >>= fun (a, bus) => (f a).hold answers bus := by
  induction d generalizing bus with
  | done a => rfl
  | read a next ih =>
    simp only [bind, hold]
    cases answers.read bus a with
    | error panic => rfl
    | ok answer => exact ih answer.1 answer.2
  | look a next ih =>
    simp only [bind, hold]
    cases answers.peek bus a with
    | error panic => rfl
    | ok _ => exact ih bus
  | write a v next ih =>
    simp only [bind, hold]
    cases answers.write bus a v with
    | error panic => rfl
    | ok bus => exact ih bus
  | unreachable => rfl

end Dialogue

/-- A relation of buses that calls keep, and which has them give the same bytes, for as long
as the first of them stays good. No call makes a bus good again. -/
structure Bus.Simulates {β γ : Type} [Bus β] [Bus γ] (Good : β → Prop) (Related : β → γ → Prop) :
    Prop where
  good_of_read {bus : β} (a : UInt16) : Good (read bus a).2 → Good bus
  good_of_write {bus : β} (a : UInt16) (v : UInt8) : Good (write bus a v) → Good bus
  read {bus : β} {other : γ} (a : UInt16) : Related bus other → Good (read bus a).2 →
    (read other a).1 = (read bus a).1 ∧ Related (read bus a).2 (read other a).2
  write {bus : β} {other : γ} (a : UInt16) (v : UInt8) : Related bus other →
    Good (write bus a v) → Related (write bus a v) (write other a v)

theorem Bus.Simulates.good_of_serveAll {β γ : Type} [Bus β] [Bus γ] {Good : β → Prop}
    {Related : β → γ → Prop} (simulates : Simulates Good Related) {bus : β}
    {requests : List Request} (good : Good (serveAll bus requests)) : Good bus := by
  induction requests generalizing bus with
  | nil => exact good
  | cons request rest ih =>
    cases request with
    | read a => exact simulates.good_of_read a (ih good)
    | write a v => exact simulates.good_of_write a v (ih good)

namespace Dialogue

variable {α β γ : Type} [Bus β] [Bus γ] {Good : β → Prop} {Related : β → γ → Prop}

theorem good_of_hold (simulates : Bus.Simulates Good Related) {d : Dialogue α} {bus bus' : β}
    {a : α} (held : d.hold (Bus.answers β) bus = .ok (a, bus')) (good : Good bus') :
    Good bus := by
  induction d generalizing bus with
  | done => cases held; exact good
  | read b next ih => exact simulates.good_of_read b (ih _ held)
  | look b next ih => exact ih held
  | write b v next ih => exact simulates.good_of_write b v (ih held)
  | unreachable => cases held

/-- A dialogue goes on alike on related buses. -/
theorem hold_simulates (simulates : Bus.Simulates Good Related) {d : Dialogue α} {bus bus' : β}
    {other : γ} {a : α} (related : Related bus other)
    (held : d.hold (Bus.answers β) bus = .ok (a, bus')) (good : Good bus') :
    ∃ other', d.hold (Bus.answers γ) other = .ok (a, other') ∧ Related bus' other' := by
  induction d generalizing bus other with
  | done => cases held; exact ⟨other, rfl, related⟩
  | read b next ih =>
    have soon : Good (Bus.read bus b).2 := good_of_hold simulates held good
    obtain ⟨same, kept⟩ := simulates.read b related soon
    obtain ⟨other', rest, related'⟩ := ih _ kept held
    refine ⟨other', ?_, related'⟩
    show (next (Bus.read other b).1).hold (Bus.answers γ) (Bus.read other b).2 = _
    rw [same, rest]
  | look b next ih => exact ih related held
  | write b v next ih =>
    have soon : Good (Bus.write bus b v) := good_of_hold simulates held good
    exact ih (simulates.write b v related soon) held
  | unreachable => cases held

end Dialogue
end NesMachine
