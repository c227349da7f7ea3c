import NesMachine.Proofs.Bus.Dialogues

/-!
# Corresponding buses

A map from one bus to another respects accesses if both give the same bytes and the map
holds again afterwards. A bus with a record of its traffic is mapped to the bus itself, and
a bus that keeps a property to the same bus without it; so both what is recorded and what
is kept can be told from the one fact that a machine runs alike on corresponding buses.
-/
namespace NesMachine
namespace Bus

variable {β γ : Type} [Bus β] [Bus γ]

/-- Corresponding buses answer alike, and correspond after every access. -/
class Respects (f : β → γ) : Prop where
  peek (bus : β) (a : UInt16) : peek (f bus) a = peek bus a
  read (bus : β) (a : UInt16) : read (f bus) a = ((read bus a).1, f (read bus a).2)
  write (bus : β) (a : UInt16) (v : UInt8) : write (f bus) a v = f (write bus a v)

variable (f : β → γ) [Respects f]

theorem peek_map (bus : β) (a : UInt16) : peek (f bus) a = peek bus a := Respects.peek bus a

theorem read_map (bus : β) (a : UInt16) : read (f bus) a = ((read bus a).1, f (read bus a).2) :=
  Respects.read bus a

theorem write_map (bus : β) (a : UInt16) (v : UInt8) : write (f bus) a v = f (write bus a v) :=
  Respects.write bus a v

theorem simulates_map : Simulates (fun _ : β => True) fun bus other => other = f bus where
  good_of_read _ _ := trivial
  good_of_write _ _ _ := trivial
  read := by
    rintro bus _ a rfl -
    rw [read_map]
    exact ⟨rfl, rfl⟩
  write := by
    rintro bus _ a v rfl -
    exact write_map f bus a v

theorem serve_map (bus : β) (request : Request) :
    serve (f bus) request = f (serve bus request) := by
  cases request with
  | read a => rw [serve, read_map, serve]
  | write a v => exact write_map f bus a v

theorem serveAll_map (bus : β) (requests : List Request) :
    serveAll (f bus) requests = f (serveAll bus requests) := by
  induction requests generalizing bus with
  | nil => rfl
  | cons request rest ih => rw [serveAll_cons, serveAll_cons, serve_map, ih]

theorem peekMany_map (bus : β) (a : UInt16) (count : Nat) :
    peekMany (f bus) a count = peekMany bus a count := by
  induction count generalizing a with
  | zero => rfl
  | succ count ih => rw [peekMany, peekMany, ih, peek_map]

/-- No access takes the property away from a bus that has it. -/
class Keeps (P : β → Prop) : Prop where
  read {bus : β} (a : UInt16) : P bus → P (read bus a).2
  write {bus : β} (a : UInt16) (v : UInt8) : P bus → P (write bus a v)

variable {P : β → Prop} [Keeps P]

theorem keeps_serve {bus : β} (h : P bus) (request : Request) : P (serve bus request) := by
  cases request with
  | read a => exact Keeps.read a h
  | write a v => exact Keeps.write a v h

theorem keeps_serveAll {bus : β} (h : P bus) (requests : List Request) :
    P (serveAll bus requests) := by
  induction requests generalizing bus with
  | nil => exact h
  | cons request rest ih => exact ih (keeps_serve h request)

instance : Bus {bus : β // P bus} where
  read bus a := ((read bus.1 a).1, ⟨(read bus.1 a).2, Keeps.read a bus.2⟩)
  peek bus a := peek bus.1 a
  write bus a v := ⟨write bus.1 a v, Keeps.write a v bus.2⟩

instance : Respects (Subtype.val : {bus : β // P bus} → β) where
  peek _ _ := rfl
  read _ _ := rfl
  write _ _ _ := rfl

end Bus

namespace Recorded

variable {β : Type} [Bus β]

instance : Bus.Respects (Recorded.bus : Recorded β → β) where
  peek _ _ := rfl
  read _ _ := rfl
  write _ _ _ := rfl

/-- Whether the recorded traffic is what has led here from some bus. -/
def Since (start : β) (r : Recorded β) : Prop :=
  r.bus = Bus.serveAll start (r.traffic.toList.map Transfer.request)

theorem Since.serve {start : β} {r : Recorded β} (since : Since start r) (request : Request)
    (made : (Bus.serve r request).traffic.toList.map Transfer.request =
      r.traffic.toList.map Transfer.request ++ [request]) : Since start (Bus.serve r request) := by
  have before : r.bus = Bus.serveAll start (r.traffic.toList.map Transfer.request) := since
  rw [Since, made, Bus.serveAll_append, ← before]
  cases request <;> rfl

instance (start : β) : Bus.Keeps (Since start) where
  read a since := since.serve (.read a) (by simp [Bus.serve, Bus.read, Transfer.request])
  write a v since := since.serve (.write a v) (by simp [Bus.serve, Bus.write, Transfer.request])

end Recorded
end NesMachine
