/-!
# Panics

A program may end at once instead of giving a result: at an index that is out of range, at a
difference that would be negative, at a remainder by zero, and where it was told that it can
never get. Here are the operations that may end so, with their panics as errors.
-/
namespace NesMachine

inductive Panic where
  /-- A place that was not to be reached. -/
  | unreachable
  /-- An index, or the bounds of a slice, out of range. -/
  | outOfRange
  /-- A difference below zero. -/
  | underflow
  /-- A remainder by zero. -/
  | noModulus
  deriving DecidableEq, Repr

namespace Checked

/-- A number as an index into `size` cells. -/
def index (size i : Nat) : Except Panic (Fin size) :=
  if h : i < size then .ok ⟨i, h⟩ else .error .outOfRange

/-- The cells from `start` up to `stop`. -/
def slice {α : Type} (cells : Array α) (start stop : Nat) : Except Panic (Array α) :=
  if start ≤ stop ∧ stop ≤ cells.size then .ok (cells.extract start stop)
  else .error .outOfRange

def difference (n m : Nat) : Except Panic Nat :=
  if m ≤ n then .ok (n - m) else .error .underflow

def remainder (n modulus : Nat) : Except Panic Nat :=
  if modulus = 0 then .error .noModulus else .ok (n % modulus)

@[simp] theorem ok_bind {α β : Type} (a : α) (f : α → Except Panic β) :
    (Except.ok a >>= f) = f a := rfl

theorem index_of_lt {size i : Nat} (h : i < size) : index size i = .ok ⟨i, h⟩ := dif_pos h

theorem slice_of_le {α : Type} {cells : Array α} {start stop : Nat} (order : start ≤ stop)
    (inside : stop ≤ cells.size) : slice cells start stop = .ok (cells.extract start stop) :=
  if_pos ⟨order, inside⟩

theorem difference_of_le {n m : Nat} (h : m ≤ n) : difference n m = .ok (n - m) := if_pos h

theorem remainder_of_pos {n modulus : Nat} (h : 0 < modulus) :
    remainder n modulus = .ok (n % modulus) := if_neg (Nat.ne_of_gt h)

end Checked
end NesMachine
