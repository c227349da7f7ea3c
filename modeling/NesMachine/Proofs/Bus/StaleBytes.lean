import NesMachine.Word
import NesMachine.Proofs.Bus.Requests

/-!
# Stale bytes

Bytes of the stack page that someone else has overwritten are stale to a program until it
writes them itself. Two memories that differ in stale bytes only go on doing so when the
same calls are made on both, and calls that read before they write find no stale byte on
their way unless one was there at the beginning.
-/
namespace NesMachine

namespace Request

/-- Whether nothing in the stack page is read once something has been written. -/
def ReadsFirst : List Request → Prop
  | [] => True
  | .read _ :: rest => ReadsFirst rest
  | .write _ _ :: rest => ∀ a, .read a ∈ rest → highByte a ≠ 1

theorem readsFirst_append {first rest : List Request} (reads : ∀ a v, .write a v ∉ first) :
    ReadsFirst (first ++ rest) ↔ ReadsFirst rest := by
  induction first with
  | nil => rfl
  | cons request first ih =>
    cases request with
    | read a => exact ih fun a v h => reads a v (List.mem_cons_of_mem _ h)
    | write a v => exact absurd (List.mem_cons_self ..) (reads a v)

/-- The stale bytes after a call made by the program: a byte that is written is not stale
any longer. -/
def refresh (stale : List UInt16) : Request → List UInt16
  | .read _ => stale
  | .write a _ => stale.filter (· ≠ a)

/-- Whether every read among some calls of the program is of a byte that is not stale. -/
def ReadsFresh (stale : List UInt16) : List Request → Prop
  | [] => True
  | .read a :: rest => a ∉ stale ∧ ReadsFresh stale rest
  | .write a v :: rest => ReadsFresh (refresh stale (.write a v)) rest

/-- Where some calls write. -/
def written (requests : List Request) : List UInt16 :=
  requests.filterMap fun
    | .read _ => none
    | .write a _ => some a

theorem mem_of_mem_refresh {stale : List UInt16} {request : Request} {a : UInt16}
    (h : a ∈ refresh stale request) : a ∈ stale := by
  cases request with
  | read b => exact h
  | write b v => exact (List.mem_filter.mp h).1

theorem mem_of_mem_foldl_refresh {stale : List UInt16} {requests : List Request} {a : UInt16}
    (h : a ∈ requests.foldl refresh stale) : a ∈ stale := by
  induction requests generalizing stale with
  | nil => exact h
  | cons request rest ih => exact mem_of_mem_refresh (ih h)

/-- Where stale bytes are all in the stack page, requests that read first can be told fresh
from the stale bytes at their beginning. -/
theorem notMem_of_readsFresh {stale : List UInt16} {requests : List Request} {a : UInt16}
    (onStack : ∀ b ∈ stale, highByte b = 1) (first : ReadsFirst requests)
    (fresh : ReadsFresh stale requests) (read : .read a ∈ requests) : a ∉ stale := by
  induction requests with
  | nil => cases read
  | cons request rest ih =>
    cases request with
    | read b =>
      rcases List.mem_cons.mp read with this | later
      · obtain rfl : a = b := Request.read.inj this
        exact fresh.1
      · exact ih first fresh.2 later
    | write b v =>
      intro staleHere
      have later : .read a ∈ rest := by simpa using read
      exact first a later (onStack a staleHere)

end Request

/-- Memories that agree but for stale bytes still do after the same calls. -/
theorem Bus.serveAll_agree {view view' : View} {stale : List UInt16} {requests : List Request}
    (agree : ∀ a, a ∉ stale → view' a = view a) {a : UInt16}
    (h : a ∉ requests.foldl Request.refresh stale) :
    serveAll view' requests a = serveAll view requests a := by
  induction requests generalizing view view' stale with
  | nil => exact agree a h
  | cons request rest ih =>
    rw [serveAll_cons, serveAll_cons]
    refine ih ?_ h
    intro b fresh
    cases request with
    | read c => exact agree b fresh
    | write c v =>
      rw [serve_write_view, serve_write_view, write_view, write_view]
      by_cases same : c = b
      · rw [if_pos same, if_pos same]
      · rw [if_neg same, if_neg same]
        have other : decide (b ≠ c) = true := decide_eq_true (Ne.symm same)
        exact agree b fun stale => fresh (List.mem_filter.mpr ⟨stale, other⟩)

theorem Bus.serveAll_of_notWritten {view : View} {requests : List Request} {a : UInt16}
    (h : ∀ v, .write a v ∉ requests) : serveAll view requests a = view a := by
  induction requests generalizing view with
  | nil => rfl
  | cons request rest ih =>
    rw [serveAll_cons, ih fun v made => h v (List.mem_cons_of_mem _ made)]
    cases request with
    | read b => rfl
    | write b v =>
      have other : b ≠ a := by
        rintro rfl
        exact h v (List.mem_cons_self ..)
      rw [serve_write_view, write_view, if_neg other]

end NesMachine
