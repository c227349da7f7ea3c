import NesMachine.Proofs.Bus.Correspondence

/-!
# What the last write leaves

Behind many addresses of a bus there is a byte that writes change and reads leave alone.
However many requests are made, such a byte is the one last written to any of the addresses
that it answers at.
-/
namespace NesMachine

/-- The byte that a request writes to one of some addresses, if it does. -/
def Request.writtenAt? (here : UInt16 → Prop) [DecidablePred here] : Request → Option UInt8
  | .read _ => none
  | .write a v => if here a then some v else none

/-- The byte last written to one of some addresses, and zero if there is none. -/
def lastWritten (here : UInt16 → Prop) [DecidablePred here] (requests : List Request) : UInt8 :=
  (requests.filterMap (Request.writtenAt? here)).getLastD 0

/-- A byte that reads leave alone and that each write to some addresses replaces is the one
last written there. -/
theorem Bus.peek_serveAll_of_writes {β : Type} [Bus β] {P : β → Prop} [Keeps P]
    {here : UInt16 → Prop} [DecidablePred here] {a : UInt16}
    (unread : ∀ bus : β, ∀ b, peek (read bus b).2 a = peek bus a)
    (once : ∀ bus : β, P bus → ∀ b v, peek (write bus b v) a = if here b then v else peek bus a)
    {bus : β} (kept : P bus) (requests : List Request) : peek (serveAll bus requests) a =
      (requests.filterMap (Request.writtenAt? here)).getLastD (peek bus a) := by
  -- What the rest of the requests leaves unwritten is what the first one has made of the byte.
  induction requests generalizing bus with
  | nil => rfl
  | cons request rest ih =>
    rw [serveAll_cons, ih (keeps_serve kept request)]
    cases request with
    | read b =>
      rw [serve, unread bus b]
      rfl
    | write b v =>
      rw [serve, once bus kept]
      by_cases written : here b
      · have byte : (Request.write b v).writtenAt? here = some v := if_pos written
        rw [if_pos written, List.filterMap_cons_some byte, List.getLastD_cons]
      · have nothing : (Request.write b v).writtenAt? here = none := if_neg written
        rw [if_neg written, List.filterMap_cons_none nothing]

end NesMachine
