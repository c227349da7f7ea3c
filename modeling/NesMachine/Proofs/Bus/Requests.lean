import NesMachine.Bus.Flat
import NesMachine.Bus.Traffic

/-!
# Requests on plain buses

A bus is plain when a read gives the byte that a peek shows, only a write changes what
peeks show, and it changes the one byte written. What a stretch of execution does to a
plain bus is the list of requests it makes; its transfers are these requests together
with the bytes that were read.
-/
namespace NesMachine

/-- Memory as peeks show it: one byte at each address. -/
abbrev View := UInt16 → UInt8

instance : Bus View where
  read view a := (view a, view)
  peek view := view
  write view a v := fun b => if a = b then v else view b

/-- A bus that is memory and nothing else to those who use it. -/
class PlainBus (β : Type) [Bus β] : Prop where
  read_value (bus : β) (a : UInt16) : (Bus.read bus a).1 = Bus.peek bus a
  peek_read (bus : β) (a : UInt16) : Bus.peek (Bus.read bus a).2 = Bus.peek bus
  peek_write (bus : β) (a : UInt16) (v : UInt8) :
    Bus.peek (Bus.write bus a v) = Bus.write (Bus.peek bus) a v

/-- One call on a bus, without the byte that a read gives back. -/
inductive Request where
  | read (address : UInt16)
  | write (address : UInt16) (value : UInt8)
  deriving DecidableEq, Repr

def Transfer.request : Transfer → Request
  | .read a _ => .read a
  | .write a v => .write a v

namespace Bus

variable {β : Type} [Bus β]

def serve (bus : β) : Request → β
  | .read a => (read bus a).2
  | .write a v => write bus a v

def serveAll (bus : β) (requests : List Request) : β := requests.foldl serve bus

def transfer (bus : β) : Request → Transfer
  | .read a => .read a (read bus a).1
  | .write a v => .write a v

/-- The transfers that several requests make one after the other. -/
def transfers (bus : β) : List Request → List Transfer
  | [] => []
  | request :: rest => transfer bus request :: transfers (serve bus request) rest

@[simp] theorem serveAll_nil (bus : β) : serveAll bus [] = bus := rfl

@[simp] theorem serveAll_cons (bus : β) (request : Request) (rest : List Request) :
    serveAll bus (request :: rest) = serveAll (serve bus request) rest := rfl

@[simp] theorem serveAll_append (bus : β) (first rest : List Request) :
    serveAll bus (first ++ rest) = serveAll (serveAll bus first) rest :=
  List.foldl_append

theorem transfers_append (bus : β) (first rest : List Request) :
    transfers bus (first ++ rest) = transfers bus first ++ transfers (serveAll bus first) rest := by
  induction first generalizing bus with
  | nil => rfl
  | cons request first ih => simp [transfers, ih]

/-- The transfers are made by the requests and by nothing else, in the same order. -/
theorem map_request_transfers (bus : β) (requests : List Request) :
    (transfers bus requests).map Transfer.request = requests := by
  induction requests generalizing bus with
  | nil => rfl
  | cons request rest ih => cases request <;> simp [transfers, transfer, Transfer.request, ih]

@[simp] theorem peek_view (view : View) : peek view = view := rfl

@[simp] theorem read_view (view : View) (a : UInt16) : read view a = (view a, view) := rfl

theorem write_view (view : View) (a : UInt16) (v : UInt8) (b : UInt16) :
    write view a v b = if a = b then v else view b := rfl

@[simp] theorem peek_serve [PlainBus β] (bus : β) (request : Request) :
    peek (serve bus request) = serve (peek bus) request := by
  cases request with
  | read a => exact PlainBus.peek_read bus a
  | write a v => exact PlainBus.peek_write bus a v

@[simp] theorem peek_serveAll [PlainBus β] (bus : β) (requests : List Request) :
    peek (serveAll bus requests) = serveAll (peek bus) requests := by
  induction requests generalizing bus with
  | nil => rfl
  | cons request rest ih => simp [ih]

/-- On a plain bus the transfers can be told from what peeks show. -/
theorem transfers_peek [PlainBus β] (bus : β) (requests : List Request) :
    transfers bus requests = transfers (peek bus) requests := by
  induction requests generalizing bus with
  | nil => rfl
  | cons request rest ih =>
    cases request with
    | read a => simp [transfers, transfer, ih, PlainBus.read_value]
    | write a v => simp [transfers, transfer, ih]

@[simp] theorem serve_read_view (view : View) (a : UInt16) : serve view (.read a) = view := rfl

@[simp] theorem serve_write_view (view : View) (a : UInt16) (v : UInt8) :
    serve view (.write a v) = write view a v := rfl

end Bus

instance : PlainBus View where
  read_value _ _ := rfl
  peek_read _ _ := rfl
  peek_write _ _ _ := rfl

instance : PlainBus FlatMemory where
  read_value _ _ := rfl
  peek_read _ _ := rfl
  peek_write m a v := by
    funext b
    exact m.get_set a b v

namespace FlatMemory

@[simp] theorem get_zero (a : UInt16) : zero.get a = 0 := by simp [zero, get]

@[simp] theorem serve_read (m : FlatMemory) (a : UInt16) : Bus.serve m (.read a) = m := rfl

@[simp] theorem serve_write (m : FlatMemory) (a : UInt16) (v : UInt8) :
    Bus.serve m (.write a v) = m.set a v := rfl

theorem get_serveAll (memory : FlatMemory) (requests : List Request) :
    (Bus.serveAll memory requests).get = Bus.serveAll memory.get requests :=
  Bus.peek_serveAll memory requests

theorem serveAll_reads (memory : FlatMemory) (addresses : List UInt16) :
    Bus.serveAll memory (addresses.map .read) = memory := by
  induction addresses with
  | nil => rfl
  | cons a rest ih => exact ih

theorem transfers_reads (memory : FlatMemory) (addresses : List UInt16) :
    Bus.transfers memory (addresses.map .read) =
      addresses.map fun a => .read a (memory.get a) := by
  induction addresses with
  | nil => rfl
  | cons a rest ih => exact congrArg (.read a (memory.get a) :: ·) ih

end FlatMemory

namespace Recorded

variable {β : Type} [Bus β]

instance [PlainBus β] : PlainBus (Recorded β) where
  read_value r a := PlainBus.read_value r.bus a
  peek_read r a := PlainBus.peek_read r.bus a
  peek_write r a v := PlainBus.peek_write r.bus a v

/-- The recorded bus is served as it would be without the record. -/
@[simp] theorem bus_serveAll (r : Recorded β) (requests : List Request) :
    (Bus.serveAll r requests).bus = Bus.serveAll r.bus requests := by
  induction requests generalizing r with
  | nil => rfl
  | cons request rest ih =>
    rw [Bus.serveAll_cons, ih]
    cases request <;> rfl

theorem traffic_serveAll (r : Recorded β) (requests : List Request) :
    (Bus.serveAll r requests).traffic.toList =
      r.traffic.toList ++ Bus.transfers r.bus requests := by
  induction requests generalizing r with
  | nil => simp [Bus.transfers]
  | cons request rest ih =>
    rw [Bus.serveAll_cons, ih]
    cases request <;> simp [Bus.serve, Bus.read, Bus.write, Bus.transfers, Bus.transfer]

end Recorded
end NesMachine
