import NesMachine.Bus.Basic
import NesMachine.Text.Hex

/-!
# Bus traffic

A bus that keeps a record of the reads and writes made on it, in order. Peeks are no
traffic and leave no entry.
-/
namespace NesMachine

inductive Transfer where
  | read (address : UInt16) (value : UInt8)
  | write (address : UInt16) (value : UInt8)
  deriving DecidableEq, Repr

/-- A transfer in short: `r` or `w`, the address, and the byte that went over the bus. -/
def Transfer.render : Transfer → String
  | .read a v => "r" ++ Text.hexWord a ++ "=" ++ Text.hexByte v
  | .write a v => "w" ++ Text.hexWord a ++ "=" ++ Text.hexByte v

/-- A bus together with the transfers made on it, the oldest first. -/
structure Recorded (β : Type) where
  bus : β
  traffic : Array Transfer

namespace Recorded

variable {β : Type} [Bus β]

def start (bus : β) : Recorded β := ⟨bus, #[]⟩

def forget (r : Recorded β) : Recorded β := { r with traffic := #[] }

instance : Bus (Recorded β) where
  read r a :=
    let (value, bus) := Bus.read r.bus a
    (value, { bus, traffic := r.traffic.push (.read a value) })
  peek r a := Bus.peek r.bus a
  write r a v := { bus := Bus.write r.bus a v, traffic := r.traffic.push (.write a v) }

end Recorded
end NesMachine
