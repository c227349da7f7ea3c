/-!
# Buses

A bus answers for every address of a sixteen-bit address space. Reading may change what
answers, as a device register does when it is read; peeking looks at the same byte and
changes nothing.
-/
namespace NesMachine

class Bus (β : Type) where
  /-- Reads a byte, with whatever the read does to the devices on the bus. -/
  read : β → UInt16 → UInt8 × β
  /-- Looks at a byte without any effect. -/
  peek : β → UInt16 → UInt8
  /-- Writes a byte. -/
  write : β → UInt16 → UInt8 → β

namespace Bus

variable {β : Type} [Bus β]

/-- The `count` bytes from `address` on, wrapping at the top of the address space. -/
def peekMany (bus : β) (address : UInt16) : (count : Nat) → List UInt8
  | 0 => []
  | count + 1 => peek bus address :: peekMany bus (address + 1) count

end Bus
end NesMachine
