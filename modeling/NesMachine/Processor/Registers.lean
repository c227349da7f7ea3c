import NesMachine.Processor.Status

/-!
# Registers

The accumulator, two index registers, the stack pointer, the program counter and the
flags. The stack lives in page one, grows downwards, and its pointer names the next free
byte, wrapping within the page.
-/
namespace NesMachine

structure Registers where
  a : UInt8
  x : UInt8
  y : UInt8
  /-- The stack pointer. -/
  s : UInt8
  /-- The program counter. -/
  pc : UInt16
  /-- The flags. -/
  p : Status
  deriving DecidableEq, Repr

namespace Registers

/-- The registers before the first reset: all zero, and interrupts disabled. -/
def powerOn : Registers := ⟨0, 0, 0, 0, 0, Status.ofByte 0x34⟩

/-- The address of the next free byte of the stack. -/
def stackAddress (r : Registers) : UInt16 := 0x0100 + r.s.toUInt16

/-- The address to write for a push, and the registers with the slot taken. -/
def push (r : Registers) : UInt16 × Registers :=
  (r.stackAddress, { r with s := r.s - 1 })

/-- The address to read for a pull, and the registers with the slot given back. -/
def pop (r : Registers) : UInt16 × Registers :=
  let r := { r with s := r.s + 1 }
  (r.stackAddress, r)

end Registers
end NesMachine
