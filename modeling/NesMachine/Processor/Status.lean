/-!
# The status register

Six flags. The packed byte exists only where it is pushed, pulled or shown: its bits are,
from the highest, `N V 1 B D I Z C`. Bit 5 always reads as one, and bit 4 tells whether an
instruction or a device pushed the byte; neither is kept when a byte is unpacked.
-/
namespace NesMachine

/-- The flags of the processor. The decimal flag is stored, pushed and pulled, and has no
effect on arithmetic. -/
structure Status where
  negative : Bool
  overflow : Bool
  decimal : Bool
  interruptDisable : Bool
  zero : Bool
  carry : Bool
  deriving DecidableEq, Repr

namespace Status

def carryMask : UInt8 := 0x01

def zeroMask : UInt8 := 0x02

def interruptDisableMask : UInt8 := 0x04

def decimalMask : UInt8 := 0x08

/-- The bit that is set in a byte pushed by an instruction and clear in one pushed for a
device. -/
def breakMask : UInt8 := 0x10

/-- The bit that reads as one in every packed byte. -/
def unusedMask : UInt8 := 0x20

def overflowMask : UInt8 := 0x40

def negativeMask : UInt8 := 0x80

/-- The flags in a packed byte; bits 5 and 4 are dropped. -/
def ofByte (byte : UInt8) : Status where
  negative := byte &&& negativeMask != 0
  overflow := byte &&& overflowMask != 0
  decimal := byte &&& decimalMask != 0
  interruptDisable := byte &&& interruptDisableMask != 0
  zero := byte &&& zeroMask != 0
  carry := byte &&& carryMask != 0

/-- The byte that is pushed on the stack. `byInstruction` tells a push by an instruction
from one made to serve a device. -/
def pushed (p : Status) (byInstruction : Bool) : UInt8 :=
  unusedMask
    ||| (if byInstruction then breakMask else 0)
    ||| (if p.negative then negativeMask else 0)
    ||| (if p.overflow then overflowMask else 0)
    ||| (if p.decimal then decimalMask else 0)
    ||| (if p.interruptDisable then interruptDisableMask else 0)
    ||| (if p.zero then zeroMask else 0)
    ||| (if p.carry then carryMask else 0)

/-- The packed byte as the processor reports it, with bits 5 and 4 set. -/
def toByte (p : Status) : UInt8 := p.pushed true

/-- Whether any bit of `mask` is set in the packed byte. -/
def isSet (p : Status) (mask : UInt8) : Bool := p.toByte &&& mask != 0

/-- The flags after a result: zero if it is zero, negative if its highest bit is set. -/
def withResult (p : Status) (result : UInt8) : Status :=
  { p with zero := result == 0, negative := 0x80 ≤ result }

/-- Unpacking a pushed byte gives the flags back, whoever pushed it. -/
@[simp] theorem ofByte_pushed (p : Status) (byInstruction : Bool) :
    ofByte (p.pushed byInstruction) = p := by
  obtain ⟨n, v, d, i, z, c⟩ := p
  revert n v d i z c byInstruction
  decide

@[simp] theorem ofByte_toByte (p : Status) : ofByte p.toByte = p := ofByte_pushed p true

end Status
end NesMachine
