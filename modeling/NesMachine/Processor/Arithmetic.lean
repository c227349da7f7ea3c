import NesMachine.Processor.Registers

/-!
# Arithmetic on registers

What the arithmetic, logic and shift operations do to the registers, given the byte they
work on. Nothing here touches a bus. Addition and subtraction are binary whatever the
decimal flag says.
-/
namespace NesMachine.Registers

/-- Whether the highest bit of a byte is set. -/
def isNegative (byte : UInt8) : Bool := 0x80 ≤ byte

def loadA (r : Registers) (value : UInt8) : Registers :=
  { r with a := value, p := r.p.withResult value }

def loadX (r : Registers) (value : UInt8) : Registers :=
  { r with x := value, p := r.p.withResult value }

def loadY (r : Registers) (value : UInt8) : Registers :=
  { r with y := value, p := r.p.withResult value }

def or (r : Registers) (value : UInt8) : Registers := r.loadA (r.a ||| value)

def and (r : Registers) (value : UInt8) : Registers := r.loadA (r.a &&& value)

/-- Flips the bits of the accumulator that are set in a byte. -/
def exclusiveOr (r : Registers) (value : UInt8) : Registers := r.loadA (r.a ^^^ value)

def carryIn (r : Registers) : UInt16 := if r.p.carry then 1 else 0

/-- Adds a byte and the carry to the accumulator. The carry leaves at 256; overflow means
that two operands of one sign gave a sum of the other. -/
def add (r : Registers) (value : UInt8) : Registers :=
  let sum := r.a.toUInt16 + value.toUInt16 + r.carryIn
  let result := sum.toUInt8
  let overflow := isNegative r.a == isNegative value && isNegative result != isNegative r.a
  loadA { r with p := { r.p with carry := 0xFF < sum, overflow } } result

/-- Subtracts a byte and the missing carry from the accumulator. The carry stays set when
nothing was borrowed; overflow means that operands of two signs gave a difference whose
sign is not the accumulator's. -/
def subtract (r : Registers) (value : UInt8) : Registers :=
  let difference := 0x100 + r.a.toUInt16 - value.toUInt16 - (1 - r.carryIn)
  let result := difference.toUInt8
  let overflow := isNegative r.a != isNegative value && isNegative result != isNegative r.a
  loadA { r with p := { r.p with carry := 0xFF < difference, overflow } } result

/-- Compares a register with a byte: the flags of their difference, the carry set when the
byte is not the larger one. -/
def compare (r : Registers) (register value : UInt8) : Registers :=
  { r with p := { r.p with carry := value ≤ register }.withResult (register - value) }

/-- Tests bits: zero tells whether the accumulator shares a bit with the byte, negative
and overflow copy the byte's two highest bits. -/
def testBits (r : Registers) (value : UInt8) : Registers :=
  { r with p := { r.p with
      zero := r.a &&& value == 0
      negative := value &&& 0x80 != 0
      overflow := value &&& 0x40 != 0 } }

/-- The flags after a shift: those of the result, and the bit shifted out as carry. -/
def shifted (r : Registers) (carry : Bool) (result : UInt8) : UInt8 × Registers :=
  (result, { r with p := { r.p with carry }.withResult result })

def shiftLeft (r : Registers) (value : UInt8) : UInt8 × Registers :=
  r.shifted (value &&& 0x80 != 0) (value <<< 1)

def shiftRight (r : Registers) (value : UInt8) : UInt8 × Registers :=
  r.shifted (value &&& 0x01 != 0) (value >>> 1)

/-- Shifts left and puts the old carry into the lowest bit. -/
def rotateLeft (r : Registers) (value : UInt8) : UInt8 × Registers :=
  r.shifted (value &&& 0x80 != 0) (value <<< 1 ||| (if r.p.carry then 0x01 else 0))

/-- Shifts right and puts the old carry into the highest bit. -/
def rotateRight (r : Registers) (value : UInt8) : UInt8 × Registers :=
  r.shifted (value &&& 0x01 != 0) (value >>> 1 ||| (if r.p.carry then 0x80 else 0))

/-- One more, wrapping around; the carry stays. -/
def increment (r : Registers) (value : UInt8) : UInt8 × Registers :=
  (value + 1, { r with p := r.p.withResult (value + 1) })

/-- One less, wrapping around; the carry stays. -/
def decrement (r : Registers) (value : UInt8) : UInt8 × Registers :=
  (value - 1, { r with p := r.p.withResult (value - 1) })

/-- And, then the carry copies the sign of the result. -/
def andCarry (r : Registers) (value : UInt8) : Registers :=
  let r := r.and value
  { r with p := { r.p with carry := r.p.negative } }

/-- And, then a shift of the accumulator to the right. -/
def andShiftRight (r : Registers) (value : UInt8) : Registers :=
  let r := r.and value
  let (result, r) := r.shiftRight r.a
  { r with a := result }

/-- And, then a rotation of the accumulator to the right; the carry copies bit 6 of the
result, and overflow tells whether bits 6 and 5 differ. -/
def andRotateRight (r : Registers) (value : UInt8) : Registers :=
  let result := (r.a &&& value) >>> 1 ||| (if r.p.carry then 0x80 else 0)
  let r := r.loadA result
  { r with p := { r.p with
      carry := result &&& 0x40 != 0
      overflow := (result &&& 0x40 != 0) != (result &&& 0x20 != 0) } }

/-- Subtracts from the bits that the accumulator and the first index register share,
without borrow, into that index register; the carry is that of a comparison. -/
def subtractShared (r : Registers) (value : UInt8) : Registers :=
  let shared := r.a &&& r.x
  loadX { r with p := { r.p with carry := value ≤ shared } } (shared - value)

/-- The bits that leak into the accumulator in the two unstable operations. -/
def unstableBits : UInt8 := 0xEE

/-- Puts the byte into the accumulator and the first index register. -/
def loadAX (r : Registers) (value : UInt8) : Registers :=
  { r.loadA value with x := value }

/-- The unstable transfer: the accumulator, with some bits set by accident, the first index
register and the byte, all three anded. -/
def unstableTransfer (r : Registers) (value : UInt8) : Registers :=
  r.loadA ((r.a ||| unstableBits) &&& r.x &&& value)

/-- The unstable load: the accumulator, with some bits set by accident, and the byte. -/
def unstableLoad (r : Registers) (value : UInt8) : Registers :=
  r.loadAX ((r.a ||| unstableBits) &&& value)

/-- The byte and the stack pointer, anded, go to the accumulator, the first index register
and the stack pointer. -/
def loadStack (r : Registers) (value : UInt8) : Registers :=
  { r.loadAX (value &&& r.s) with s := value &&& r.s }

end NesMachine.Registers
