import NesMachine.Word
import NesMachine.Bus.Basic
import NesMachine.Text.Hex
import NesMachine.Processor.OpcodeMatrix
import NesMachine.Processor.Registers

/-!
# Disassembly

An instruction in memory as a reader wants to see it: its operand, the address that the
operand resolves to with the present index registers, and the byte found there. All bytes
are peeked, so looking at an instruction changes nothing and takes no time.
-/
namespace NesMachine

/-- The two registers that an address can be indexed by. -/
inductive IndexRegister where
  | x | y
  deriving DecidableEq, Repr

namespace IndexRegister

def name : IndexRegister → String
  | .x => "X"
  | .y => "Y"

def value (r : Registers) : IndexRegister → UInt8
  | .x => r.x
  | .y => r.y

end IndexRegister

inductive OperandView where
  | none
  | accumulator
  | immediate (value : UInt8)
  | zeroPage (address value : UInt8)
  | zeroPageIndexed (base : UInt8) (index : IndexRegister) (address value : UInt8)
  | absolute (address : UInt16) (value : UInt8)
  | absoluteIndexed (base : UInt16) (index : IndexRegister) (address : UInt16)
      (value : UInt8)
  /-- The address where a jump, call or branch goes on. -/
  | target (address : UInt16)
  | indirect (pointer address : UInt16)
  | indexedIndirect (base pointer : UInt8) (address : UInt16) (value : UInt8)
  | indirectIndexed (pointer : UInt8) (base address : UInt16) (value : UInt8)
  deriving DecidableEq, Repr

namespace OperandView

open Text

/-- The text of an operand; `=` comes before what is found and `@` before where. -/
def render : OperandView → String
  | .none => ""
  | .accumulator => "A"
  | .immediate value => "#$" ++ hexByte value
  | .zeroPage address value => "$" ++ hexByte address ++ " = " ++ hexByte value
  | .zeroPageIndexed base index address value =>
    "$" ++ hexByte base ++ "," ++ index.name ++ " @ " ++ hexByte address ++ " = "
      ++ hexByte value
  | .absolute address value => "$" ++ hexWord address ++ " = " ++ hexByte value
  | .absoluteIndexed base index address value =>
    "$" ++ hexWord base ++ "," ++ index.name ++ " @ " ++ hexWord address ++ " = "
      ++ hexByte value
  | .target address => "$" ++ hexWord address
  | .indirect pointer address => "($" ++ hexWord pointer ++ ") = " ++ hexWord address
  | .indexedIndirect base pointer address value =>
    "($" ++ hexByte base ++ ",X) @ " ++ hexByte pointer ++ " = " ++ hexWord address ++ " = "
      ++ hexByte value
  | .indirectIndexed pointer base address value =>
    "($" ++ hexByte pointer ++ "),Y = " ++ hexWord base ++ " @ " ++ hexWord address ++ " = "
      ++ hexByte value

end OperandView

namespace Bus

variable {β : Type} [Bus β]

/-- The word at a pointer whose high byte lies on the page of its low byte. -/
def peekWordInPage (bus : β) (pointer : UInt16) : UInt16 :=
  wordOf (peek bus pointer) (peek bus (nextInPage pointer))

/-- The word at a pointer in page zero, which wraps within that page. -/
def peekZeroPageWord (bus : β) (pointer : UInt8) : UInt16 :=
  wordOf (peek bus (zeroPageAddress pointer)) (peek bus (zeroPageAddress (pointer + 1)))

/-- The word at an address and the one after it. -/
def peekWord (bus : β) (address : UInt16) : UInt16 :=
  wordOf (peek bus address) (peek bus (address + 1))

end Bus

namespace OperandView

variable {β : Type} [Bus β]

/-- An operand in page zero moved by an index register. -/
def ofZeroPageIndexed (bus : β) (r : Registers) (base : UInt8) (index : IndexRegister) :
    OperandView :=
  let address := base + index.value r
  .zeroPageIndexed base index address (Bus.peek bus (zeroPageAddress address))

/-- An operand at a word moved by an index register. -/
def ofAbsoluteIndexed (bus : β) (r : Registers) (base : UInt16) (index : IndexRegister) :
    OperandView :=
  let address := base + (index.value r).toUInt16
  .absoluteIndexed base index address (Bus.peek bus address)

def ofInstruction (bus : β) (r : Registers) (address : UInt16) (i : Instruction) :
    OperandView :=
  let byte := Bus.peek bus (address + 1)
  let word := Bus.peekWord bus (address + 1)
  match i.mode with
  | .implied => .none
  | .accumulator => .accumulator
  | .immediate => .immediate byte
  | .zeroPage => .zeroPage byte (Bus.peek bus (zeroPageAddress byte))
  | .zeroPageX => ofZeroPageIndexed bus r byte .x
  | .zeroPageY => ofZeroPageIndexed bus r byte .y
  | .absolute =>
    if i.mnemonic = .jmp ∨ i.mnemonic = .jsr then .target word
    else .absolute word (Bus.peek bus word)
  | .absoluteX => ofAbsoluteIndexed bus r word .x
  | .absoluteY => ofAbsoluteIndexed bus r word .y
  | .indirect => .indirect word (Bus.peekWordInPage bus word)
  | .indexedIndirect =>
    let pointer := byte + r.x
    let effective := Bus.peekZeroPageWord bus pointer
    .indexedIndirect byte pointer effective (Bus.peek bus effective)
  | .indirectIndexed =>
    let base := Bus.peekZeroPageWord bus byte
    let effective := base + r.y.toUInt16
    .indirectIndexed byte base effective (Bus.peek bus effective)
  | .relative => .target (displaced (address + 2) byte)

end OperandView

structure Disassembly where
  /-- The address of its opcode. -/
  address : UInt16
  /-- Its one to three bytes. -/
  bytes : List UInt8
  instruction : Instruction
  operand : OperandView
  deriving DecidableEq, Repr

/-- The instruction at an address, with operands resolved by the given registers. -/
def disassemble {β : Type} [Bus β] (bus : β) (r : Registers) (address : UInt16) :
    Disassembly :=
  let instruction := Instruction.decode (Bus.peek bus address)
  { address, instruction
    bytes := Bus.peekMany bus address instruction.mode.size
    operand := .ofInstruction bus r address instruction }

namespace Disassembly

/-- The address of the instruction that follows in memory. -/
def nextAddress (d : Disassembly) : UInt16 := d.address + UInt16.ofNat d.bytes.length

def hexBytes (d : Disassembly) : String := " ".intercalate (d.bytes.map Text.hexByte)

/-- The name of the operation, and its operand if there is one. -/
def body (d : Disassembly) : String :=
  match d.operand with
  | .none => d.instruction.mnemonic.name
  | operand => d.instruction.mnemonic.name ++ " " ++ operand.render

/-- The text of the instruction, with a star before an undocumented one. -/
def text (d : Disassembly) : String :=
  if d.instruction.official then d.body else "*" ++ d.body

end Disassembly
end NesMachine
