import NesMachine.Processor.Disassembly

/-!
# Trace lines

The state of the processor at the start of an instruction, written in fixed columns: the
address, the bytes, the instruction with a star if it is undocumented, the registers and
the cycle count.
-/
namespace NesMachine

namespace Text

/-- A text filled up with blanks on the right to at least a width. -/
def padRight (width : Nat) (s : String) : String :=
  s ++ String.ofList (List.replicate (width - s.length) ' ')

end Text

structure TraceLine where
  disassembly : Disassembly
  registers : Registers
  /-- The cycles elapsed before the opcode is fetched. -/
  cycles : Nat
  deriving DecidableEq, Repr

namespace TraceLine

def capture {β : Type} [Bus β] (bus : β) (r : Registers) (cycles : Nat) : TraceLine where
  disassembly := disassemble bus r r.pc
  registers := r
  cycles := cycles

def marker (line : TraceLine) : String :=
  if line.disassembly.instruction.official then " " else "*"

def render (line : TraceLine) : String :=
  Text.hexWord line.disassembly.address ++ "  "
    ++ Text.padRight 8 line.disassembly.hexBytes ++ " "
    ++ line.marker ++ Text.padRight 31 line.disassembly.body
    ++ " A:" ++ Text.hexByte line.registers.a
    ++ " X:" ++ Text.hexByte line.registers.x
    ++ " Y:" ++ Text.hexByte line.registers.y
    ++ " P:" ++ Text.hexByte line.registers.p.toByte
    ++ " SP:" ++ Text.hexByte line.registers.s
    ++ " CYC:" ++ line.cycles.repr

end TraceLine
end NesMachine
