import NesMachine.Text.Hex

/-!
# Observed values

A query on a machine answers with one of a few kinds of value. Each kind has one text:
bytes and words are hexadecimal with their full width, counts are decimal.
-/
namespace NesMachine

inductive Value where
  | bool (b : Bool)
  | byte (b : UInt8)
  | word (w : UInt16)
  | count (n : Nat)
  | text (s : String)
  deriving DecidableEq, Repr

/-- The text of a value: `0x0A` for a byte, `0xC000` for a word, decimal for a count. -/
def Value.render : Value → String
  | .bool true => "true"
  | .bool false => "false"
  | .byte b => "0x" ++ Text.hexByte b
  | .word w => "0x" ++ Text.hexWord w
  | .count n => n.repr
  | .text s => s

end NesMachine
