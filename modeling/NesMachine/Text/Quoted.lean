import NesMachine.Text.Visible

/-!
# Quoted text

A text between quotes, so that a reader can tell every character of it: the quote and the
backslash have a backslash before them, four control characters have a letter, and every
other character that is not visible is written as its code point.
-/
namespace NesMachine.Text

/-- The lower-case hexadecimal digits of a number, without leading zeros. -/
def codePoint (c : Char) : String := String.ofList (Nat.toDigits 16 c.toNat)

def quoteChar (c : Char) : String :=
  if c = '\x00' then "\\0"
  else if c = '\t' then "\\t"
  else if c = '\n' then "\\n"
  else if c = '\r' then "\\r"
  else if c = '"' then "\\\""
  else if c = '\\' then "\\\\"
  else if isVisible c then c.toString
  else "\\u\x7b" ++ codePoint c ++ "\x7d"

def quote (s : String) : String := "\"" ++ String.join (s.toList.map quoteChar) ++ "\""

end NesMachine.Text
