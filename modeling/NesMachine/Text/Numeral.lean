import NesMachine.Text.Hex

/-!
# Unsigned numerals

A numeral is an optional plus sign and one or more digits of a base, and stands for a
number up to a limit. Reading goes from left to right and stops at the first digit that is
none or that takes the number over the limit.
-/
namespace NesMachine.Text

inductive NumeralError where
  | empty | invalidDigit | tooLarge
  deriving DecidableEq, Repr

def NumeralError.message : NumeralError → String
  | .empty => "cannot parse integer from empty string"
  | .invalidDigit => "invalid digit found in string"
  | .tooLarge => "number too large to fit in target type"

/-- The value of a digit in a base of at most sixteen. -/
def digit? (base : Nat) (c : Char) : Option Nat := (hexDigit? c).filter (· < base)

/-- Reads digits that follow those with the value `n`. -/
def readDigits (base limit : Nat) (n : Nat) : List Char → Except NumeralError Nat
  | [] => .ok n
  | c :: rest =>
    match digit? base c with
    | none => .error .invalidDigit
    | some d =>
      if limit < n * base + d then .error .tooLarge
      else readDigits base limit (n * base + d) rest

/-- Reads a numeral in a base, up to a limit. -/
def readNumeral (base limit : Nat) (s : String) : Except NumeralError Nat :=
  match s.toList with
  | [] => .error .empty
  | ['+'] => .error .invalidDigit
  | '+' :: digits => readDigits base limit 0 digits
  | digits => readDigits base limit 0 digits

end NesMachine.Text
