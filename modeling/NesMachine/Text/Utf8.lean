/-!
# Reading UTF-8

Bytes are read as characters one sequence at a time. A byte that cannot go on with the
sequence before it breaks that sequence off and starts anew; each broken sequence, and each
byte that can start none, shows as one replacement character.
-/
namespace NesMachine.Text

def replacement : Char := '\uFFFD'

structure Sequence where
  /-- The bytes still missing after the next one. -/
  further : Nat
  /-- The least byte that can come next. -/
  low : UInt8
  /-- The greatest byte that can come next. -/
  high : UInt8
  /-- The value of the bits so far. -/
  bits : Nat
  deriving DecidableEq, Repr

/-- What a byte does at the start of a sequence: it is a character, or begins a longer
sequence, or neither. Sequences that would spell a value in more bytes than it needs, a
surrogate, or a value beyond the last character end at their second byte. -/
def beginSequence (b : UInt8) : List Char × Option Sequence :=
  if b < 0x80 then ([Char.ofNat b.toNat], none)
  else if b < 0xC2 then ([replacement], none)
  else if b < 0xE0 then ([], some ⟨0, 0x80, 0xBF, b.toNat - 0xC0⟩)
  else if b < 0xF0 then
    ([], some ⟨1, if b = 0xE0 then 0xA0 else 0x80, if b = 0xED then 0x9F else 0xBF,
      b.toNat - 0xE0⟩)
  else if b < 0xF5 then
    ([], some ⟨2, if b = 0xF0 then 0x90 else 0x80, if b = 0xF4 then 0x8F else 0xBF,
      b.toNat - 0xF0⟩)
  else ([replacement], none)

/-- What a byte does after a sequence that has begun. -/
def continueSequence (s : Sequence) (b : UInt8) : List Char × Option Sequence :=
  if s.low ≤ b ∧ b ≤ s.high then
    let bits := s.bits * 64 + (b.toNat - 0x80)
    match s.further with
    | 0 => ([Char.ofNat bits], none)
    | further + 1 => ([], some ⟨further, 0x80, 0xBF, bits⟩)
  else
    let (characters, sequence) := beginSequence b
    (replacement :: characters, sequence)

/-- The characters that bytes spell after a sequence that may have begun. -/
def decodeFrom : Option Sequence → List UInt8 → List Char
  | none, [] => []
  | some _, [] => [replacement]
  | sequence, b :: rest =>
    let (characters, sequence) :=
      match sequence with
      | none => beginSequence b
      | some s => continueSequence s b
    characters ++ decodeFrom sequence rest

def decodeUtf8 (bytes : List UInt8) : String := String.ofList (decodeFrom none bytes)

end NesMachine.Text
