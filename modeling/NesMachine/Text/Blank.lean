/-!
# Blank characters

The characters with the white-space property, and texts without those at their ends.
-/
namespace NesMachine.Text

/-- The ranges of blank characters, first and last code point. -/
def blankRanges : List (Nat × Nat) :=
  [(0x09, 0x0D), (0x20, 0x20), (0x85, 0x85), (0xA0, 0xA0), (0x1680, 0x1680),
    (0x2000, 0x200A), (0x2028, 0x2029), (0x202F, 0x202F), (0x205F, 0x205F),
    (0x3000, 0x3000)]

def isBlank (c : Char) : Bool :=
  blankRanges.any fun (first, last) => first ≤ c.toNat && c.toNat ≤ last

def trimStart (s : List Char) : List Char := s.dropWhile isBlank

def trim (s : String) : String :=
  String.ofList (trimStart (trimStart s.toList).reverse).reverse

end NesMachine.Text
