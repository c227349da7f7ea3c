/-!
# Words made of two bytes

Addresses are sixteen bits wide and travel as two bytes, the low one first. Memory is
also seen as 256 pages of 256 bytes; the page of an address is its high byte.
-/
namespace NesMachine

/-- The word whose little-endian bytes are `low` and `high`. -/
def wordOf (low high : UInt8) : UInt16 :=
  high.toUInt16 * 256 + low.toUInt16

def lowByte (w : UInt16) : UInt8 := w.toUInt8

/-- The high byte of a word, which is also its page. -/
def highByte (w : UInt16) : UInt8 := (w / 256).toUInt8

@[simp] theorem toNat_lowByte (w : UInt16) : (lowByte w).toNat = w.toNat % 256 := by
  simp [lowByte]

@[simp] theorem toNat_highByte (w : UInt16) : (highByte w).toNat = w.toNat / 256 := by
  have := w.toNat_lt
  simp only [highByte, UInt16.toNat_toUInt8, UInt16.toNat_div, UInt16.reduceToNat]
  omega

@[simp] theorem toNat_wordOf (low high : UInt8) :
    (wordOf low high).toNat = high.toNat * 256 + low.toNat := by
  have := low.toNat_lt
  have := high.toNat_lt
  simp only [wordOf, UInt16.toNat_add, UInt16.toNat_mul, UInt8.toNat_toUInt16,
    UInt16.reduceToNat]
  omega

/-- A word is put together again from its two bytes. -/
@[simp] theorem wordOf_lowByte_highByte (w : UInt16) :
    wordOf (lowByte w) (highByte w) = w := by
  apply UInt16.toNat_inj.mp
  simp only [toNat_wordOf, toNat_highByte, toNat_lowByte]
  omega

@[simp] theorem lowByte_wordOf (low high : UInt8) : lowByte (wordOf low high) = low := by
  apply UInt8.toNat_inj.mp
  have := low.toNat_lt
  simp only [toNat_lowByte, toNat_wordOf]
  omega

@[simp] theorem highByte_wordOf (low high : UInt8) : highByte (wordOf low high) = high := by
  apply UInt8.toNat_inj.mp
  have := low.toNat_lt
  simp only [toNat_highByte, toNat_wordOf]
  omega

def pageCrossed (a b : UInt16) : Bool := highByte a != highByte b

/-- The address after `a` within its page: the last byte is followed by the first one. -/
def nextInPage (a : UInt16) : UInt16 := wordOf (lowByte a + 1) (highByte a)

/-- The address in page zero that a byte names. -/
def zeroPageAddress (b : UInt8) : UInt16 := b.toUInt16

/-- An address moved by a signed byte, wrapping around the address space. -/
def displaced (a : UInt16) (offset : UInt8) : UInt16 :=
  if offset < 0x80 then a + offset.toUInt16 else a + offset.toUInt16 - 256

end NesMachine
