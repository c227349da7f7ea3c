import Mathlib.Data.Nat.Digits.Defs
import NesMachine.Proofs.Processor.EffectiveAddress

/-!
# Numbers of several bytes

A list of bytes, the lowest one first, stands for a number, and for a signed one if the highest
bit of the last byte is a sign. Both can be told from the lowest byte and the number that the
others stand for.
-/
namespace NesMachine

/-- The number whose bytes are listed from the lowest to the highest. -/
def numberOf (bytes : List UInt8) : Nat := Nat.ofDigits 256 (bytes.map UInt8.toNat)

/-- The highest bit of a number of several bytes. -/
def topBit (bytes : List UInt8) : Bool := (numberOf bytes).testBit (8 * bytes.length - 1)

/-- The number in two's complement: the highest bit counts with a sign. -/
def signedNumber (bytes : List UInt8) : Int :=
  if topBit bytes then numberOf bytes - 256 ^ bytes.length else numberOf bytes

/-- Whether an integer can be written in two's complement with some bytes. -/
def FitsIn (width : Nat) (z : Int) : Prop := -256 ^ width ≤ 2 * z ∧ 2 * z < 256 ^ width

instance (width : Nat) (z : Int) : Decidable (FitsIn width z) :=
  inferInstanceAs (Decidable (_ ∧ _))

@[simp] theorem numberOf_nil : numberOf [] = 0 := rfl

@[simp] theorem numberOf_cons (byte : UInt8) (rest : List UInt8) :
    numberOf (byte :: rest) = byte.toNat + 256 * numberOf rest := Nat.ofDigits_cons

theorem numberOf_append (low high : List UInt8) :
    numberOf (low ++ high) = numberOf low + 256 ^ low.length * numberOf high := by
  rw [numberOf, List.map_append, Nat.ofDigits_append, List.length_map]
  rfl

private theorem toNat_lt_of_mem {bytes : List UInt8} {digit : Nat}
    (h : digit ∈ bytes.map UInt8.toNat) : digit < 256 := by
  obtain ⟨byte, -, rfl⟩ := List.mem_map.mp h
  exact byte.toNat_lt

theorem numberOf_lt (bytes : List UInt8) : numberOf bytes < 256 ^ bytes.length := by
  have digits : ∀ digit ∈ bytes.map UInt8.toNat, digit < 256 := fun _ h => toNat_lt_of_mem h
  have small := Nat.ofDigits_lt_base_pow_length (by decide) digits
  rwa [List.length_map] at small

/-- What a number has no room for is told by the carry. -/
theorem carry_iff {bytes : List UInt8} {carry : Bool} {total : Int}
    (whole : numberOf bytes + 256 ^ bytes.length * (carry.toNat : Int) = total) :
    carry = true ↔ 256 ^ bytes.length ≤ total := by
  have small : (numberOf bytes : Int) < 256 ^ bytes.length := by exact_mod_cast numberOf_lt bytes
  cases carry with
  | false =>
    simp only [Bool.toNat_false, Nat.cast_zero, mul_zero] at whole
    simp only [Bool.false_eq_true, false_iff]
    omega
  | true =>
    simp only [Bool.toNat_true, Nat.cast_one, mul_one] at whole
    simp only [true_iff]
    omega

/-- Bytes can be told from their number if it is known how many there are. -/
theorem eq_of_numberOf_eq {bytes bytes' : List UInt8} (length : bytes.length = bytes'.length)
    (same : numberOf bytes = numberOf bytes') : bytes = bytes' := by
  have digits : bytes.map UInt8.toNat = bytes'.map UInt8.toNat :=
    Nat.ofDigits_inj_of_len_eq (by decide) (by simpa using length) (fun _ h => toNat_lt_of_mem h)
      (fun _ h => toNat_lt_of_mem h) same
  exact List.map_inj_right (fun _ _ h => UInt8.toNat_inj.mp h) |>.mp digits

theorem topBit_iff (bytes : List UInt8) :
    topBit bytes = true ↔ 256 ^ bytes.length ≤ 2 * numberOf bytes := by
  have small := numberOf_lt bytes
  cases bytes with
  | nil => decide
  | cons byte rest =>
    have exponent : 8 * (byte :: rest).length - 1 = 8 * rest.length + 7 := by
      rw [List.length_cons]
      omega
    have power : 256 ^ (byte :: rest).length = 2 * 2 ^ (8 * rest.length + 7) := by
      rw [← Nat.pow_succ', List.length_cons]
      exact (Nat.pow_mul 2 8 (rest.length + 1)).symm
    rw [power] at small ⊢
    rw [topBit, exponent, Nat.testBit_eq_decide_div_mod_eq, decide_eq_true_eq]
    generalize 2 ^ (8 * rest.length + 7) = half at small ⊢
    have digit : numberOf (byte :: rest) / half < 2 :=
      Nat.div_lt_of_lt_mul (by rwa [Nat.mul_comm])
    have reached : 0 < numberOf (byte :: rest) / half ↔ half ≤ numberOf (byte :: rest) :=
      Nat.div_pos_iff.trans ⟨fun h => h.2, fun h => ⟨by omega, h⟩⟩
    generalize numberOf (byte :: rest) / half = quotient at digit reached ⊢
    omega

/-- The powers of 256 are even, but for the first. -/
private theorem pow_length_of_ne_nil {bytes : List UInt8} (h : bytes ≠ []) :
    ∃ half, 256 ^ bytes.length = 2 * half := by
  obtain ⟨byte, rest, rfl⟩ := List.exists_cons_of_ne_nil h
  exact ⟨128 * 256 ^ rest.length, by rw [List.length_cons, Nat.pow_succ']; omega⟩

theorem topBit_singleton (byte : UInt8) : topBit [byte] = true ↔ 128 ≤ byte.toNat := by
  rw [topBit_iff]
  simp only [List.length_cons, List.length_nil, numberOf_cons, numberOf_nil]
  omega

theorem topBit_cons (byte : UInt8) {rest : List UInt8} (h : rest ≠ []) :
    topBit (byte :: rest) = topBit rest := by
  obtain ⟨half, power⟩ := pow_length_of_ne_nil h
  have := byte.toNat_lt
  rw [Bool.eq_iff_iff, topBit_iff, topBit_iff, List.length_cons, Nat.pow_succ', power,
    numberOf_cons]
  omega

theorem signedNumber_singleton (byte : UInt8) : signedNumber [byte] = signed byte.toNat := by
  have top := topBit_singleton byte
  unfold signedNumber signed
  by_cases negative : 128 ≤ byte.toNat
  · rw [if_pos (top.mpr negative), if_neg (by omega)]
    simp
  · rw [if_neg (mt top.mp negative), if_pos (by omega)]
    simp

theorem signedNumber_cons (byte : UInt8) {rest : List UInt8} (h : rest ≠ []) :
    signedNumber (byte :: rest) = byte.toNat + 256 * signedNumber rest := by
  unfold signedNumber
  rw [topBit_cons byte h, List.length_cons, Int.pow_succ', numberOf_cons]
  push_cast
  split <;> omega

/-- A byte more below a number makes room for just the numbers with a byte more. -/
theorem fitsIn_succ {width : Nat} (some : width ≠ 0) (byte : UInt8) (z : Int) :
    FitsIn (width + 1) (byte.toNat + 256 * z) ↔ FitsIn width z := by
  obtain ⟨below, rfl⟩ := Nat.exists_eq_succ_of_ne_zero some
  have := byte.toNat_lt
  unfold FitsIn
  rw [Int.pow_succ', Int.pow_succ']
  omega

theorem fitsIn_one (z : Int) : FitsIn 1 z ↔ -128 ≤ z ∧ z ≤ 127 := by
  unfold FitsIn
  omega

end NesMachine
