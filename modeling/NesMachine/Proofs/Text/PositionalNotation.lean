import Mathlib.Data.List.Forall2
import Mathlib.Data.Nat.Digits.Defs
import Mathlib.Tactic.Ring
import NesMachine.Proofs.Text.Hexadecimal
import NesMachine.Proofs.Text.Numerals

/-!
# Positional notation

Each digit of a numeral counts with a power of the base, whatever its case and however many
zeros stand before it. A numeral is read if and only if its value in this sense is within the
limit, and what writes a number in decimal or a word in hexadecimal writes such a numeral.
-/
namespace NesMachine.Text

def lowerDigits : List Char := "0123456789abcdef".toList

def upperDigits : List Char := "0123456789ABCDEF".toList

/-- A character is the digit of a base for a number; letters may be of either case. -/
def IsDigit (base : Nat) (c : Char) (d : Nat) : Prop :=
  d < base ∧ (lowerDigits[d]? = some c ∨ upperDigits[d]? = some c)

/-- Digits, the highest one first, stand for a number. -/
def Denotes (base : Nat) (digits : List Char) (n : Nat) : Prop :=
  ∃ values, List.Forall₂ (IsDigit base) digits values ∧ Nat.ofDigits base values.reverse = n

/-- A text is a numeral of a base for a number. -/
def IsNumeralFor (base : Nat) (s : String) (n : Nat) : Prop :=
  ∃ sign digits, IsNumeral sign digits s.toList ∧ Denotes base digits n

/-! Digits. -/

theorem hexDigit?_eq_some_iff {c : Char} {d : Nat} :
    hexDigit? c = some d ↔ lowerDigits[d]? = some c ∨ upperDigits[d]? = some c := by
  constructor
  · intro read
    have back {first : Nat} (above : first ≤ c.toNat) :
        Char.ofNat (c.toNat - first + first) = c := by
      rw [Nat.sub_add_cancel above, c.ofNat_toNat]
    have decimal : ∀ d < 10, lowerDigits[d]? = some (Char.ofNat (d + 48)) := by decide
    have upper : ∀ d < 16, 10 ≤ d → upperDigits[d]? = some (Char.ofNat (d + 55)) := by decide
    have lower : ∀ d < 16, 10 ≤ d → lowerDigits[d]? = some (Char.ofNat (d + 87)) := by decide
    unfold hexDigit? at read
    simp only [between_iff, Char.reduceToNat] at read
    split at read
    · obtain rfl := Option.some.inj read
      rw [decimal _ (by omega), back (by omega)]
      exact .inl rfl
    split at read
    · obtain rfl := Option.some.inj read
      rw [upper _ (by omega) (by omega), back (by omega)]
      exact .inr rfl
    split at read
    · obtain rfl := Option.some.inj read
      rw [lower _ (by omega) (by omega), back (by omega)]
      exact .inl rfl
    · cases read
  · have lower : ∀ d : Fin 16, hexDigit? lowerDigits[d] = some d.val := by decide
    have upper : ∀ d : Fin 16, hexDigit? upperDigits[d] = some d.val := by decide
    rintro (shown | shown)
    · obtain ⟨small, rfl⟩ := List.getElem?_eq_some_iff.mp shown
      exact lower ⟨d, small⟩
    · obtain ⟨small, rfl⟩ := List.getElem?_eq_some_iff.mp shown
      exact upper ⟨d, small⟩

theorem digit?_eq_some_iff {base : Nat} {c : Char} {d : Nat} :
    digit? base c = some d ↔ IsDigit base c d := by
  rw [digit?, Option.filter_eq_some_iff, decide_eq_true_iff, hexDigit?_eq_some_iff, IsDigit,
    and_comm]

theorem isDigit_hexDigit {d : Nat} (small : d < 16) : IsDigit 16 (hexDigit d) d := by
  rw [← digit?_eq_some_iff, digit?, hexDigit?_hexDigit small]
  exact Option.filter_some_pos (decide_eq_true small)

/-! Lists of digits. -/

theorem Denotes.concat {base n d : Nat} {digits : List Char} {c : Char}
    (denotes : Denotes base digits n) (digit : IsDigit base c d) :
    Denotes base (digits ++ [c]) (n * base + d) := by
  obtain ⟨values, each, rfl⟩ := denotes
  refine ⟨values ++ [d], List.rel_append each (.cons digit .nil), ?_⟩
  rw [List.reverse_concat, Nat.ofDigits_cons, Nat.add_comm, Nat.mul_comm]

theorem denotes_hexDigits {width n : Nat} (small : n < 16 ^ width) :
    Denotes 16 (hexDigits width n) n := by
  induction width generalizing n with
  | zero =>
    obtain rfl : n = 0 := by omega
    exact ⟨[], .nil, rfl⟩
  | succ width ih =>
    have last := isDigit_hexDigit (Nat.mod_lt n (by decide))
    have whole := (ih (n := n / 16) (by omega)).concat last
    rwa [Nat.div_add_mod'] at whole

/-- Digits that follow others take their value to a higher place. -/
theorem digitsFrom?_eq_some_iff {base n m : Nat} {digits : List Char} :
    digitsFrom? base n digits = some m ↔ ∃ values, List.Forall₂ (IsDigit base) digits values ∧
      n * base ^ digits.length + Nat.ofDigits base values.reverse = m := by
  induction digits generalizing n with
  | nil => simp [digitsFrom?]
  | cons c rest ih =>
    have place (d : Nat) {values : List Nat} (each : List.Forall₂ (IsDigit base) rest values) :
        (n * base + d) * base ^ rest.length + Nat.ofDigits base values.reverse =
          n * base ^ (rest.length + 1) + Nat.ofDigits base (d :: values).reverse := by
      rw [List.reverse_cons, Nat.ofDigits_append, List.length_reverse, ← each.length_eq,
        Nat.ofDigits_singleton]
      ring
    simp only [digitsFrom?, Option.bind_eq_some_iff, digit?_eq_some_iff, ih, List.length_cons]
    constructor
    · rintro ⟨d, digit, values, each, rfl⟩
      exact ⟨d :: values, .cons digit each, (place d each).symm⟩
    · rintro ⟨_, _ | ⟨digit, each⟩, rfl⟩
      exact ⟨_, digit, _, each, place _ each⟩

theorem digitsFrom?_zero_eq_some_iff {base n : Nat} {digits : List Char} :
    digitsFrom? base 0 digits = some n ↔ Denotes base digits n := by
  rw [digitsFrom?_eq_some_iff]
  simp only [Nat.zero_mul, Nat.zero_add]
  rfl

/-! Numerals. -/

theorem readNumeral_eq_ok_iff_isNumeralFor {base limit n : Nat} (positive : 0 < base) {s : String} :
    readNumeral base limit s = .ok n ↔ IsNumeralFor base s n ∧ n ≤ limit := by
  rw [readNumeral_eq_ok_iff positive]
  simp only [digitsFrom?_zero_eq_some_iff, IsNumeralFor, exists_and_right, ← and_assoc]

theorem isNumeralFor_repr (n : Nat) : IsNumeralFor 10 n.repr n := by
  refine ⟨[], Nat.toDigits 10 n, ⟨Nat.toList_repr, .inl rfl, Nat.toDigits_ne_nil⟩, ?_⟩
  rw [← digitsFrom?_zero_eq_some_iff, digitsFrom?_ten]
  exact ⟨fun c listed => Nat.isDigit_of_mem_toDigits (by decide) (by decide) listed,
    Nat.ofDigitChars_ten_toDigits⟩

theorem isNumeralFor_hexWord (w : UInt16) : IsNumeralFor 16 (hexWord w) w.toNat := by
  refine ⟨[], hexDigits 4 w.toNat, ⟨String.toList_ofList, .inl rfl, ?_⟩,
    denotes_hexDigits w.toNat_lt⟩
  exact List.ne_nil_of_length_pos (by rw [length_hexDigits]; decide)

end NesMachine.Text
