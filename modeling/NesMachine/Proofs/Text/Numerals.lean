import NesMachine.Text.Numeral

/-!
# What numerals stand for

Reading stops at the first digit that goes beyond the limit. As digits only add to a value,
it gives the value of a numeral exactly if that is within the limit.
-/
namespace NesMachine.Text

/-- The value of digits that follow those with the value `n`. -/
def digitsFrom? (base n : Nat) : List Char → Option Nat
  | [] => some n
  | c :: rest => (digit? base c).bind fun d => digitsFrom? base (n * base + d) rest

/-- A numeral is an optional plus sign and one or more digits. -/
structure IsNumeral (sign digits text : List Char) : Prop where
  text : text = sign ++ digits
  sign : sign = [] ∨ sign = ['+']
  nonempty : digits ≠ []

section Base

variable {base limit n m : Nat}

theorem le_of_digitsFrom? (positive : 0 < base) {digits : List Char}
    (value : digitsFrom? base n digits = some m) : n ≤ m := by
  induction digits generalizing n with
  | nil => exact Nat.le_of_eq (Option.some.inj value)
  | cons c rest ih =>
    obtain ⟨d, -, value⟩ := Option.bind_eq_some_iff.mp value
    exact Nat.le_trans (Nat.le_add_right_of_le (Nat.le_mul_of_pos_right n positive)) (ih value)

theorem readDigits_eq_ok_iff (positive : 0 < base) {digits : List Char} (small : n ≤ limit) :
    readDigits base limit n digits = .ok m ↔ digitsFrom? base n digits = some m ∧ m ≤ limit := by
  induction digits generalizing n with
  | nil =>
    rw [readDigits, digitsFrom?, Except.ok.injEq, Option.some.injEq]
    exact ⟨fun same => ⟨same, same ▸ small⟩, And.left⟩
  | cons c rest ih =>
    rw [readDigits, digitsFrom?]
    cases digit? base c with
    | none => simp
    | some d =>
      rw [Option.bind_some]
      dsimp only
      split
      · rename_i large
        refine iff_of_false nofun fun ⟨value, within⟩ => ?_
        have := le_of_digitsFrom? positive value
        omega
      · exact ih (by omega)

theorem digit?_plus : digit? base '+' = none := rfl

theorem readNumeral_eq_ok_iff (positive : 0 < base) {s : String} :
    readNumeral base limit s = .ok n ↔ ∃ sign digits, IsNumeral sign digits s.toList ∧
      digitsFrom? base 0 digits = some n ∧ n ≤ limit := by
  have read (digits : List Char) : readDigits base limit 0 digits = .ok n ↔
      digitsFrom? base 0 digits = some n ∧ n ≤ limit :=
    readDigits_eq_ok_iff positive (Nat.zero_le limit)
  -- A plus sign is no digit, so it is a sign or the text is no numeral.
  have unsigned {sign digits rest : List Char} (numeral : IsNumeral sign digits ('+' :: rest))
      (value : digitsFrom? base 0 digits = some n) : digits = rest := by
    obtain ⟨text, rfl | rfl, nonempty⟩ := numeral
    · rw [List.nil_append] at text
      rw [← text, digitsFrom?, digit?_plus] at value
      cases value
    · exact (List.cons.inj text).2.symm
  unfold readNumeral
  split
  · rename_i empty
    refine iff_of_false nofun ?_
    rintro ⟨sign, digits, ⟨text, -, nonempty⟩, -⟩
    exact nonempty (List.append_eq_nil_iff.mp (text.symm.trans empty)).2
  · rename_i plus
    refine iff_of_false nofun ?_
    rintro ⟨sign, digits, numeral, value, -⟩
    rw [plus] at numeral
    exact numeral.nonempty (unsigned numeral value)
  · rename_i digits more signed
    rw [read]
    constructor
    · rintro ⟨value, within⟩
      exact ⟨['+'], digits, ⟨signed, .inr rfl, more⟩, value, within⟩
    · rintro ⟨sign, digits', numeral, value, within⟩
      rw [signed] at numeral
      exact ⟨unsigned numeral value ▸ value, within⟩
  · rename_i nonempty single other
    rw [read]
    constructor
    · rintro ⟨value, within⟩
      exact ⟨[], s.toList, ⟨rfl, .inl rfl, nonempty⟩, value, within⟩
    · rintro ⟨sign, digits, ⟨text, rfl | rfl, -⟩, value, within⟩
      · exact ⟨text ▸ value, within⟩
      · exact absurd text (other digits)

end Base

/-! Decimal numerals. -/

theorem between_iff {first c last : Char} :
    (first ≤ c ∧ c ≤ last) ↔ first.toNat ≤ c.toNat ∧ c.toNat ≤ last.toNat := by
  rw [Char.le_def, Char.le_def, UInt32.le_iff_toNat_le, UInt32.le_iff_toNat_le]
  rfl

theorem digit?_ten (c : Char) :
    digit? 10 c = if c.isDigit then some (c.toNat - 48) else none := by
  unfold digit? hexDigit?
  simp only [between_iff, Char.isDigit_iff_toNat, Char.reduceToNat]
  split
  · exact Option.filter_some_pos (decide_eq_true (by omega))
  split
  · exact Option.filter_some_neg (decide_eq_false (by omega))
  split
  · exact Option.filter_some_neg (decide_eq_false (by omega))
  · rfl

theorem digitsFrom?_ten {n m : Nat} {digits : List Char} : digitsFrom? 10 n digits = some m ↔
    (∀ c ∈ digits, c.isDigit = true) ∧ Nat.ofDigitChars 10 digits n = m := by
  induction digits generalizing n with
  | nil => simp [digitsFrom?]
  | cons c rest ih =>
    rw [digitsFrom?, digit?_ten, Nat.ofDigitChars_cons, List.forall_mem_cons]
    split
    · rename_i digit
      rw [Option.bind_some, ih, Nat.mul_comm]
      simp [digit]
    · rename_i other
      simp [other]

end NesMachine.Text
