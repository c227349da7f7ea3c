import Mathlib.Algebra.GroupWithZero.Nat
import NesMachine.Text.Hex

/-!
# Hexadecimal numbers are told from their text

Each digit stands for one number, and bytes and words are as wide as their digits; so a text
that ends in a byte or in a word shows which one it is, and what stands before it.
-/
namespace NesMachine.Text

theorem hexDigit?_hexDigit {n : Nat} (h : n < 16) : hexDigit? (hexDigit n) = some n := by
  have digits : ∀ n : Fin 16, hexDigit? (hexDigit n) = some n.val := by decide
  exact digits ⟨n, h⟩

theorem hexDigits_inj {width m n : Nat} (hm : m < 16 ^ width) (hn : n < 16 ^ width) :
    hexDigits width m = hexDigits width n ↔ m = n := by
  refine ⟨fun same => ?_, congrArg _⟩
  induction width generalizing m n with
  | zero => omega
  | succ width ih =>
    obtain ⟨high, low⟩ := List.append_inj same (by simp)
    have rest : m / 16 = n / 16 := ih (by omega) (by omega) high
    have last : some (m % 16) = some (n % 16) := by
      rw [← hexDigit?_hexDigit (Nat.mod_lt m (by decide)),
        ← hexDigit?_hexDigit (Nat.mod_lt n (by decide)), List.singleton_inj.mp low]
    have same := Option.some.inj last
    omega

@[simp] theorem length_hexByte (b : UInt8) : (hexByte b).length = 2 := by simp [hexByte]

@[simp] theorem length_hexWord (w : UInt16) : (hexWord w).length = 4 := by simp [hexWord]

@[simp] theorem hexByte_inj {a b : UInt8} : hexByte a = hexByte b ↔ a = b := by
  rw [hexByte, hexByte, String.ofList_inj, hexDigits_inj a.toNat_lt b.toNat_lt, UInt8.toNat_inj]

@[simp] theorem hexWord_inj {a b : UInt16} : hexWord a = hexWord b ↔ a = b := by
  rw [hexWord, hexWord, String.ofList_inj, hexDigits_inj a.toNat_lt b.toNat_lt, UInt16.toNat_inj]

/-! Two texts that are cut at the same place are equal when both of their parts are. -/

theorem append_inj_of_length_left {s t u v : String} (width : s.length = u.length) :
    s ++ t = u ++ v ↔ s = u ∧ t = v := by
  constructor
  · intro same
    have lists : s.toList ++ t.toList = u.toList ++ v.toList := by
      rw [← String.toList_append, same, String.toList_append]
    obtain ⟨first, second⟩ := List.append_inj lists
      (by simpa only [String.length_toList] using width)
    exact ⟨String.toList_inj.mp first, String.toList_inj.mp second⟩
  · rintro ⟨rfl, rfl⟩
    rfl

theorem append_inj_of_length {s t u v : String} (width : t.length = v.length) :
    s ++ t = u ++ v ↔ s = u ∧ t = v := by
  by_cases same : s.length = u.length
  · exact append_inj_of_length_left same
  · refine iff_of_false (fun equal => same ?_) (fun equal => same (congrArg _ equal.1))
    have lengths := congrArg String.length equal
    simp only [String.length_append] at lengths
    omega

@[simp] theorem append_hexByte_inj {s t : String} {a b : UInt8} :
    s ++ hexByte a = t ++ hexByte b ↔ s = t ∧ a = b := by
  rw [append_inj_of_length (by simp), hexByte_inj]

@[simp] theorem append_hexWord_inj {s t : String} {a b : UInt16} :
    s ++ hexWord a = t ++ hexWord b ↔ s = t ∧ a = b := by
  rw [append_inj_of_length (by simp), hexWord_inj]

end NesMachine.Text
