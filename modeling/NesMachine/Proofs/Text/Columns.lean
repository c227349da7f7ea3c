import Mathlib.Data.List.DropRight
import NesMachine.Processor.Trace
import NesMachine.Proofs.Text.Hexadecimal

/-!
# Texts in columns

A text put together from cells of known widths has each cell in columns of its own, and two
such texts are equal when all their cells are. A cell that is filled up with blanks gives back
what stands in it, provided that this does not end in a blank itself.
-/
namespace NesMachine.Text

/-- The characters of a text in some columns, counted from zero. -/
def columns (s : String) (first count : Nat) : String :=
  String.ofList ((s.toList.drop first).take count)

theorem columns_append (before cell after : String) :
    columns (before ++ cell ++ after) before.length cell.length = cell := by
  have lists : (before ++ cell ++ after).toList =
      before.toList ++ (cell.toList ++ after.toList) := by simp
  rw [columns, lists, ← String.length_toList (s := before), List.drop_left, List.take_left',
    String.ofList_toList]
  exact String.length_toList

/-- Each cell stands behind the widths of those before it. -/
theorem columns_join {cells : List String} {k : Nat} {cell : String}
    (here : cells[k]? = some cell) :
    columns (String.join cells) ((cells.map String.length).take k).sum cell.length = cell := by
  obtain ⟨inside, rfl⟩ := List.getElem?_eq_some_iff.mp here
  have parts : String.join cells =
      String.join (cells.take k) ++ cells[k] ++ String.join (cells.drop (k + 1)) := by
    rw [String.append_assoc, ← String.join_cons, ← List.drop_eq_getElem_cons,
      ← String.join_append, List.take_append_drop]
  rw [← List.map_take, ← String.length_join, parts]
  exact columns_append _ _ _

/-- Cells of the same widths, and a last one of any width, can be told from the text. -/
theorem join_concat_inj {cells others : List String} {last other : String}
    (widths : cells.map String.length = others.map String.length) :
    String.join (cells ++ [last]) = String.join (others ++ [other]) ↔
      cells = others ∧ last = other := by
  induction cells generalizing others with
  | nil =>
    obtain rfl : others = [] := List.map_eq_nil_iff.mp widths.symm
    simp
  | cons cell cells ih =>
    cases others with
    | nil => cases widths
    | cons cell' others =>
      obtain ⟨width, rest⟩ := List.cons.inj widths
      rw [List.cons_append, List.cons_append, String.join_cons, String.join_cons,
        append_inj_of_length_left width, ih rest, List.cons.injEq, and_assoc]

theorem repr_inj {m n : Nat} : m.repr = n.repr ↔ m = n := by
  refine ⟨fun same => ?_, congrArg _⟩
  rw [Nat.repr_eq_ofList_toDigits, Nat.repr_eq_ofList_toDigits, String.ofList_inj] at same
  rw [← Nat.ofDigitChars_ten_toDigits (n := m), same, Nat.ofDigitChars_ten_toDigits]

/-! Filled cells. -/

/-- A text with a last character that is no blank. -/
def EndsVisibly (s : String) : Prop := ∃ c, s.toList.getLast? = some c ∧ c ≠ ' '

theorem EndsVisibly.append {t : String} (visible : EndsVisibly t) (s : String) :
    EndsVisibly (s ++ t) := by
  obtain ⟨c, last, other⟩ := visible
  refine ⟨c, ?_, other⟩
  rw [String.toList_append, List.getLast?_append, last, Option.some_or]

theorem length_padRight {width : Nat} {s : String} (fits : s.length ≤ width) :
    (padRight width s).length = width := by
  rw [padRight, String.length_append, String.length_ofList, List.length_replicate]
  omega

theorem rdropWhile_append_replicate (l : List Char) (count : Nat) :
    (l ++ List.replicate count ' ').rdropWhile (· == ' ') = l.rdropWhile (· == ' ') := by
  induction count with
  | zero => simp
  | succ count ih =>
    rw [List.replicate_succ', ← List.append_assoc, List.rdropWhile_concat_pos _ _ _ rfl, ih]

theorem EndsVisibly.rdropWhile_padRight {s : String} (visible : EndsVisibly s) (width : Nat) :
    (padRight width s).toList.rdropWhile (· == ' ') = s.toList := by
  obtain ⟨c, last, other⟩ := visible
  obtain ⟨before, characters⟩ := List.getLast?_eq_some_iff.mp last
  rw [padRight, String.toList_append, String.toList_ofList, rdropWhile_append_replicate, characters,
    List.rdropWhile_concat_neg _ _ _ (by simpa using other)]

/-- What stands in a cell is known, if it does not end in a blank. -/
theorem EndsVisibly.padRight_inj {s t : String} (hs : EndsVisibly s) (ht : EndsVisibly t)
    {width : Nat} : padRight width s = padRight width t ↔ s = t := by
  refine ⟨fun same => ?_, congrArg _⟩
  rw [← String.toList_inj, ← hs.rdropWhile_padRight width, same, ht.rdropWhile_padRight]

theorem endsVisibly_hexDigits (width n : Nat) :
    EndsVisibly (String.ofList (hexDigits (width + 1) n)) := by
  have visible : ∀ digit : Fin 16, hexDigit digit ≠ ' ' := by decide
  refine ⟨hexDigit (n % 16), ?_, visible ⟨n % 16, Nat.mod_lt n (by decide)⟩⟩
  rw [String.toList_ofList, hexDigits, List.getLast?_concat]

theorem endsVisibly_hexByte (b : UInt8) : EndsVisibly (hexByte b) :=
  endsVisibly_hexDigits 1 b.toNat

theorem endsVisibly_hexWord (w : UInt16) : EndsVisibly (hexWord w) :=
  endsVisibly_hexDigits 3 w.toNat

/-! Bytes in a row. -/

/-- Bytes in a row, with a blank between any two of them. -/
def hexRow (bytes : List UInt8) : String := " ".intercalate (bytes.map hexByte)

theorem hexRow_cons_cons (b c : UInt8) (rest : List UInt8) :
    hexRow (b :: c :: rest) = hexByte b ++ " " ++ hexRow (c :: rest) :=
  String.intercalate_cons_cons

theorem length_hexRow (b : UInt8) (rest : List UInt8) :
    (hexRow (b :: rest)).length = 3 * rest.length + 2 := by
  induction rest generalizing b with
  | nil => simp [hexRow]
  | cons c rest ih =>
    rw [hexRow_cons_cons, String.length_append, String.length_append, ih, length_hexByte,
      List.length_cons]
    have blank : " ".length = 1 := rfl
    omega

theorem hexRow_inj {b c : UInt8} {bytes others : List UInt8} :
    hexRow (b :: bytes) = hexRow (c :: others) ↔ b :: bytes = c :: others := by
  refine ⟨fun same => ?_, congrArg _⟩
  have lengths := congrArg String.length same
  rw [length_hexRow, length_hexRow] at lengths
  induction bytes generalizing b c others with
  | nil =>
    rw [List.length_nil] at lengths
    obtain rfl : others = [] := List.length_eq_zero_iff.mp (by omega)
    exact congrArg (· :: []) (hexByte_inj.mp same)
  | cons b' bytes ih =>
    cases others with
    | nil =>
      rw [List.length_nil, List.length_cons] at lengths
      omega
    | cons c' others =>
      rw [hexRow_cons_cons, hexRow_cons_cons, append_inj_of_length_left (by simp),
        append_inj_of_length rfl, hexByte_inj] at same
      rw [same.1.1, ih same.2 (by simp only [List.length_cons] at lengths; omega)]

theorem endsVisibly_hexRow (b : UInt8) (rest : List UInt8) : EndsVisibly (hexRow (b :: rest)) := by
  induction rest generalizing b with
  | nil => exact endsVisibly_hexByte b
  | cons c rest ih =>
    rw [hexRow_cons_cons]
    exact (ih c).append _

end NesMachine.Text
