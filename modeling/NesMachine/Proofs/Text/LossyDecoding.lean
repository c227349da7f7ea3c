import Mathlib.Algebra.GroupWithZero.Nat
import Mathlib.Tactic.SplitIfs
import NesMachine.Text.Utf8

/-!
# Lossy decoding

Bytes decode to the characters whose encodings they are. Where no encoding stands, the longest
beginning of one is taken for a single replacement character, or one byte if there is none; the
Unicode Standard calls this a maximal subpart of an ill-formed subsequence. That determines the
text of any bytes, and it is the text that reading them one by one gives.
-/
namespace NesMachine.Text

open String (utf8EncodeChar)

/-- Some encoding begins with these bytes. -/
def BeginsCharacter (bytes : List UInt8) : Prop := ∃ c, bytes <+: utf8EncodeChar c

/-- The maximal subpart of an ill-formed sequence that some bytes begin with. -/
structure IllFormedSubpart (part bytes : List UInt8) : Prop where
  here : part <+: bytes
  nonempty : part ≠ []
  illFormed : ∀ c, ¬ utf8EncodeChar c <+: bytes
  subpart : BeginsCharacter part ∨ part.length = 1
  longest : ∀ longer, longer <+: bytes → BeginsCharacter longer → longer.length ≤ part.length

/-- A text is the lossy decoding of bytes. -/
inductive Lossy : List UInt8 → List Char → Prop where
  | done : Lossy [] []
  | character (c : Char) {rest : List UInt8} {text : List Char} (decoded : Lossy rest text) :
    Lossy (utf8EncodeChar c ++ rest) (c :: text)
  | illFormed {part rest : List UInt8} {text : List Char}
    (broken : IllFormedSubpart part (part ++ rest)) (decoded : Lossy rest text) :
    Lossy (part ++ rest) (replacement :: text)

/-! No encoding begins another one, so the decoding is determined. -/

theorem utf8EncodeChar_append_inj {c c' : Char} {rest rest' : List UInt8}
    (same : utf8EncodeChar c ++ rest = utf8EncodeChar c' ++ rest') : c = c' ∧ rest = rest' := by
  have first (c : Char) (rest : List UInt8) :
      ByteArray.utf8DecodeChar? (utf8EncodeChar c ++ rest).toByteArray 0 = some c := by
    rw [List.toByteArray_append, ByteArray.utf8DecodeChar?_utf8EncodeChar_append]
  have decoded := first c rest
  rw [same, first] at decoded
  obtain rfl := Option.some.inj decoded
  exact ⟨rfl, List.append_cancel_left same⟩

theorem eq_of_utf8EncodeChar_prefix {c c' : Char}
    (begins : utf8EncodeChar c <+: utf8EncodeChar c') : c = c' := by
  obtain ⟨rest, same⟩ := begins
  rw [← List.append_nil (utf8EncodeChar c')] at same
  exact (utf8EncodeChar_append_inj same).1

theorem IllFormedSubpart.length_le {part part' bytes : List UInt8}
    (broken : IllFormedSubpart part bytes) (broken' : IllFormedSubpart part' bytes) :
    part.length ≤ part'.length := by
  rcases broken.subpart with begins | single
  · exact broken'.longest part broken.here begins
  · exact single ▸ List.length_pos_iff.mpr broken'.nonempty

theorem IllFormedSubpart.append_inj {part part' rest rest' : List UInt8}
    (broken : IllFormedSubpart part (part ++ rest))
    (broken' : IllFormedSubpart part' (part' ++ rest')) (same : part ++ rest = part' ++ rest') :
    rest = rest' := by
  rw [← same] at broken'
  have lengths := Nat.le_antisymm (broken.length_le broken') (broken'.length_le broken)
  exact (List.append_inj same lengths).2

theorem Lossy.unique {bytes : List UInt8} {text text' : List Char} (decoded : Lossy bytes text)
    (decoded' : Lossy bytes text') : text = text' := by
  induction decoded generalizing text' with
  | done =>
    generalize empty : [] = bytes at decoded'
    cases decoded' with
    | done => rfl
    | character c =>
      exact absurd (List.append_eq_nil_iff.mp empty.symm).1 String.utf8EncodeChar_ne_nil
    | illFormed broken => exact absurd (List.append_eq_nil_iff.mp empty.symm).1 broken.nonempty
  | character c decoded ih =>
    generalize same : utf8EncodeChar c ++ _ = bytes at decoded'
    cases decoded' with
    | done => exact absurd (List.append_eq_nil_iff.mp same).1 String.utf8EncodeChar_ne_nil
    | character c' decoded' =>
      obtain ⟨rfl, rfl⟩ := utf8EncodeChar_append_inj same
      exact congrArg _ (ih decoded')
    | illFormed broken =>
      rw [← same] at broken
      exact absurd (List.prefix_append _ _) (broken.illFormed c)
  | @illFormed part rest text broken decoded ih =>
    generalize same : part ++ rest = bytes at decoded'
    cases decoded' with
    | done => exact absurd (List.append_eq_nil_iff.mp same).1 broken.nonempty
    | character c' =>
      rw [same] at broken
      exact absurd (List.prefix_append _ _) (broken.illFormed c')
    | illFormed broken' decoded' =>
      obtain rfl := broken.append_inj broken' same
      exact congrArg _ (ih decoded')

/-! Where reading is within an encoding, it knows which characters can still come. -/

/-- The last `count` bytes of the encoding of a value. -/
def trailingBytes : (count : Nat) → (v : Nat) → List UInt8
  | 0, _ => []
  | count + 1, v => .ofNat (v / 64 ^ count % 64 + 0x80) :: trailingBytes count v

theorem length_trailingBytes (count v : Nat) : (trailingBytes count v).length = count := by
  induction count with
  | zero => rfl
  | succ count ih => rw [trailingBytes, List.length_cons, ih]

/-- The first byte of the encoding of a value. -/
def leadingByte (v : Nat) : Nat :=
  if v < 0x80 then v
  else if v < 0x800 then v / 64 + 0xC0
  else if v < 0x10000 then v / 64 ^ 2 + 0xE0
  else v / 64 ^ 3 + 0xF0

/-- The number of bytes after the first one. -/
def trailingCount (v : Nat) : Nat :=
  if v < 0x80 then 0 else if v < 0x800 then 1 else if v < 0x10000 then 2 else 3

theorem leadingByte_lt {v : Nat} (valid : v.isValidChar) : leadingByte v < 256 := by
  unfold leadingByte
  split_ifs <;> omega

theorem utf8EncodeChar_eq (c : Char) : utf8EncodeChar c =
    .ofNat (leadingByte c.toNat) :: trailingBytes (trailingCount c.toNat) c.toNat := by
  have valid : c.toNat.isValidChar := c.valid
  have value : c.val.toNat = c.toNat := rfl
  unfold utf8EncodeChar leadingByte trailingCount
  dsimp only
  rw [value]
  split_ifs <;> try omega
  · rfl
  · rw [Nat.mod_eq_of_lt (by omega : c.toNat / 64 < 32)]
    simp only [trailingBytes, Nat.pow_zero, Nat.div_one]
  · rw [Nat.mod_eq_of_lt (by omega : c.toNat / 4096 < 16)]
    simp only [trailingBytes, Nat.pow_zero, Nat.div_one, Nat.pow_one, Nat.reducePow]
  · rw [Nat.mod_eq_of_lt (by omega : c.toNat / 262144 < 8)]
    simp only [trailingBytes, Nat.pow_zero, Nat.div_one, Nat.pow_one, Nat.reducePow]

theorem singleton_prefix_iff {b : UInt8} {c : Char} :
    [b] <+: utf8EncodeChar c ↔ leadingByte c.toNat = b.toNat := by
  have small : leadingByte c.toNat < 256 := leadingByte_lt c.valid
  rw [utf8EncodeChar_eq, List.cons_prefix_cons, ← UInt8.toNat_inj, UInt8.toNat_ofNat',
    Nat.mod_eq_of_lt small, eq_comm]
  exact and_iff_left List.nil_prefix

/-- The values of the characters that go on like this sequence. -/
def Sequence.Admits (s : Sequence) (v : Nat) : Prop :=
  s.bits * 64 + (s.low.toNat - 0x80) ≤ v / 64 ^ s.further ∧
    v / 64 ^ s.further ≤ s.bits * 64 + (s.high.toNat - 0x80)

theorem Sequence.admits_of_byte {s : Sequence} {b : UInt8} {v : Nat} (low : s.low ≤ b)
    (high : b ≤ s.high) (value : v / 64 ^ s.further = s.bits * 64 + (b.toNat - 0x80)) :
    s.Admits v := by
  rw [UInt8.le_iff_toNat_le] at low high
  rw [Admits, value]
  omega

/-- What was read begins the encodings of the values that a sequence admits, and no others. -/
structure Begun (read : List UInt8) (s : Sequence) : Prop where
  bounds : 0x80 ≤ s.low.toNat ∧ s.low.toNat ≤ s.high.toNat ∧ s.high.toNat ≤ 0xBF
  valid : ∀ v, s.Admits v → v.isValidChar
  admits : ∀ c, read <+: utf8EncodeChar c → s.Admits c.toNat
  encodes : ∀ c, s.Admits c.toNat →
    utf8EncodeChar c = read ++ trailingBytes (s.further + 1) c.toNat

theorem toNat_ofNat {v : Nat} (valid : v.isValidChar) : (Char.ofNat v).toNat = v := by
  rw [Char.ofNat, dif_pos valid]
  rfl

section Begun

variable {read : List UInt8} {s : Sequence} (begun : Begun read s)

include begun

theorem Begun.beginsCharacter : BeginsCharacter read := by
  obtain ⟨-, ordered, -⟩ := begun.bounds
  have least : s.Admits ((s.bits * 64 + (s.low.toNat - 0x80)) * 64 ^ s.further) := by
    rw [Sequence.Admits, Nat.mul_div_cancel _ (Nat.pow_pos (by decide))]
    omega
  have same := toNat_ofNat (begun.valid _ least)
  exact ⟨_, begun.encodes _ (same.symm ▸ least) ▸ List.prefix_append _ _⟩

/-- The next byte of an encoding is in the range of the sequence, and tells six more bits. -/
theorem Begun.next_iff (b : UInt8) (c : Char) : read ++ [b] <+: utf8EncodeChar c ↔
    (s.low ≤ b ∧ b ≤ s.high) ∧ c.toNat / 64 ^ s.further = s.bits * 64 + (b.toNat - 0x80) := by
  have bounds := begun.bounds
  constructor
  · intro next
    have admitted := begun.admits c ((List.prefix_append _ _).trans next)
    rw [begun.encodes c admitted, List.prefix_append_right_inj, trailingBytes,
      List.cons_prefix_cons] at next
    have byte : b.toNat = c.toNat / 64 ^ s.further % 64 + 0x80 := by
      rw [next.1, UInt8.toNat_ofNat']
      omega
    obtain ⟨low, high⟩ := admitted
    rw [UInt8.le_iff_toNat_le, UInt8.le_iff_toNat_le]
    omega
  · rintro ⟨⟨low, high⟩, value⟩
    rw [begun.encodes c (s.admits_of_byte low high value), List.prefix_append_right_inj,
      trailingBytes, List.cons_prefix_cons]
    refine ⟨?_, List.nil_prefix⟩
    rw [UInt8.le_iff_toNat_le] at low high
    rw [← UInt8.toNat_inj, value, UInt8.toNat_ofNat']
    omega

/-- The byte that ends an encoding. -/
theorem Begun.utf8EncodeChar_eq {b : UInt8} (last : s.further = 0) (low : s.low ≤ b)
    (high : b ≤ s.high) :
    utf8EncodeChar (Char.ofNat (s.bits * 64 + (b.toNat - 0x80))) = read ++ [b] := by
  have bounds := begun.bounds
  have admitted : s.Admits (s.bits * 64 + (b.toNat - 0x80)) :=
    s.admits_of_byte low high (by rw [last, Nat.pow_zero, Nat.div_one])
  have value := toNat_ofNat (begun.valid _ admitted)
  rw [UInt8.le_iff_toNat_le] at low high
  rw [begun.encodes _ (value.symm ▸ admitted), value, last, trailingBytes, trailingBytes,
    Nat.pow_zero, Nat.div_one, List.append_cancel_left_eq, List.cons.injEq, ← UInt8.toNat_inj,
    UInt8.toNat_ofNat']
  exact ⟨by omega, rfl⟩

/-- The byte after which there are more to come. -/
theorem Begun.more {b : UInt8} {further : Nat} (more : s.further = further + 1) (low : s.low ≤ b)
    (high : b ≤ s.high) :
    Begun (read ++ [b]) ⟨further, 0x80, 0xBF, s.bits * 64 + (b.toNat - 0x80)⟩ := by
  have next := begun.next_iff b
  have bounds := begun.bounds
  have ranged (v : Nat) :
      (⟨further, 0x80, 0xBF, s.bits * 64 + (b.toNat - 0x80)⟩ : Sequence).Admits v ↔
        v / 64 ^ s.further = s.bits * 64 + (b.toNat - 0x80) := by
    rw [Sequence.Admits, more, Nat.pow_succ, ← Nat.div_div_eq_div_mul]
    dsimp only
    have first : (0x80 : UInt8).toNat = 0x80 := rfl
    have last : (0xBF : UInt8).toNat = 0xBF := rfl
    omega
  refine ⟨?_, fun v here => begun.valid v (s.admits_of_byte low high ((ranged v).mp here)),
    fun c here => (ranged _).mpr ((next c).mp here).2, ?_⟩
  · show 0x80 ≤ 0x80 ∧ 0x80 ≤ 0xBF ∧ 0xBF ≤ 0xBF
    decide
  intro c here
  have value := (ranged _).mp here
  have encoding := begun.encodes c (s.admits_of_byte low high value)
  obtain ⟨rest, same⟩ := (next c).mpr ⟨⟨low, high⟩, value⟩
  rw [more, trailingBytes] at encoding
  rw [← same, List.append_assoc, List.append_cancel_left_eq, List.singleton_append,
    List.cons.injEq] at encoding
  rw [← same, encoding.2]

end Begun

/-- Bytes that are no encoding, and that the next byte does not go on with. -/
theorem illFormedSubpart_of_stuck {part rest : List UInt8} (nonempty : part ≠ [])
    (subpart : BeginsCharacter part ∨ part.length = 1)
    (incomplete : ∀ c, ¬ utf8EncodeChar c <+: part)
    (stuck : ∀ b ∈ rest.head?, ¬ BeginsCharacter (part ++ [b])) :
    IllFormedSubpart part (part ++ rest) := by
  have longest : ∀ longer, longer <+: part ++ rest → BeginsCharacter longer →
      longer.length ≤ part.length := by
    rintro longer here ⟨c, begins⟩
    refine Nat.le_of_not_lt fun long => ?_
    obtain ⟨more, rfl⟩ := List.prefix_of_prefix_length_le (List.prefix_append part rest) here
      (by omega)
    rw [List.prefix_append_right_inj] at here
    cases more with
    | nil => simp at long
    | cons b more =>
      obtain ⟨rest, rfl⟩ := here
      refine stuck b rfl ⟨c, List.IsPrefix.trans ⟨more, ?_⟩ begins⟩
      rw [List.append_assoc, List.singleton_append]
  refine ⟨List.prefix_append part rest, nonempty, ?_, subpart, longest⟩
  intro c here
  have short := longest _ here ⟨c, List.prefix_rfl⟩
  exact incomplete c (List.prefix_of_prefix_length_le here (List.prefix_append part rest) short)

theorem illFormedSubpart_of_not_beginsCharacter {b : UInt8} {rest : List UInt8}
    (never : ¬ BeginsCharacter [b]) : IllFormedSubpart [b] ([b] ++ rest) := by
  refine illFormedSubpart_of_stuck (List.cons_ne_nil b []) (.inr rfl) ?_ ?_
  · intro c here
    rcases List.prefix_cons_iff.mp here with empty | ⟨more, whole, none⟩
    · exact String.utf8EncodeChar_ne_nil empty
    · rw [List.prefix_nil.mp none] at whole
      exact never ⟨c, whole ▸ List.prefix_rfl⟩
  · rintro b' - ⟨c, begins⟩
    exact never ⟨c, (List.prefix_append [b] [b']).trans begins⟩

theorem Begun.illFormedSubpart {read rest : List UInt8} {s : Sequence} (begun : Begun read s)
    (nonempty : read ≠ []) (stuck : ∀ b ∈ rest.head?, ¬ (s.low ≤ b ∧ b ≤ s.high)) :
    IllFormedSubpart read (read ++ rest) := by
  have begins := begun.beginsCharacter
  refine illFormedSubpart_of_stuck nonempty (.inl begins) ?_ ?_
  · intro c whole
    obtain ⟨c', part⟩ := begins
    obtain rfl := eq_of_utf8EncodeChar_prefix (whole.trans part)
    have short := whole.length_le
    rw [begun.encodes c (begun.admits c part), List.length_append, length_trailingBytes] at short
    omega
  · rintro b next ⟨c, begins⟩
    exact stuck b next ((begun.next_iff b c).mp begins).1

/-! Reading byte by byte. -/

theorem begun_singleton {b : UInt8} {s : Sequence}
    (bounds : 0x80 ≤ s.low.toNat ∧ s.low.toNat ≤ s.high.toNat ∧ s.high.toNat ≤ 0xBF)
    (admits : ∀ v, s.Admits v ↔ v.isValidChar ∧ leadingByte v = b.toNat)
    (count : ∀ v, s.Admits v → trailingCount v = s.further + 1) : Begun [b] s := by
  refine ⟨bounds, fun v admitted => ((admits v).mp admitted).1,
    fun c begins => (admits _).mpr ⟨c.valid, singleton_prefix_iff.mp begins⟩, ?_⟩
  intro c admitted
  rw [utf8EncodeChar_eq, count _ admitted, ((admits _).mp admitted).2, UInt8.ofNat_toNat]
  rfl

section Leads

variable {b : UInt8}

theorem begun_two (lead : 0xC2 ≤ b.toNat ∧ b.toNat < 0xE0) :
    Begun [b] ⟨0, 0x80, 0xBF, b.toNat - 0xC0⟩ := by
  refine begun_singleton ?_ ?_ ?_ <;>
    simp only [Sequence.Admits, Nat.pow_zero, Nat.div_one, UInt8.reduceToNat, leadingByte,
      trailingCount]
  · decide
  · intro v
    split_ifs <;> omega
  · intro v
    split_ifs <;> omega

theorem begun_three (lead : 0xE0 ≤ b.toNat ∧ b.toNat < 0xF0) :
    Begun [b] ⟨1, if b = 0xE0 then 0xA0 else 0x80, if b = 0xED then 0x9F else 0xBF,
      b.toNat - 0xE0⟩ := by
  refine begun_singleton ?_ ?_ ?_ <;>
    simp only [Sequence.Admits, Nat.pow_one, ← UInt8.toNat_inj, apply_ite UInt8.toNat,
      UInt8.reduceToNat, leadingByte, trailingCount]
  · split_ifs <;> omega
  · intro v
    split_ifs <;> omega
  · intro v
    split_ifs <;> omega

theorem begun_four (lead : 0xF0 ≤ b.toNat ∧ b.toNat < 0xF5) :
    Begun [b] ⟨2, if b = 0xF0 then 0x90 else 0x80, if b = 0xF4 then 0x8F else 0xBF,
      b.toNat - 0xF0⟩ := by
  refine begun_singleton ?_ ?_ ?_ <;>
    simp only [Sequence.Admits, ← UInt8.toNat_inj, apply_ite UInt8.toNat, UInt8.reduceToNat,
      leadingByte, trailingCount]
  · split_ifs <;> omega
  · intro v
    split_ifs <;> omega
  · intro v
    split_ifs <;> omega

theorem utf8EncodeChar_of_lt (small : b.toNat < 0x80) :
    utf8EncodeChar (Char.ofNat b.toNat) = [b] := by
  have valid : b.toNat.isValidChar := .inl (by omega)
  rw [utf8EncodeChar_eq, toNat_ofNat valid, leadingByte, trailingCount, if_pos small,
    if_pos small, UInt8.ofNat_toNat, trailingBytes]

theorem not_beginsCharacter (neither : 0x80 ≤ b.toNat ∧ b.toNat < 0xC2 ∨ 0xF5 ≤ b.toNat) :
    ¬ BeginsCharacter [b] := by
  rintro ⟨c, begins⟩
  have valid : c.toNat.isValidChar := c.valid
  rw [singleton_prefix_iff, leadingByte] at begins
  split_ifs at begins <;> omega

/-- What a byte does at the start of a sequence is what it does to encodings. -/
theorem beginSequence_cases (b : UInt8) :
    (∃ c, beginSequence b = ([c], none) ∧ utf8EncodeChar c = [b]) ∨
    (beginSequence b = ([replacement], none) ∧ ¬ BeginsCharacter [b]) ∨
    ∃ s, beginSequence b = ([], some s) ∧ Begun [b] s := by
  unfold beginSequence
  simp only [UInt8.lt_iff_toNat_lt, UInt8.reduceToNat]
  split
  · exact .inl ⟨_, rfl, utf8EncodeChar_of_lt (by omega)⟩
  split
  · exact .inr (.inl ⟨rfl, not_beginsCharacter (by omega)⟩)
  split
  · exact .inr (.inr ⟨_, rfl, begun_two (by omega)⟩)
  split
  · exact .inr (.inr ⟨_, rfl, begun_three (by omega)⟩)
  split
  · exact .inr (.inr ⟨_, rfl, begun_four (by omega)⟩)
  · exact .inr (.inl ⟨rfl, not_beginsCharacter (by omega)⟩)

end Leads

theorem Begun.continueSequence_cases {read : List UInt8} {s : Sequence} (begun : Begun read s)
    (b : UInt8) :
    (∃ c, continueSequence s b = ([c], none) ∧ utf8EncodeChar c = read ++ [b]) ∨
    (∃ s', continueSequence s b = ([], some s') ∧ Begun (read ++ [b]) s') ∨
    (continueSequence s b = (replacement :: (beginSequence b).1, (beginSequence b).2) ∧
      ¬ (s.low ≤ b ∧ b ≤ s.high)) := by
  unfold continueSequence
  split
  · rename_i range
    dsimp only
    split
    · rename_i last
      exact .inl ⟨_, rfl, begun.utf8EncodeChar_eq last range.1 range.2⟩
    · rename_i further more
      exact .inr (.inl ⟨_, rfl, begun.more more range.1 range.2⟩)
  · rename_i broken
    exact .inr (.inr ⟨rfl, broken⟩)

theorem decodeFrom_none_cons (b : UInt8) (rest : List UInt8) : decodeFrom none (b :: rest) =
    (beginSequence b).1 ++ decodeFrom (beginSequence b).2 rest := rfl

theorem decodeFrom_some_cons (s : Sequence) (b : UInt8) (rest : List UInt8) :
    decodeFrom (some s) (b :: rest) =
      (continueSequence s b).1 ++ decodeFrom (continueSequence s b).2 rest := rfl

theorem lossy_decodeFrom (bytes : List UInt8) : Lossy bytes (decodeFrom none bytes) ∧
    ∀ read s, read ≠ [] → Begun read s → Lossy (read ++ bytes) (decodeFrom (some s) bytes) := by
  -- A byte that breaks a sequence off is read anew, so the first part is proved before the second.
  induction bytes with
  | nil =>
    refine ⟨.done, fun read s nonempty begun => .illFormed ?_ .done⟩
    exact begun.illFormedSubpart nonempty (by simp)
  | cons b rest ih =>
    obtain ⟨anew, goesOn⟩ := ih
    have first : Lossy (b :: rest) (decodeFrom none (b :: rest)) := by
      rw [decodeFrom_none_cons, ← List.singleton_append]
      rcases beginSequence_cases b with ⟨c, began, encoding⟩ | ⟨began, never⟩ | ⟨s, began, begun⟩
      · rw [began, ← encoding]
        exact .character c anew
      · rw [began]
        exact .illFormed (illFormedSubpart_of_not_beginsCharacter never) anew
      · rw [began]
        exact goesOn [b] s (List.cons_ne_nil b []) begun
    refine ⟨first, fun read s nonempty begun => ?_⟩
    rw [decodeFrom_some_cons, List.append_cons]
    rcases begun.continueSequence_cases b with
      ⟨c, ended, encoding⟩ | ⟨s', longer, begun'⟩ | ⟨broken, outside⟩
    · rw [ended, ← encoding]
      exact .character c anew
    · rw [longer]
      exact goesOn _ s' (List.append_ne_nil_of_right_ne_nil read (List.cons_ne_nil b [])) begun'
    · rw [broken, List.cons_append, ← decodeFrom_none_cons, ← List.append_cons]
      refine .illFormed (begun.illFormedSubpart nonempty ?_) first
      rintro b' ⟨⟩
      exact outside

/-- The text of some bytes is their lossy decoding and nothing else is. -/
theorem lossy_iff {bytes : List UInt8} {text : List Char} :
    Lossy bytes text ↔ text = (decodeUtf8 bytes).toList := by
  have decoded := (lossy_decodeFrom bytes).1
  rw [decodeUtf8, String.toList_ofList]
  exact ⟨fun decoded' => decoded'.unique decoded, fun same => same ▸ decoded⟩

/-! Three sequences that break off, two bytes that begin none, and the characters around them. -/
example :
    decodeUtf8 [0x61, 0xF1, 0x80, 0x80, 0xE1, 0x80, 0xC2, 0x62, 0x80, 0x63, 0x80, 0xBF, 0x64] =
      "a\uFFFD\uFFFD\uFFFDb\uFFFDc\uFFFD\uFFFDd" := by decide

/-- Text that was encoded decodes to itself. -/
theorem decodeUtf8_utf8EncodeChar (s : String) :
    decodeUtf8 (s.toList.flatMap utf8EncodeChar) = s := by
  have encoded (text : List Char) : Lossy (text.flatMap utf8EncodeChar) text := by
    induction text with
    | nil => exact .done
    | cons c text ih => exact .character c ih
  rw [← String.toList_inj, ← lossy_iff.mp (encoded s.toList)]

end NesMachine.Text
