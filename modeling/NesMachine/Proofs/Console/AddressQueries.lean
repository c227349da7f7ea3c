import NesMachine.Console.Query
import NesMachine.Proofs.Console.AddressTable
import NesMachine.Proofs.Text.PositionalNotation

/-!
# Queries of memory

A query of memory names its address by a hexadecimal numeral behind a mark, or by a decimal one.
All numerals for an address give the byte that is there, and any other text gives nothing. A
path that names no device is one of the processor.
-/
namespace NesMachine

namespace Text

theorem after?_eq_some_iff {α : Type} [DecidableEq α] {start list rest : List α} :
    after? start list = some rest ↔ list = start ++ rest := by
  induction start generalizing list with
  | nil => rw [after?, Option.some.injEq, List.nil_append]
  | cons a start ih =>
    cases list with
    | nil => simp [after?]
    | cons b list =>
      rw [after?, List.cons_append, List.cons.injEq]
      split
      · rename_i same
        simp only [ih, same, true_and]
      · rename_i other
        exact iff_of_false nofun fun parts => other parts.1.symm

theorem textAfter?_eq_some_iff {start s rest : String} :
    textAfter? start s = some rest ↔ s = start ++ rest := by
  rw [textAfter?, Option.map_eq_some_iff]
  simp only [after?_eq_some_iff]
  constructor
  · rintro ⟨list, whole, rfl⟩
    rw [← String.toList_inj, String.toList_append, String.toList_ofList, whole]
  · rintro rfl
    exact ⟨rest.toList, String.toList_append, String.ofList_toList⟩

theorem textAfter?_append (start rest : String) : textAfter? start (start ++ rest) = some rest :=
  textAfter?_eq_some_iff.mpr rfl

theorem textAfter?_eq_none_iff {start s : String} :
    textAfter? start s = none ↔ ∀ rest, s ≠ start ++ rest := by
  simp only [Option.eq_none_iff_forall_ne_some, ne_eq, textAfter?_eq_some_iff]

/-- No text opens with two others of which neither opens with the other one. -/
theorem textAfter?_append_of_apart {start other : String} (apart : textAfter? start other = none)
    (apart' : textAfter? other start = none) (rest : String) :
    textAfter? start (other ++ rest) = none := by
  rw [textAfter?_eq_none_iff] at *
  intro more same
  have lists : other.toList ++ rest.toList = start.toList ++ more.toList := by
    rw [← String.toList_append, same, String.toList_append]
  have join {s t : String} {middle : List Char} (whole : s.toList = t.toList ++ middle) :
      s = t ++ String.ofList middle := by
    rw [← String.toList_inj, String.toList_append, String.toList_ofList, whole]
  -- Of two beginnings of one text the longer one opens with the other.
  rcases List.append_eq_append_iff.mp lists with ⟨middle, whole, -⟩ | ⟨middle, whole, -⟩
  · exact apart' _ (join whole)
  · exact apart _ (join whole)

end Text

namespace Console

open Text

/-- What stands before a hexadecimal address. -/
def marks : List String := ["0x", "0X", "$"]

/-- What a path begins with that names a device. -/
def deviceNames : List String := ["cpu.", "ppu.", "cartridge.", "memory."]

/-- A text names an address by a numeral, which is hexadecimal behind a mark. -/
inductive NamesAddress : String → UInt16 → Prop where
  | hexadecimal {mark numeral : String} {a : UInt16} (marked : mark ∈ marks)
    (number : IsNumeralFor 16 numeral a.toNat) : NamesAddress (mark ++ numeral) a
  | decimal {numeral : String} {a : UInt16} (number : IsNumeralFor 10 numeral a.toNat) :
    NamesAddress numeral a

theorem readNumeral_eq_some_iff {base : Nat} (positive : 0 < base) {s : String} {a : UInt16} :
    (readNumeral base 0xFFFF s).toOption.map UInt16.ofNat = some a ↔
      IsNumeralFor base s a.toNat := by
  have read (n : Nat) : readNumeral base 0xFFFF s = .ok n ↔ IsNumeralFor base s n ∧ n ≤ 0xFFFF :=
    readNumeral_eq_ok_iff_isNumeralFor positive
  have small : a.toNat < 65536 := a.toNat_lt
  generalize readNumeral base 0xFFFF s = number at *
  constructor
  · intro named
    cases number with
    | error e => cases named
    | ok n =>
      obtain ⟨numeral, within⟩ := (read n).mp rfl
      obtain rfl := Option.some.inj named
      rwa [UInt16.toNat_ofNat', Nat.mod_eq_of_lt (by omega)]
  · intro numeral
    rw [(read a.toNat).mpr ⟨numeral, by omega⟩]
    exact congrArg some UInt16.ofNat_toNat

theorem afterMark_eq_some_iff {s numeral : String} :
    (textAfter? "0x" s).or ((textAfter? "0X" s).or (textAfter? "$" s)) = some numeral ↔
      ∃ mark ∈ marks, s = mark ++ numeral := by
  constructor
  · simp only [Option.or_eq_some_iff, textAfter?_eq_some_iff]
    rintro (lower | ⟨-, upper | ⟨-, dollar⟩⟩)
    · exact ⟨"0x", by decide, lower⟩
    · exact ⟨"0X", by decide, upper⟩
    · exact ⟨"$", by decide, dollar⟩
  · rintro ⟨mark, marked, rfl⟩
    simp only [marks, List.mem_cons, List.not_mem_nil, or_false] at marked
    rcases marked with rfl | rfl | rfl
    · rw [textAfter?_append, Option.some_or]
    · rw [textAfter?_append_of_apart rfl rfl, textAfter?_append, Option.none_or, Option.some_or]
    · rw [textAfter?_append_of_apart rfl rfl, textAfter?_append_of_apart rfl rfl,
        textAfter?_append, Option.none_or, Option.none_or]

/-- No decimal numeral begins with a mark. -/
theorem not_isNumeralFor_mark {mark numeral : String} {a : UInt16} (marked : mark ∈ marks) :
    ¬ IsNumeralFor 10 (mark ++ numeral) a.toNat := by
  rw [← readNumeral_eq_some_iff (by decide), readNumeral, String.toList_append]
  simp only [marks, List.mem_cons, List.not_mem_nil, or_false] at marked
  rcases marked with rfl | rfl | rfl <;> nofun

theorem address?_eq_some_iff {s : String} {a : UInt16} :
    address? s = some a ↔ NamesAddress s a := by
  unfold address?
  cases marked : (textAfter? "0x" s).or ((textAfter? "0X" s).or (textAfter? "$" s)) with
  | none =>
    dsimp only
    rw [readNumeral_eq_some_iff (by decide)]
    constructor
    · exact .decimal
    · rintro (⟨known, number⟩ | number)
      · cases marked.symm.trans (afterMark_eq_some_iff.mpr ⟨_, known, rfl⟩)
      · exact number
  | some numeral =>
    obtain ⟨mark, known, whole⟩ := afterMark_eq_some_iff.mp marked
    dsimp only
    rw [readNumeral_eq_some_iff (by decide)]
    -- What stands behind the mark is told from the text, and no decimal numeral has one.
    constructor
    · intro number
      exact whole ▸ .hexadecimal known number
    · rintro (⟨known', number⟩ | number)
      · have same := marked.symm.trans (afterMark_eq_some_iff.mpr ⟨_, known', rfl⟩)
        exact Option.some.inj same ▸ number
      · exact absurd (whole ▸ number) (not_isNumeralFor_mark known)

theorem address?_eq_none_iff {s : String} : address? s = none ↔ ¬ ∃ a, NamesAddress s a := by
  simp only [Option.eq_none_iff_forall_ne_some, ne_eq, address?_eq_some_iff, not_exists]

theorem namesAddress_repr (a : UInt16) : NamesAddress a.toNat.repr a :=
  .decimal (isNumeralFor_repr a.toNat)

theorem namesAddress_hexWord {mark : String} (marked : mark ∈ marks) (a : UInt16) :
    NamesAddress (mark ++ hexWord a) a :=
  .hexadecimal marked (isNumeralFor_hexWord a)

section Query

variable (c : Console)

theorem query_memory (s : String) :
    c.query ("memory." ++ s) = (address? s).map fun a => .byte (c.peek a) := by
  simp only [query, textAfter?_append_of_apart (rfl : textAfter? "cpu." "memory." = none) rfl,
    textAfter?_append_of_apart (rfl : textAfter? "ppu." "memory." = none) rfl,
    textAfter?_append_of_apart (rfl : textAfter? "cartridge." "memory." = none) rfl,
    textAfter?_append]

theorem query_cpu (path : String) : c.query ("cpu." ++ path) = c.cpu.query path := by
  simp only [query, textAfter?_append]

theorem query_of_elsewhere {path : String}
    (elsewhere : ∀ device ∈ deviceNames, ∀ rest, path ≠ device ++ rest) :
    c.query path = c.cpu.query path := by
  have nowhere (device : String) (known : device ∈ deviceNames) :
      textAfter? device path = none := textAfter?_eq_none_iff.mpr (elsewhere device known)
  simp only [query, nowhere "cpu." (by decide), nowhere "ppu." (by decide),
    nowhere "cartridge." (by decide), nowhere "memory." (by decide)]

end Query

/-- A query of memory gives the byte at the address that it names, and nothing if it names none.
Each address has names in decimal and behind each mark, and all of them are answered alike. A
path that begins with no device is one of the processor. -/
theorem memory_of_query (c : Console) :
    (∀ s a, NamesAddress s a → c.query ("memory." ++ s) = some (.byte (c.peek a))) ∧
    (∀ s, (¬ ∃ a, NamesAddress s a) → c.query ("memory." ++ s) = none) ∧
    (∀ a, NamesAddress a.toNat.repr a ∧ (∀ mark ∈ marks, NamesAddress (mark ++ hexWord a) a) ∧
      ∀ s, NamesAddress s a → c.query ("memory." ++ s) = c.query ("memory." ++ a.toNat.repr)) ∧
    ∀ path, (∀ device ∈ deviceNames, ∀ rest, path ≠ device ++ rest) →
      c.query path = c.query ("cpu." ++ path) := by
  have named {s : String} {a : UInt16} (names : NamesAddress s a) :
      c.query ("memory." ++ s) = some (.byte (c.peek a)) := by
    rw [query_memory, address?_eq_some_iff.mpr names, Option.map_some]
  refine ⟨fun s a => named, fun s nameless => ?_, fun a => ⟨namesAddress_repr a,
    fun mark marked => namesAddress_hexWord marked a, fun s names => ?_⟩, fun path elsewhere => ?_⟩
  · rw [query_memory, address?_eq_none_iff.mpr nameless, Option.map_none]
  · rw [named names, named (namesAddress_repr a)]
  · rw [query_cpu, query_of_elsewhere c elsewhere]

theorem memory_of_query_spelled : ∃ settings c, powerOn settings = .ok c ∧
    let written := c.write 0x07AF 0x5A
    written.query "memory.0X+07aF" = some (.byte 0x5A) ∧
      written.query "memory.+01967" = some (.byte 0x5A) ∧
      written.query "memory.0x$7AF" = none ∧ written.query "memory.$10000" = none ∧
      written.query "sp" = written.query "cpu.sp" := by
  obtain ⟨cartridge, accepted⟩ := Cartridge.exists_ofImage_trainedImage
  have on : powerOn (.ofImage Cartridge.trainedImage) = .ok (switchedOn _ cartridge) :=
    powerOn_of_ofImage accepted
  refine ⟨_, _, on, ?_⟩
  intro written
  obtain ⟨named, nameless, -, elsewhere⟩ := memory_of_query written
  have byte : written.peek 0x07AF = 0x5A :=
    (ConsoleBus.peek_write_workRam _ 0x07AF 0x5A (by decide)).trans (if_pos (by decide))
  have shown (s : String) (names : address? s = some 0x07AF) :
      written.query ("memory." ++ s) = some (.byte 0x5A) := by
    rw [named s 0x07AF (address?_eq_some_iff.mp names), byte]
  have hidden (s : String) (names : address? s = none) :
      written.query ("memory." ++ s) = none :=
    nameless s (address?_eq_none_iff.mp names)
  have unprefixed : ∀ device ∈ deviceNames, textAfter? device "sp" = none := by decide
  exact ⟨shown "0X+07aF" rfl, shown "+01967" rfl, hidden "0x$7AF" rfl, hidden "$10000" rfl,
    elsewhere "sp" fun device known => textAfter?_eq_none_iff.mp (unprefixed device known)⟩

end Console
end NesMachine
