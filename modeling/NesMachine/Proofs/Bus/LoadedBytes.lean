import Mathlib.Data.List.Induction
import Mathlib.Order.Bounds.Basic
import NesMachine.Bus.Flat

/-!
# What a load leaves in memory

Loaded bytes go to successive addresses and around at the top of memory, so that a load of more
bytes than memory has overwrites its own. Each address holds the last byte that went there, or
what it held before if none did; therefore a load can be made in parts, and loads that meet
nowhere can be made in either order.
-/
namespace NesMachine

theorem toNat_add_ofNat (a : UInt16) (n : Nat) :
    (a + .ofNat n).toNat = (a.toNat + n) % 65536 := by
  rw [UInt16.toNat_add, UInt16.toNat_ofNat', Nat.add_mod_mod]

namespace FlatMemory

/-- The positions among the loaded bytes of those that go to an address. -/
def positions (start : UInt16) (data : List UInt8) (a : UInt16) : Set Nat :=
  {i | i < data.length ∧ (start.toNat + i) % 65536 = a.toNat}

/-- The addresses to which a load writes. -/
def touched (start : UInt16) (data : List UInt8) : Set UInt16 :=
  {a | (positions start data a).Nonempty}

theorem ext_get {m m' : FlatMemory} (same : ∀ a, m.get a = m'.get a) : m = m' := by
  obtain ⟨cells⟩ := m
  obtain ⟨cells'⟩ := m'
  refine congrArg FlatMemory.mk (Vector.ext fun i inside => ?_)
  have number : (UInt16.ofNat i).toNat = i := UInt16.toNat_ofNat_of_lt' inside
  have here := same (.ofNat i)
  simp only [get, number] at here
  exact here

section Parts

variable (m : FlatMemory) (start : UInt16)

theorem load_append (xs ys : List UInt8) :
    m.load start (xs ++ ys) = (m.load start xs).load (start + .ofNat xs.length) ys := by
  induction xs generalizing m start with
  | nil =>
    rw [List.nil_append, load, List.length_nil]
    exact congrArg (m.load · ys) (UInt16.add_zero start).symm
  | cons byte rest ih =>
    have further : start + 1 + .ofNat rest.length = start + .ofNat (rest.length + 1) := by
      rw [UInt16.ofNat_add, UInt16.add_assoc, UInt16.add_comm 1]
      rfl
    rw [List.cons_append, load, load, ih, further, List.length_cons]

theorem load_concat (data : List UInt8) (byte : UInt8) :
    m.load start (data ++ [byte]) = (m.load start data).set (start + .ofNat data.length) byte :=
  load_append m start data [byte]

end Parts

section Positions

variable {start : UInt16} {data : List UInt8} {byte : UInt8} {a : UInt16}

theorem positions_nil : positions start [] a = ∅ :=
  Set.eq_empty_of_forall_notMem fun _ there => Nat.not_lt_zero _ there.1

theorem mem_positions_concat {i : Nat} : i ∈ positions start (data ++ [byte]) a ↔
    i ∈ positions start data a ∨ i = data.length ∧ start + .ofNat data.length = a := by
  have place : start + .ofNat data.length = a ↔ (start.toNat + data.length) % 65536 = a.toNat := by
    rw [← UInt16.toNat_inj, toNat_add_ofNat]
  rw [place, positions, positions, Set.mem_ofPred_eq, Set.mem_ofPred_eq, List.length_append,
    List.length_singleton]
  constructor
  · rintro ⟨inside, here⟩
    rcases Nat.lt_or_eq_of_le (Nat.le_of_lt_succ inside) with before | rfl
    · exact .inl ⟨before, here⟩
    · exact .inr ⟨rfl, here⟩
  · rintro (⟨before, here⟩ | ⟨rfl, here⟩)
    · exact ⟨Nat.lt_succ_of_lt before, here⟩
    · exact ⟨Nat.lt_succ_self _, here⟩

theorem isGreatest_positions_concat (here : start + .ofNat data.length = a) :
    IsGreatest (positions start (data ++ [byte]) a) data.length := by
  refine ⟨mem_positions_concat.mpr (.inr ⟨rfl, here⟩), fun i there => ?_⟩
  rcases mem_positions_concat.mp there with ⟨before, -⟩ | ⟨rfl, -⟩
  · exact Nat.le_of_lt before
  · exact Nat.le_refl _

theorem positions_concat_of_ne (elsewhere : start + .ofNat data.length ≠ a) :
    positions start (data ++ [byte]) a = positions start data a := by
  ext i
  simp only [mem_positions_concat, elsewhere, and_false, or_false]

end Positions

section Load

variable {m m' : FlatMemory} {start : UInt16} {data : List UInt8} {a : UInt16}

/-- The last of the bytes that go to an address stays there. -/
theorem get_load (m : FlatMemory) (start : UInt16) (data : List UInt8) (a : UInt16) :
    (∃ i, IsGreatest (positions start data a) i ∧ data[i]? = some ((m.load start data).get a)) ∨
      positions start data a = ∅ ∧ (m.load start data).get a = m.get a := by
  -- One more byte stands at its own address, and every other one holds what it held.
  induction data using List.reverseRecOn with
  | nil => exact .inr ⟨positions_nil, rfl⟩
  | append_singleton data byte ih =>
    rw [load_concat, get_set]
    by_cases here : start + .ofNat data.length = a
    · refine .inl ⟨data.length, isGreatest_positions_concat here, ?_⟩
      rw [if_pos here, List.getElem?_concat_length]
    · rw [positions_concat_of_ne here, if_neg here]
      rcases ih with ⟨i, greatest, kept⟩ | nothing
      · refine .inl ⟨i, greatest, ?_⟩
        rw [List.getElem?_append_left greatest.1.1, kept]
      · exact .inr nothing

theorem get_load_of_notMem (untouched : a ∉ touched start data) :
    (m.load start data).get a = m.get a := by
  rcases get_load m start data a with ⟨i, greatest, -⟩ | ⟨-, kept⟩
  · exact absurd ⟨i, greatest.1⟩ untouched
  · exact kept

/-- After a load, memories agree where they did so before and where it has written. -/
theorem get_load_congr (same : a ∉ touched start data → m.get a = m'.get a) :
    (m.load start data).get a = (m'.load start data).get a := by
  rcases get_load m start data a with ⟨i, greatest, byte⟩ | ⟨nothing, kept⟩
  · rcases get_load m' start data a with ⟨i', greatest', byte'⟩ | ⟨nothing, -⟩
    · rw [greatest.unique greatest', byte'] at byte
      exact (Option.some.inj byte).symm
    · exact absurd greatest.1 (nothing ▸ Set.notMem_empty i)
  · have untouched : a ∉ touched start data := Set.not_nonempty_iff_eq_empty.mpr nothing
    rw [kept, get_load_of_notMem untouched, same untouched]

theorem load_comm {start' : UInt16} {data' : List UInt8}
    (apart : ∀ a ∈ touched start data, a ∉ touched start' data') :
    (m.load start data).load start' data' = (m.load start' data').load start data := by
  refine ext_get fun a => ?_
  by_cases first : a ∈ touched start data
  · rw [get_load_of_notMem (apart a first)]
    exact get_load_congr fun other => absurd first other
  · rw [get_load_of_notMem (m := m.load start' data') first]
    exact get_load_congr fun _ => get_load_of_notMem first

end Load

/-- Each address holds the last of the loaded bytes that go there, or what it held before if none
does. So a load can be made in two parts, and loads that have no address in common can be made in
either order. -/
theorem bytes_of_load (m : FlatMemory) :
    (∀ start data a,
      (∃ i, IsGreatest (positions start data a) i ∧
        data[i]? = some ((m.load start data).get a)) ∨
      positions start data a = ∅ ∧ (m.load start data).get a = m.get a) ∧
    (∀ start xs ys, m.load start (xs ++ ys) =
      (m.load start xs).load (.ofNat ((start.toNat + xs.length) % 65536)) ys) ∧
    ∀ start xs start' ys, (∀ a ∈ touched start xs, a ∉ touched start' ys) →
      (m.load start xs).load start' ys = (m.load start' ys).load start xs := by
  refine ⟨m.get_load, fun start xs ys => ?_, fun start xs start' ys apart => load_comm apart⟩
  have next : start + .ofNat xs.length = .ofNat ((start.toNat + xs.length) % 65536) := by
    rw [← UInt16.toNat_inj, toNat_add_ofNat, UInt16.toNat_ofNat', Nat.mod_mod]
  rw [load_append, next]

theorem bytes_of_load_around :
    let data := List.replicate 65536 0x11 ++ [0x22, 0x33]
    (zero.load 0xFFFE data).get 0xFFFE = 0x22 ∧ (zero.load 0xFFFE data).get 0x0000 = 0x11 ∧
      zero.load 0xFFFE ([0x44, 0x55] ++ [0x66]) =
        (zero.load 0xFFFE [0x44, 0x55]).load 0x0000 [0x66] ∧
      (zero.load 0xFFFF [0x77, 0x88]).load 0x0001 [0x99] =
        (zero.load 0x0001 [0x99]).load 0xFFFF [0x77, 0x88] := by
  intro data
  obtain ⟨bytes, parts, swaps⟩ := bytes_of_load zero
  have filled : (List.replicate 65536 (0x11 : UInt8)).length = 65536 := List.length_replicate
  have length : data.length = 65538 := by
    rw [List.length_append, filled]
    rfl
  have held {a : UInt16} {i : Nat} (greatest : IsGreatest (positions 0xFFFE data a) i) :
      data[i]? = some ((zero.load 0xFFFE data).get a) := by
    rcases bytes 0xFFFE data a with ⟨j, greatest', byte⟩ | ⟨nothing, -⟩
    · rw [greatest.unique greatest', byte]
    · exact absurd greatest.1 (nothing ▸ Set.notMem_empty i)
  have twice : IsGreatest (positions 0xFFFE data 0xFFFE) 65536 := by
    refine ⟨⟨by omega, rfl⟩, fun i there => ?_⟩
    have place : (65534 + i) % 65536 = 65534 := there.2
    have inside := there.1
    omega
  have once : IsGreatest (positions 0xFFFE data 0x0000) 2 := by
    refine ⟨⟨by omega, rfl⟩, fun i there => ?_⟩
    have place : (65534 + i) % 65536 = 0 := there.2
    have inside := there.1
    omega
  refine ⟨?_, ?_, parts 0xFFFE [0x44, 0x55] [0x66], swaps 0xFFFF [0x77, 0x88] 0x0001 [0x99] ?_⟩
  · have byte : data[65536]? = some 0x22 := by
      rw [List.getElem?_append_right (Nat.le_of_eq filled), filled]
      rfl
    exact Option.some.inj ((held twice).symm.trans byte)
  · have byte : data[2]? = some 0x11 := by
      rw [List.getElem?_append_left (by omega), List.getElem?_replicate_of_lt (by omega)]
    exact Option.some.inj ((held once).symm.trans byte)
  · rintro a ⟨i, inside, place⟩ ⟨j, inside', place'⟩
    have inside : i < 2 := inside
    have inside' : j < 1 := inside'
    have same : (65535 + i) % 65536 = (1 + j) % 65536 := place.trans place'.symm
    omega

end FlatMemory
end NesMachine
