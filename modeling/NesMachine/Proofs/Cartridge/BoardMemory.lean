import NesMachine.Proofs.Bus.LastWrites
import NesMachine.Proofs.Cartridge.Images

/-!
# The memory on a board

RAM of any size answers throughout its window, and so does ROM. Two addresses of the window
meet in one byte of the RAM if they differ by a multiple of its size: what is written at one
of them is read at the other. A board without RAM takes no byte, and its window is blank.
-/
namespace NesMachine

/-- What the user of a board does with it. -/
inductive BoardCall where
  | access (request : Request)
  | peek (address : UInt16)
  deriving DecidableEq, Repr

/-- The call as a bus sees it, which is not told of peeks. -/
def BoardCall.request? : BoardCall → Option Request
  | .access request => some request
  | .peek _ => none

namespace Nrom

instance : Bus Nrom where
  read board a := (board.read a, board)
  peek := peek
  write board a v := (board.write a v).2

/-- The board after a call. -/
def call (board : Nrom) : BoardCall → Nrom
  | .access request => Bus.serve board request
  | .peek _ => board

def afterCalls (board : Nrom) (calls : List BoardCall) : Nrom := calls.foldl call board

theorem afterCalls_eq (board : Nrom) (calls : List BoardCall) :
    board.afterCalls calls = Bus.serveAll board (calls.filterMap BoardCall.request?) := by
  induction calls generalizing board with
  | nil => rfl
  | cons call rest ih => cases call <;> exact ih _

/-- A board with `size` bytes of RAM takes a byte at this address. -/
def Takes (size : Nat) (a : UInt16) : Prop := 0x6000 ≤ a ∧ a < 0x8000 ∧ 0 < size

/-- Two addresses of the window meet in one byte of a RAM of `size` bytes. -/
def SharesByte (size : Nat) (a b : UInt16) : Prop :=
  (a.toNat - 0x6000) % size = (b.toNat - 0x6000) % size

instance (size : Nat) : DecidablePred (Takes size) := fun a =>
  inferInstanceAs (Decidable (0x6000 ≤ a ∧ a < 0x8000 ∧ 0 < size))

instance (size : Nat) (a b : UInt16) : Decidable (SharesByte size a b) :=
  inferInstanceAs (Decidable ((a.toNat - 0x6000) % size = (b.toNat - 0x6000) % size))

theorem hasRam_iff (board : Nrom) : board.hasRam = true ↔ 0 < board.prgRam.size := by
  rw [hasRam, Bool.not_eq_true', Array.isEmpty_eq_false_iff, ← Array.size_pos_iff]

theorem write_of_takes {board : Nrom} {a : UInt16} (takes : Takes board.prgRam.size a) (v : UInt8) :
    board.write a v = (true, { board with
      prgRam := board.prgRam.setIfInBounds ((a.toNat - 0x6000) % board.prgRam.size) v }) := by
  obtain ⟨above, below, fitted⟩ := takes
  rw [write, if_pos ⟨above, below, board.hasRam_iff.mpr fitted⟩]

theorem write_of_not_takes {board : Nrom} {a : UInt16} (refuses : ¬ Takes board.prgRam.size a)
    (v : UInt8) : board.write a v = (false, board) := by
  rw [write, if_neg]
  rintro ⟨above, below, fitted⟩
  exact refuses ⟨above, below, board.hasRam_iff.mp fitted⟩

/-- A write changes the RAM of a board at most, and leaves its size. -/
theorem exists_prgRam_write (board : Nrom) (a : UInt16) (v : UInt8) :
    ∃ prgRam, (board.write a v).2 = { board with prgRam } ∧
      prgRam.size = board.prgRam.size := by
  by_cases takes : Takes board.prgRam.size a
  · rw [write_of_takes takes]
    exact ⟨_, rfl, Array.size_setIfInBounds⟩
  · rw [write_of_not_takes takes]
    exact ⟨_, rfl, rfl⟩

theorem byteAt_set {memory : Array UInt8} (nonempty : 0 < memory.size) (i j : Nat) (v : UInt8) :
    byteAt (memory.setIfInBounds (i % memory.size) v) j =
      if i % memory.size = j % memory.size then v else byteAt memory j := by
  have inside := Nat.mod_lt j nonempty
  rw [byteAt, byteAt, Array.size_setIfInBounds]
  by_cases same : i % memory.size = j % memory.size
  · rw [same]
    simp [Array.getD_eq_getD_getElem?, inside]
  · simp [Array.getD_eq_getD_getElem?, same]

/-- A write that is taken is seen at all addresses that share its byte, and one that is
refused nowhere. -/
theorem peek_write (board : Nrom) {a : UInt16} (window : 0x6000 ≤ a ∧ a < 0x8000) (b : UInt16)
    (v : UInt8) : (board.write b v).2.peek a =
      if Takes board.prgRam.size b ∧ SharesByte board.prgRam.size b a then v
      else board.peek a := by
  by_cases takes : Takes board.prgRam.size b
  · rw [write_of_takes takes, peek_of_ram _ window, peek_of_ram _ window, byteAt_set takes.2.2]
    simp only [takes, true_and]
    rfl
  · rw [write_of_not_takes takes, if_neg fun h => takes h.1]

/-- Where RAM fills its window, no two addresses share a byte. -/
theorem shares_iff_of_filled {size : Nat} (filled : size = 0x2000) {a : UInt16}
    (window : 0x6000 ≤ a ∧ a < 0x8000) (b : UInt16) :
    Takes size b ∧ SharesByte size b a ↔ b = a := by
  obtain ⟨above, below⟩ := window
  rw [UInt16.le_iff_toNat_le] at above
  rw [UInt16.lt_iff_toNat_lt] at below
  constructor
  · rintro ⟨⟨above', below', -⟩, same⟩
    rw [UInt16.le_iff_toNat_le] at above'
    rw [UInt16.lt_iff_toNat_lt] at below'
    rw [SharesByte, filled] at same
    apply UInt16.toNat_inj.mp
    simp only [UInt16.reduceToNat] at *
    omega
  · rintro rfl
    exact ⟨⟨UInt16.le_iff_toNat_le.mpr above, UInt16.lt_iff_toNat_lt.mpr below, by omega⟩, rfl⟩

/-- What a board keeps of the memories that it was made with. -/
structure MadeOf (prgRom chrRom : Array UInt8) (size : Nat) (mirroring : Mirroring)
    (board : Nrom) : Prop where
  prgRom : board.prgRom = prgRom
  chrRom : board.chrRom = chrRom
  size : board.prgRam.size = size
  mirroring : board.mirroring = mirroring

instance (prgRom chrRom : Array UInt8) (size : Nat) (mirroring : Mirroring) :
    Bus.Keeps (MadeOf prgRom chrRom size mirroring) where
  read _ made := made
  write {board} a v made := by
    obtain ⟨prgRam, changed, same⟩ := board.exists_prgRam_write a v
    show MadeOf prgRom chrRom size mirroring (board.write a v).2
    rw [changed]
    exact ⟨made.prgRom, made.chrRom, same.trans made.size, made.mirroring⟩

theorem madeOf_fitted (prgRom chrRom : Array UInt8) (prgRamSize : Nat) (mirroring : Mirroring) :
    MadeOf prgRom chrRom (min prgRamSize 0x2000) mirroring
      (fitted prgRom chrRom prgRamSize mirroring) :=
  ⟨rfl, rfl, Array.size_replicate, rfl⟩

theorem peek_fitted (prgRom chrRom : Array UInt8) (prgRamSize : Nat) (mirroring : Mirroring)
    {a : UInt16} (window : 0x6000 ≤ a ∧ a < 0x8000) :
    (fitted prgRom chrRom prgRamSize mirroring).peek a = 0 := by
  rw [peek_of_ram _ window, byteAt, fitted, Array.getD_eq_getD_getElem?, Array.getElem?_replicate]
  split <;> rfl

theorem MadeOf.peek_of_rom {prgRom chrRom : Array UInt8} {size : Nat} {mirroring : Mirroring}
    {board : Nrom} (made : MadeOf prgRom chrRom size mirroring board) {a : UInt16}
    (rom : 0x8000 ≤ a) : (prgRom = #[] → board.peek a = 0) ∧
      (prgRom ≠ #[] →
        prgRom[(a.toNat - 0x8000) % prgRom.size]? = some (board.peek a)) := by
  rw [Nrom.peek_of_rom _ rom, made.prgRom, byteAt]
  constructor
  · rintro rfl
    exact dif_neg (Nat.not_lt_zero _)
  · intro nonempty
    have inside := Nat.mod_lt (a.toNat - 0x8000) (Array.size_pos_iff.mpr nonempty)
    simp [Array.getD_eq_getD_getElem?, inside]

/-- Whatever the sizes of its memories are and whatever is called, a board takes bytes in the
window of its RAM if it has any, shows there the byte last taken at an address that shares it,
and repeats its ROM throughout the window above; nothing else on it ever changes. -/
theorem memory_of_calls (prgRom chrRom : Array UInt8) (prgRamSize : Nat) (mirroring : Mirroring)
    (calls : List BoardCall) :
    let size := min prgRamSize 0x2000
    let board := (fitted prgRom chrRom prgRamSize mirroring).afterCalls calls
    (∀ a v, (board.write a v).1 = true ↔ (0x6000 ≤ a ∧ a < 0x8000) ∧ 0 < size) ∧
      (∀ a, 0x6000 ≤ a ∧ a < 0x8000 → board.peek a =
        lastWritten (fun b => Takes size b ∧ SharesByte size b a)
          (calls.filterMap BoardCall.request?)) ∧
      (∀ a, 0x8000 ≤ a → (prgRom = #[] → board.peek a = 0) ∧
        (prgRom ≠ #[] → prgRom[(a.toNat - 0x8000) % prgRom.size]? = some (board.peek a))) ∧
      (∀ a < 0x6000, board.peek a = 0) ∧
      (∀ a, board.read a = board.peek a) ∧
      board.chrRom = chrRom ∧ board.mirroring = mirroring := by
  intro size board
  have begun := madeOf_fitted prgRom chrRom prgRamSize mirroring
  have made : MadeOf prgRom chrRom size mirroring board := by
    rw [show board = _ from afterCalls_eq _ calls]
    exact Bus.keeps_serveAll begun _
  refine ⟨?_, ?_, fun a => made.peek_of_rom, fun a low => if_pos low, fun a => rfl, made.chrRom,
    made.mirroring⟩
  · intro a v
    rw [and_assoc, ← made.size]
    by_cases takes : Takes board.prgRam.size a
    · rw [write_of_takes takes]
      exact iff_of_true rfl takes
    · rw [write_of_not_takes takes]
      exact iff_of_false Bool.false_ne_true takes
  · intro a window
    rw [lastWritten, ← peek_fitted prgRom chrRom prgRamSize mirroring window,
      show board = _ from afterCalls_eq _ calls]
    refine Bus.peek_serveAll_of_writes (fun _ _ => rfl) ?_ begun _
    intro board made b v
    have written := board.peek_write window b v
    rwa [made.size] at written

/-- Three bytes of RAM, of which the last is written at its second and its last place. -/
theorem memory_of_calls_three :
    let calls : List BoardCall := [.access (.write 0x6005 0x11), .peek 0x6002,
      .access (.write 0x8002 0x22), .access (.write 0x7FFD 0x33), .access (.read 0x6002)]
    let board := (fitted #[7, 8, 9, 10, 11] #[1] 3 .vertical).afterCalls calls
    (board.write 0x7FFF 0).1 = true ∧ board.peek 0x6002 = 0x33 ∧ board.peek 0x6001 = 0 ∧
      board.peek 0xFFFF = 9 ∧ board.peek 0x5FFF = 0 := by
  intro calls board
  obtain ⟨taken, ram, rom, below, -⟩ := memory_of_calls #[7, 8, 9, 10, 11] #[1] 3 .vertical calls
  refine ⟨(taken 0x7FFF 0).mpr (by decide), ?_, ?_, ?_, below 0x5FFF (by decide)⟩
  · exact (ram 0x6002 (by decide)).trans (by decide)
  · exact (ram 0x6001 (by decide)).trans (by decide)
  · exact Option.some.inj (((rom 0xFFFF (by decide)).2 (by decide)).symm.trans (by decide))

end Nrom
end NesMachine
