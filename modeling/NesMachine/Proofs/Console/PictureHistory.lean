import Mathlib.Algebra.Ring.Parity
import Mathlib.Data.List.DropRight
import NesMachine.Proofs.Console.AddressTable

/-!
# What the picture unit remembers

All that the registers of the picture unit show can be told from the calls made on it: the
vertical blank from the number of reads of the status register, the toggle from the writes since
the last of them, and the bytes from the last write to each register and to any.
-/
namespace NesMachine

/-- What the user of the picture unit does with it. -/
inductive PictureCall where
  | read (number : UInt16)
  | peek (number : UInt16)
  | write (number : UInt16) (value : UInt8)
  deriving DecidableEq, Repr

namespace PictureCall

open PictureUnit

def readsStatus : PictureCall → Bool
  | .read number => select number = status
  | .peek _ | .write _ _ => false

/-- Whether one of the two registers is written that share the toggle. -/
def writesPair : PictureCall → Bool
  | .write number _ => select number = scroll ∨ select number = address
  | .read _ | .peek _ => false

/-- The call as a bus sees it, which is not told of peeks. -/
def request? : PictureCall → Option Request
  | .read number => some (.read number)
  | .peek _ => none
  | .write number value => some (.write number value)

/-- The calls since the status register was last read, or all if it never was. -/
def sinceStatus (calls : List PictureCall) : List PictureCall := calls.rtakeWhile (!·.readsStatus)

/-- The byte last written to one of some registers, and zero if there is none. -/
def lastByte (here : Fin 8 → Prop) [DecidablePred here] (calls : List PictureCall) : UInt8 :=
  lastWritten (fun number => here (select number)) (calls.filterMap request?)

variable {here : Fin 8 → Prop} [DecidablePred here]

theorem sinceStatus_concat_of_readsStatus {call : PictureCall} (reads : call.readsStatus = true)
    (calls : List PictureCall) : sinceStatus (calls ++ [call]) = [] :=
  List.rtakeWhile_concat_neg _ _ _ (by simp [reads])

theorem sinceStatus_concat {call : PictureCall} (other : call.readsStatus = false)
    (calls : List PictureCall) : sinceStatus (calls ++ [call]) = sinceStatus calls ++ [call] :=
  List.rtakeWhile_concat_pos _ _ _ (by simp [other])

/-- A call of a kind turns over whether there are an odd number of that kind. -/
theorem odd_countP_concat (kind : PictureCall → Bool) (calls : List PictureCall)
    (call : PictureCall) : Odd ((calls ++ [call]).countP kind) ↔
      if kind call then ¬ Odd (calls.countP kind) else Odd (calls.countP kind) := by
  rw [List.countP_append, List.countP_singleton]
  split
  · exact Nat.odd_add_one
  · rfl

theorem lastByte_concat (calls : List PictureCall) (call : PictureCall) :
    lastByte here (calls ++ [call]) = match call with
      | .write number value => if here (select number) then value else lastByte here calls
      | .read _ | .peek _ => lastByte here calls := by
  cases call with
  | read number => simp [lastByte, lastWritten, request?, Request.writtenAt?]
  | peek number => simp [lastByte, request?, List.filterMap_cons]
  | write number value =>
    by_cases there : here (select number)
    · simp [lastByte, lastWritten, request?, Request.writtenAt?, there]
    · simp [lastByte, lastWritten, request?, Request.writtenAt?, there]

end PictureCall

namespace PictureUnit

open PictureCall (readsStatus writesPair sinceStatus lastByte)

/-- The unit after a call. -/
def call (unit : PictureUnit) : PictureCall → PictureUnit
  | .read number => (unit.read number).2
  | .peek _ => unit
  | .write number value => unit.write number value

def afterCalls (unit : PictureUnit) (calls : List PictureCall) : PictureUnit :=
  calls.foldl call unit

theorem afterCalls_append (unit : PictureUnit) (calls later : List PictureCall) :
    unit.afterCalls (calls ++ later) = (unit.afterCalls calls).afterCalls later :=
  List.foldl_append

/-- What a unit keeps of the calls since it was switched on. -/
structure Remembers (calls : List PictureCall) (unit : PictureUnit) : Prop where
  vblank : unit.vblank = true ↔ Odd (calls.countP readsStatus)
  writeToggle : unit.writeToggle = true ↔ Odd ((sinceStatus calls).countP writesPair)
  byte (register : Fin 8) (other : register ≠ status) :
    unit.registers.get register = lastByte (· = register) calls
  bits : unit.registers.get status &&& 0x1F = lastByte (fun _ => True) calls &&& 0x1F

theorem remembers_powerOn : Remembers [] powerOn where
  vblank := by simp [powerOn]
  writeToggle := by simp [powerOn, sinceStatus]
  byte register _ := by
    show (Vector.replicate 8 0)[register] = 0
    simp
  bits := rfl

theorem registers_read (unit : PictureUnit) (number : UInt16) :
    (unit.read number).2.registers = unit.registers := by
  rw [read]
  split <;> rfl

theorem get_write (unit : PictureUnit) (number : UInt16) (value : UInt8) (register : Fin 8) :
    (unit.write number value).registers.get register =
      if register = status then value &&& 0x1F
      else if select number = register then value else unit.registers.get register := by
  show (unit.write number value).registers[register] =
    if register = status then value &&& 0x1F
    else if select number = register then value else unit.registers[register]
  by_cases first : register = status
  · by_cases there : select number = status
    · simp [write, first, there]
    · have apart : (select number).val ≠ status.val := fun same => there (Fin.ext same)
      simp [write, first, there, Vector.getElem_set_ne _ _ apart]
  · have apart : status.val ≠ register.val := fun same => first (Fin.ext same.symm)
    by_cases there : select number = status
    · have other : ¬ status = register := fun same => first same.symm
      simp [write, first, there, other, Vector.getElem_set_ne _ _ apart]
    · by_cases here : select number = register
      · simp [write, first, here]
      · have beside : (select number).val ≠ register.val := fun same => here (Fin.ext same)
        simp [write, first, there, here, Vector.getElem_set_ne _ _ apart,
          Vector.getElem_set_ne _ _ beside]

section Calls

variable {calls : List PictureCall} {unit : PictureUnit}

theorem Remembers.peek (remembers : Remembers calls unit) (number : UInt16) :
    Remembers (calls ++ [.peek number]) unit where
  vblank := by
    rw [PictureCall.odd_countP_concat]
    exact remembers.vblank
  writeToggle := by
    rw [PictureCall.sinceStatus_concat rfl, PictureCall.odd_countP_concat]
    exact remembers.writeToggle
  byte register other := by
    rw [PictureCall.lastByte_concat]
    exact remembers.byte register other
  bits := by
    rw [PictureCall.lastByte_concat]
    exact remembers.bits

theorem Remembers.read (remembers : Remembers calls unit) (number : UInt16) :
    Remembers (calls ++ [.read number]) (unit.read number).2 where
  vblank := by
    rw [PictureCall.odd_countP_concat, ← remembers.vblank]
    by_cases reads : select number = status <;> simp [PictureUnit.read, readsStatus, reads]
  writeToggle := by
    by_cases reads : select number = status
    · have known : (PictureCall.read number).readsStatus = true := decide_eq_true reads
      rw [PictureCall.sinceStatus_concat_of_readsStatus known]
      simp [PictureUnit.read, reads]
    · have other : (PictureCall.read number).readsStatus = false := decide_eq_false reads
      have same : (unit.read number).2 = unit := if_neg reads
      rw [same, PictureCall.sinceStatus_concat other, PictureCall.odd_countP_concat]
      exact remembers.writeToggle
  byte register other := by
    rw [PictureCall.lastByte_concat, registers_read]
    exact remembers.byte register other
  bits := by
    rw [PictureCall.lastByte_concat, registers_read]
    exact remembers.bits

theorem Remembers.write (remembers : Remembers calls unit) (number : UInt16) (value : UInt8) :
    Remembers (calls ++ [.write number value]) (unit.write number value) where
  vblank := by
    rw [PictureCall.odd_countP_concat]
    exact remembers.vblank
  writeToggle := by
    rw [PictureCall.sinceStatus_concat rfl, PictureCall.odd_countP_concat,
      ← remembers.writeToggle]
    by_cases pair : select number = scroll ∨ select number = address <;>
      simp [PictureUnit.write, writesPair, pair]
  byte register other := by
    rw [PictureCall.lastByte_concat, get_write, if_neg other, remembers.byte register other]
  bits := by
    rw [PictureCall.lastByte_concat, get_write, if_pos rfl, UInt8.and_assoc, UInt8.and_self]
    rfl

end Calls

theorem remembers_afterCalls (calls : List PictureCall) :
    Remembers calls (powerOn.afterCalls calls) := by
  induction calls using List.reverseRecOn with
  | nil => exact remembers_powerOn
  | append_singleton calls call ih =>
    rw [afterCalls_append]
    cases call with
    | read number => exact ih.read number
    | peek number => exact ih.peek number
    | write number value => exact ih.write number value

/-- What the status register shows, in numbers. -/
theorem status_bits (byte : UInt8) (shown : Bool) :
    let value := byte &&& 0x1F ||| if shown then 0x80 else 0
    value.toNat = byte.toNat % 32 + (if shown then 128 else 0) ∧ value &&& 0x60 = 0 ∧
      (value &&& 0x80 ≠ 0 ↔ shown = true) := by
  have all : ∀ (bits : Fin 256) (shown : Bool),
      let value := UInt8.ofNat bits &&& 0x1F ||| if shown then 0x80 else 0
      value.toNat = bits.val % 32 + (if shown then 128 else 0) ∧ value &&& 0x60 = 0 ∧
        (value &&& 0x80 ≠ 0 ↔ shown = true) := by decide +kernel
  have byteOf : UInt8.ofNat byte.toNat = byte := UInt8.ofNat_toNat
  simpa only [byteOf] using all ⟨byte.toNat, byte.toNat_lt⟩ shown

theorem peek_status {number : UInt16} (there : select number = status) {calls : List PictureCall}
    {unit : PictureUnit} (remembers : Remembers calls unit) : unit.peek number =
      lastByte (fun _ => True) calls &&& 0x1F ||| if unit.vblank then 0x80 else 0 := by
  rw [PictureUnit.peek, if_pos there, ← remembers.bits]
  rfl

theorem read_status_bit {number : UInt16} (there : select number = status) (unit : PictureUnit) :
    (unit.read number).1 &&& 0x80 ≠ 0 ↔ unit.vblank = true := by
  show unit.peek number &&& 0x80 ≠ 0 ↔ _
  rw [PictureUnit.peek, if_pos there]
  exact (status_bits _ _).2.2

/-- The registers of the unit show what can be told from the calls since it was switched on. Of two
reads of the status register with no other between them, one shows the vertical blank. -/
theorem shown_of_calls (calls : List PictureCall) :
    let unit := powerOn.afterCalls calls
    (unit.vblank = true ↔ Odd (calls.countP readsStatus)) ∧
      (unit.writeToggle = true ↔ Odd ((sinceStatus calls).countP writesPair)) ∧
      (∀ number, select number ≠ status →
        unit.peek number = lastByte (· = select number) calls) ∧
      (∀ number, select number = status →
        (unit.peek number).toNat =
            (lastByte (fun _ => True) calls).toNat % 32 + (if unit.vblank then 128 else 0) ∧
          unit.peek number &&& 0x60 = 0) ∧
      (∀ number, (unit.read number).1 = unit.peek number) ∧
      ∀ number number' between, select number = status → select number' = status →
        (∀ call ∈ between, call.readsStatus = false) →
        let later := powerOn.afterCalls (calls ++ .read number :: between)
        ((unit.read number).1 &&& 0x80 ≠ 0 ↔ ¬ (later.read number').1 &&& 0x80 ≠ 0) := by
  intro unit
  have remembers : Remembers calls unit := remembers_afterCalls calls
  refine ⟨remembers.vblank, remembers.writeToggle, ?_, ?_, fun number => rfl, ?_⟩
  · intro number other
    rw [peek, if_neg other]
    exact remembers.byte _ other
  · intro number there
    rw [peek_status there remembers]
    obtain ⟨shown, clear, -⟩ := status_bits (lastByte (fun _ => True) calls) unit.vblank
    exact ⟨shown, clear⟩
  · intro number number' between there there' quiet later
    have remembers' : Remembers _ later := remembers_afterCalls _
    have count : (calls ++ .read number :: between).countP readsStatus =
        calls.countP readsStatus + 1 := by
      have none : between.countP readsStatus = 0 :=
        List.countP_eq_zero.mpr fun call among => by simp [quiet call among]
      simp [readsStatus, there, none]
    rw [read_status_bit there, read_status_bit there', remembers.vblank, remembers'.vblank, count,
      Nat.odd_add_one, not_not]

/-- An address that is written by halves around a read of the status register, at mirrors of the
registers. -/
theorem shown_of_calls_mirrored :
    let calls : List PictureCall := [.write 0x2006 0x21, .read 0x2002, .write 0x3FFE 0x80,
      .peek 0x2002, .write 0x2008 0x9A]
    let unit := powerOn.afterCalls calls
    unit.vblank = true ∧ unit.writeToggle = true ∧ unit.peek 0x2006 = 0x80 ∧
      (unit.peek 0x200A).toNat = 26 + 128 ∧
      let later := powerOn.afterCalls (calls ++ .read 0x200A :: [.write 0x2005 0xFF, .peek 0x200A])
      ((unit.read 0x200A).1 &&& 0x80 ≠ 0 ↔ ¬ (later.read 0x2002).1 &&& 0x80 ≠ 0) := by
  intro calls unit
  obtain ⟨vblank, toggle, byte, statusByte, -, turns⟩ := shown_of_calls calls
  have blank : unit.vblank = true := vblank.mpr (by decide)
  refine ⟨blank, toggle.mpr (by decide), ?_, ?_, ?_⟩
  · exact (byte 0x2006 (by decide)).trans (by decide)
  · rw [(statusByte 0x200A (by decide)).1, blank]
    decide
  · exact turns 0x200A 0x2002 [.write 0x2005 0xFF, .peek 0x200A] (by decide) (by decide)
      (by decide)

end PictureUnit
end NesMachine
