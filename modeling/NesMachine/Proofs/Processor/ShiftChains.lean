import Mathlib.Data.Set.Defs
import Mathlib.Tactic.LinearCombination
import NesMachine.Proofs.LittleEndian
import NesMachine.Proofs.Processor.IntegerArithmetic

/-!
# Shifts of several bytes

Numbers of any width are shifted by a bit in place, a byte at a time, from the lowest byte up or
from the highest byte down. The bit that leaves a byte waits in the carry until it enters the next
one. The accumulator is shifted as the bytes in memory are.
-/
namespace NesMachine

inductive Direction where
  | left
  | right
  deriving DecidableEq, Repr

namespace Direction

/-- Bytes listed from the lowest up, put in the order in which they are shifted; and back. -/
def order {α : Type} : Direction → List α → List α
  | left, list => list
  | right, list => list.reverse

@[simp] theorem order_order {α : Type} (direction : Direction) (list : List α) :
    direction.order (direction.order list) = list := by
  cases direction <;> simp [order]

theorem map_order {α β : Type} (direction : Direction) (f : α → β) (list : List α) :
    (direction.order list).map f = direction.order (list.map f) := by
  cases direction <;> simp [order]

@[simp] theorem mem_order {α : Type} {direction : Direction} {x : α} {list : List α} :
    x ∈ direction.order list ↔ x ∈ list := by
  cases direction <;> simp [order]

@[simp] theorem nodup_order {α : Type} {direction : Direction} {list : List α} :
    (direction.order list).Nodup ↔ list.Nodup := by
  cases direction <;> simp [order, List.pairwise_reverse, List.Nodup, eq_comm]

@[simp] theorem length_order {α : Type} (direction : Direction) (list : List α) :
    (direction.order list).length = list.length := by
  cases direction <;> simp [order]

@[simp] theorem order_eq_nil {α : Type} {direction : Direction} {list : List α} :
    direction.order list = [] ↔ list = [] := by
  cases direction <;> simp [order]

/-- A number of some width has moved by a bit: a bit has entered at one end, and the bit at the
other end has left. -/
def Moves (direction : Direction) (width number : Nat) (entering : Bool) (number' : Nat)
    (leaving : Bool) : Prop :=
  match direction with
  | left => number' + 256 ^ width * leaving.toNat = 2 * number + entering.toNat
  | right => 2 * number' + leaving.toNat = number + 256 ^ width * entering.toNat

/-- A byte moves, and the bit that leaves it enters the bytes beyond. -/
theorem Moves.cons {direction : Direction} {byte byte' : UInt8} {entering between leaving : Bool}
    {bytes bytes' : List UInt8} (length : bytes'.length = bytes.length)
    (one : direction.Moves 1 byte.toNat entering byte'.toNat between)
    (others : direction.Moves bytes.length (numberOf (direction.order bytes)) between
      (numberOf (direction.order bytes')) leaving) :
    direction.Moves (byte :: bytes).length (numberOf (direction.order (byte :: bytes))) entering
      (numberOf (direction.order (byte' :: bytes'))) leaving := by
  cases direction with
  | left =>
    simp only [Moves, order, numberOf_cons, List.length_cons, pow_succ] at one others ⊢
    linear_combination 256 * others + one
  | right =>
    simp only [Moves, order, List.reverse_cons, numberOf_append, numberOf_cons, numberOf_nil,
      List.length_cons, List.length_reverse, length, pow_succ] at one others ⊢
    linear_combination others + 256 ^ bytes.length * one

end Direction

/-- The four ways to shift a byte: by a bit in one direction, where the carry may enter. -/
structure Shift where
  direction : Direction
  rotating : Bool
  deriving DecidableEq, Repr

namespace Shift

def mnemonic : Shift → Mnemonic
  | ⟨.left, false⟩ => .asl
  | ⟨.left, true⟩ => .rol
  | ⟨.right, false⟩ => .lsr
  | ⟨.right, true⟩ => .ror

/-- The bit that enters a byte. -/
def entering (shift : Shift) (carry : Bool) : Bool := shift.rotating && carry

/-- The bit that leaves a byte. -/
def leaving (shift : Shift) (byte : UInt8) : Bool :=
  match shift.direction with
  | .left => byte &&& 0x80 != 0
  | .right => byte &&& 0x01 != 0

/-- The byte that is left when a bit has entered. -/
def result (shift : Shift) (byte : UInt8) (entering : Bool) : UInt8 :=
  match shift.direction with
  | .left => byte <<< 1 ||| (if entering then 0x01 else 0)
  | .right => byte >>> 1 ||| (if entering then 0x80 else 0)

/-- What a shift does to the registers and to a byte. -/
def change (shift : Shift) (r : Registers) (byte : UInt8) : UInt8 × Registers :=
  r.shifted (shift.leaving byte) (shift.result byte (shift.entering r.p.carry))

theorem action_mnemonic (shift : Shift) :
    shift.mnemonic.action = .modify shift.change fun r _ => r := by
  obtain ⟨direction, rotating⟩ := shift
  cases direction <;> cases rotating <;>
    simp [mnemonic, Mnemonic.action, funext_iff, change, leaving, result, entering,
      Registers.shiftLeft, Registers.shiftRight, Registers.rotateLeft, Registers.rotateRight]

/-- To the left, the highest bit is lost and the lowest one is free. -/
theorem toNat_shiftLeft_or (byte : UInt8) (entering : Bool) :
    (byte <<< 1 ||| (if entering then 0x01 else 0)).toNat =
      2 * (byte.toNat % 128) + entering.toNat := by
  have even : byte.toNat * 2 % 256 = 2 ^ 1 * (byte.toNat % 128) := by omega
  cases entering with
  | false => simpa [Nat.shiftLeft_eq] using even
  | true =>
    have joined := Nat.two_pow_add_eq_or_of_lt (i := 1) (b := 1) (by decide) (byte.toNat % 128)
    simpa [Nat.shiftLeft_eq, even] using joined.symm

/-- To the right, the lowest bit is lost and the highest one is free. -/
theorem toNat_shiftRight_or (byte : UInt8) (entering : Bool) :
    (byte >>> 1 ||| (if entering then 0x80 else 0)).toNat =
      byte.toNat / 2 + 128 * entering.toNat := by
  have small := byte.toNat_lt
  cases entering with
  | false => simp [Nat.shiftRight_eq_div_pow]
  | true =>
    have joined := Nat.two_pow_add_eq_or_of_lt (i := 7) (b := byte.toNat / 2) (by omega) 1
    simpa [Nat.shiftRight_eq_div_pow, Nat.or_comm, Nat.add_comm] using joined.symm

/-- A shift moves the one byte it is done to. -/
theorem moves (shift : Shift) (byte : UInt8) (entering : Bool) :
    shift.direction.Moves 1 byte.toNat entering (shift.result byte entering).toNat
      (shift.leaving byte) := by
  obtain ⟨direction, rotating⟩ := shift
  have small := byte.toNat_lt
  cases direction with
  | left =>
    have out : (byte &&& 0x80 != 0) = byte.toNat.testBit 7 := Registers.and_bne_zero byte 7 rfl
    simp only [Direction.Moves, result, leaving, out, toNat_shiftLeft_or, Nat.toNat_testBit]
    omega
  | right =>
    have out : (byte &&& 0x01 != 0) = byte.toNat.testBit 0 := Registers.and_bne_zero byte 0 rfl
    simp only [Direction.Moves, result, leaving, out, toNat_shiftRight_or, Nat.toNat_testBit]
    omega

end Shift

/-- The first byte is shifted and the others are rotated, each taking in what left the one before
it. -/
def Direction.along (direction : Direction) : Bool → List UInt16 → List (Shift × UInt16)
  | _, [] => []
  | rotating, address :: rest => (⟨direction, rotating⟩, address) :: direction.along true rest

theorem Direction.snd_mem_of_mem_along {direction : Direction} {rotating : Bool}
    {addresses : List UInt16} {entry : Shift × UInt16}
    (h : entry ∈ direction.along rotating addresses) : entry.2 ∈ addresses := by
  induction addresses generalizing rotating with
  | nil => cases h
  | cons address rest ih =>
    rcases List.mem_cons.mp h with rfl | later
    · exact List.mem_cons_self
    · exact List.mem_cons_of_mem _ (ih later)

namespace Machine

/-- The bytes at some addresses. -/
def bytesAt (m : Machine FlatMemory) (addresses : List UInt16) : List UInt8 :=
  addresses.map m.bus.get

theorem length_bytesAt (m : Machine FlatMemory) (addresses : List UInt16) :
    (m.bytesAt addresses).length = addresses.length := List.length_map _

/-- Bytes in memory shifted one after the other. Machines that differ follow each other where
something else is done in between, which must touch neither the carry nor a byte that is watched. -/
inductive ShiftChain (watched : Set UInt16) :
    List (Shift × UInt16) → Machine FlatMemory → Machine FlatMemory → Prop where
  | nil (m : Machine FlatMemory) : ShiftChain watched [] m m
  | cons {m before after m' : Machine FlatMemory} {shift : Shift} {address : UInt16}
      {rest : List (Shift × UInt16)}
      (carry : before.cpu.registers.p.carry = m.cpu.registers.p.carry)
      (kept : ∀ x ∈ watched, before.bus.get x = m.bus.get x)
      (shifted : Executes shift.mnemonic (.memory address) before after)
      (others : ShiftChain watched rest after m') :
    ShiftChain watched ((shift, address) :: rest) m m'

namespace Executes

variable {shift : Shift} {m m' : Machine FlatMemory}

theorem shift_memory {address : UInt16} (h : Executes shift.mnemonic (.memory address) m m') :
    let r := m.cpu.registers
    let byte := m.bus.get address
    let result := shift.result byte (shift.entering r.p.carry)
    m'.bus.get address = result ∧ (∀ other, other ≠ address → m'.bus.get other = m.bus.get other) ∧
      m'.cpu.registers.p = { r.p with carry := shift.leaving byte }.withResult result ∧
      m'.cpu.registers.a = r.a := by
  intro r byte result
  obtain ⟨pc, registers, bus⟩ := h.modify shift.action_mnemonic
  refine ⟨?_, fun other apart => ?_, ?_, ?_⟩
  · rw [bus, FlatMemory.get_set, if_pos rfl]
    rfl
  · rw [bus, FlatMemory.get_set, if_neg apart.symm, FlatMemory.get_set, if_neg apart.symm]
  · rw [registers]
    rfl
  · rw [registers]
    rfl

theorem shift_accumulator (h : Executes shift.mnemonic .accumulator m m') :
    let r := m.cpu.registers
    let result := shift.result r.a (shift.entering r.p.carry)
    m'.bus = m.bus ∧ m'.cpu.registers.a = result ∧
      m'.cpu.registers.p = { r.p with carry := shift.leaving r.a }.withResult result := by
  intro r result
  obtain ⟨bus, pc, registers⟩ := h.modify_accumulator shift.action_mnemonic
  refine ⟨bus, ?_, ?_⟩
  · rw [registers]
    rfl
  · rw [registers]
    rfl

end Executes

namespace ShiftChain

variable {watched : Set UInt16} {m m' : Machine FlatMemory}

theorem exists_chain (watched : Set UInt16) (shifts : List (Shift × UInt16))
    (m : Machine FlatMemory) : ∃ m', ShiftChain watched shifts m m' := by
  induction shifts generalizing m with
  | nil => exact ⟨m, .nil m⟩
  | cons entry rest ih =>
    obtain ⟨m', others⟩ := ih _
    exact ⟨m', .cons rfl (fun _ _ => rfl) (.alone m) others⟩

section

variable {before after : Machine FlatMemory} {shift : Shift} {address : UInt16}

/-- One shift of a chain, which leaves every other byte that is watched. -/
theorem get_of_link (kept : ∀ x ∈ watched, before.bus.get x = m.bus.get x)
    (shifted : Executes shift.mnemonic (.memory address) before after) {x : UInt16}
    (seen : x ∈ watched) (apart : x ≠ address) : after.bus.get x = m.bus.get x := by
  obtain ⟨-, elsewhere, -⟩ := shifted.shift_memory
  rw [elsewhere x apart, kept x seen]

/-- One shift of a chain, which takes in the carry from before and gives its own to the next. -/
theorem moves_of_link (carry : before.cpu.registers.p.carry = m.cpu.registers.p.carry)
    (kept : ∀ x ∈ watched, before.bus.get x = m.bus.get x)
    (shifted : Executes shift.mnemonic (.memory address) before after)
    (seen : address ∈ watched) :
    shift.direction.Moves 1 (m.bus.get address).toNat (shift.entering m.cpu.registers.p.carry)
      (after.bus.get address).toNat after.cpu.registers.p.carry := by
  obtain ⟨result, -, flags, -⟩ := shifted.shift_memory
  rw [kept address seen] at result flags
  have out : after.cpu.registers.p.carry = shift.leaving (m.bus.get address) := by
    rw [flags]
    rfl
  rw [result, out, carry]
  exact shift.moves _ _

end

/-- A byte that is watched and not shifted stays. -/
theorem get_eq {shifts : List (Shift × UInt16)} (chain : ShiftChain watched shifts m m')
    {x : UInt16} (seen : x ∈ watched) (apart : ∀ entry ∈ shifts, entry.2 ≠ x) :
    m'.bus.get x = m.bus.get x := by
  induction chain with
  | nil => rfl
  | cons _ kept shifted _ ih =>
    rw [ih fun entry later => apart entry (List.mem_cons_of_mem _ later)]
    exact get_of_link kept shifted seen (apart _ List.mem_cons_self).symm

theorem append {first second : List (Shift × UInt16)}
    (chain : ShiftChain watched (first ++ second) m m') :
    ∃ k, ShiftChain watched first m k ∧ ShiftChain watched second k m' := by
  induction first generalizing m with
  | nil => exact ⟨m, .nil m, chain⟩
  | cons entry rest ih =>
    cases chain with
    | cons carry kept shifted others =>
      obtain ⟨k, before, after⟩ := ih others
      exact ⟨k, .cons carry kept shifted before, after⟩

/-- The bytes that a chain visits move together, as one number. -/
theorem moves_along {direction : Direction} {rotating : Bool} {visited : List UInt16}
    (chain : ShiftChain watched (direction.along rotating visited) m m')
    (distinct : visited.Nodup) (inside : ∀ address ∈ visited, address ∈ watched)
    (begun : rotating = true ∨ visited ≠ []) :
    direction.Moves visited.length (numberOf (direction.order (m.bytesAt visited)))
      (Shift.entering ⟨direction, rotating⟩ m.cpu.registers.p.carry)
      (numberOf (direction.order (m'.bytesAt visited))) m'.cpu.registers.p.carry := by
  induction visited generalizing rotating m with
  | nil =>
    obtain rfl : rotating = true := begun.resolve_right fun h => h rfl
    cases chain
    cases direction <;> simp [Direction.Moves, Direction.order, bytesAt, Shift.entering]
  | cons address rest ih =>
    obtain ⟨new, distinct⟩ := List.nodup_cons.mp distinct
    cases chain with
    | @cons _ before after _ _ _ _ carry kept shifted others =>
      have seen := inside address List.mem_cons_self
      have inside : ∀ x ∈ rest, x ∈ watched := fun x listed =>
        inside x (List.mem_cons_of_mem _ listed)
      have later : after.bytesAt rest = m.bytesAt rest := List.map_congr_left fun x listed =>
        get_of_link kept shifted (inside x listed) (ne_of_mem_of_not_mem listed new)
      have stays : m'.bus.get address = after.bus.get address :=
        others.get_eq seen fun entry listed same =>
          new (same ▸ Direction.snd_mem_of_mem_along listed)
      have one := moves_of_link carry kept shifted seen
      have more := ih others distinct inside (.inl rfl)
      rw [later, ← List.length_map (f := m.bus.get)] at more
      rw [← stays] at one
      have whole := one.cons (by simp [bytesAt]) more
      simpa [bytesAt] using whole

/-- The bytes of a number move, in the order of the direction. -/
theorem moves {direction : Direction} {rotating : Bool} {number : List UInt16}
    (chain : ShiftChain watched (direction.along rotating (direction.order number)) m m')
    (distinct : number.Nodup) (inside : ∀ address ∈ number, address ∈ watched)
    (begun : rotating = true ∨ number ≠ []) :
    direction.Moves number.length (numberOf (m.bytesAt number))
      (Shift.entering ⟨direction, rotating⟩ m.cpu.registers.p.carry)
      (numberOf (m'.bytesAt number)) m'.cpu.registers.p.carry := by
  have moves := chain.moves_along (Direction.nodup_order.mpr distinct)
    (fun x listed => inside x (Direction.mem_order.mp listed))
    (begun.imp_right fun filled => by simpa using filled)
  simpa [bytesAt, Direction.map_order] using moves

end ShiftChain

/-- A number is doubled, as far as there is room for it. -/
structure Doubled (bytes bytes' : List UInt8) (p : Status) : Prop where
  number : numberOf bytes' = 2 * numberOf bytes % 256 ^ bytes.length
  carry : p.carry = topBit bytes

/-- A number is halved, and its lowest bit is what remains. -/
structure Halved (bytes bytes' : List UInt8) (p : Status) : Prop where
  number : numberOf bytes' = numberOf bytes / 2
  carry : p.carry = (numberOf bytes).testBit 0

/-- A shift of the accumulator, from `m` to `m'`, is one of a byte in memory, from `k` to `k'`. -/
structure ShiftsAlike (address : UInt16) (m m' k k' : Machine FlatMemory) : Prop where
  byte : m'.cpu.registers.a = k'.bus.get address
  flags : let p' := k'.cpu.registers.p
    m'.cpu.registers.p = { m.cpu.registers.p with
      carry := p'.carry, zero := p'.zero, negative := p'.negative }
  flags' : let p' := m'.cpu.registers.p
    k'.cpu.registers.p = { k.cpu.registers.p with
      carry := p'.carry, zero := p'.zero, negative := p'.negative }
  memory : m'.bus = m.bus
  accumulator : k'.cpu.registers.a = k.cpu.registers.a

namespace ShiftChain

variable {watched : Set UInt16} {m m' : Machine FlatMemory} {number : List UInt16}

theorem doubled (chain : ShiftChain watched (Direction.left.along false number) m m')
    (distinct : number.Nodup) (inside : ∀ address ∈ number, address ∈ watched)
    (nonempty : number ≠ []) :
    Doubled (m.bytesAt number) (m'.bytesAt number) m'.cpu.registers.p := by
  have moves : Direction.left.Moves number.length (numberOf (m.bytesAt number)) false
      (numberOf (m'.bytesAt number)) m'.cpu.registers.p.carry :=
    ShiftChain.moves chain distinct inside (.inr nonempty)
  simp only [Direction.Moves, Bool.toNat_false, add_zero] at moves
  have small := numberOf_lt (m'.bytesAt number)
  have whole : (numberOf (m'.bytesAt number) : Int) + 256 ^ (m'.bytesAt number).length *
      m'.cpu.registers.p.carry.toNat = 2 * numberOf (m.bytesAt number) := by
    rw [length_bytesAt]
    exact_mod_cast moves
  have carry := carry_iff whole
  rw [length_bytesAt] at small carry
  refine ⟨?_, ?_⟩
  · rw [← moves, length_bytesAt, Nat.add_mul_mod_self_left, Nat.mod_eq_of_lt small]
  · rw [Bool.eq_iff_iff, topBit_iff, length_bytesAt]
    exact_mod_cast carry

theorem halved (chain : ShiftChain watched (Direction.right.along false number.reverse) m m')
    (distinct : number.Nodup) (inside : ∀ address ∈ number, address ∈ watched)
    (nonempty : number ≠ []) :
    Halved (m.bytesAt number) (m'.bytesAt number) m'.cpu.registers.p := by
  have moves : Direction.right.Moves number.length (numberOf (m.bytesAt number)) false
      (numberOf (m'.bytesAt number)) m'.cpu.registers.p.carry :=
    ShiftChain.moves chain distinct inside (.inr nonempty)
  simp only [Direction.Moves, Bool.toNat_false, mul_zero, add_zero] at moves
  have bit := m'.cpu.registers.p.carry.toNat_le
  refine ⟨by omega, ?_⟩
  rw [Nat.testBit_zero, ← moves]
  cases m'.cpu.registers.p.carry <;> simp [Nat.add_mod]

/-- What is rotated to the left and back comes back, with the carry. -/
theorem restored (chain : ShiftChain watched (Direction.left.along true number ++
      Direction.right.along true number.reverse) m m')
    (distinct : number.Nodup) (inside : ∀ address ∈ number, address ∈ watched) :
    m'.bytesAt number = m.bytesAt number ∧
      m'.cpu.registers.p.carry = m.cpu.registers.p.carry := by
  obtain ⟨k, there, back⟩ := chain.append
  have there : Direction.left.Moves number.length (numberOf (m.bytesAt number))
      m.cpu.registers.p.carry (numberOf (k.bytesAt number)) k.cpu.registers.p.carry :=
    ShiftChain.moves there distinct inside (.inl rfl)
  have back : Direction.right.Moves number.length (numberOf (k.bytesAt number))
      k.cpu.registers.p.carry (numberOf (m'.bytesAt number)) m'.cpu.registers.p.carry :=
    ShiftChain.moves back distinct inside (.inl rfl)
  have whole : 2 * numberOf (m'.bytesAt number) + m'.cpu.registers.p.carry.toNat =
      2 * numberOf (m.bytesAt number) + m.cpu.registers.p.carry.toNat := Eq.trans back there
  have bit := m.cpu.registers.p.carry.toNat_le
  have bit' := m'.cpu.registers.p.carry.toNat_le
  have carry : m'.cpu.registers.p.carry.toNat = m.cpu.registers.p.carry.toNat := by omega
  refine ⟨eq_of_numberOf_eq (by simp only [length_bytesAt]) (by omega), ?_⟩
  exact Function.LeftInverse.injective Bool.ofNat_toNat carry

end ShiftChain

theorem shiftsAlike_of_executes {shift : Shift} {address : UInt16} {m m' k k' : Machine FlatMemory}
    (first : Executes shift.mnemonic .accumulator m m')
    (second : Executes shift.mnemonic (.memory address) k k')
    (byte : m.cpu.registers.a = k.bus.get address)
    (carry : m.cpu.registers.p.carry = k.cpu.registers.p.carry) :
    ShiftsAlike address m m' k k' := by
  obtain ⟨memory, result, flags⟩ := first.shift_accumulator
  obtain ⟨result', -, flags', accumulator⟩ := second.shift_memory
  rw [byte, carry] at result flags
  refine ⟨result.trans result'.symm, ?_, ?_, memory, accumulator⟩
  · simp [flags, flags', Status.withResult]
  · simp [flags, flags', Status.withResult]

/-- A number of any width, wherever its bytes are, is shifted by shifting its bytes one after the
other: doubled from the lowest byte up, halved from the highest byte down, and rotated there and
back again. Nothing else that is watched is touched on the way, and the accumulator is shifted
just as a byte in memory is. -/
theorem shifts_of_chains (number : List UInt16) (distinct : number.Nodup) (nonempty : number ≠ [])
    (watched : Set UInt16) (inside : ∀ address ∈ number, address ∈ watched) :
    (∀ shifts m, ∃ m', ShiftChain watched shifts m m') ∧
    (∀ m m', ShiftChain watched (Direction.left.along false number) m m' →
      Doubled (m.bytesAt number) (m'.bytesAt number) m'.cpu.registers.p) ∧
    (∀ m m', ShiftChain watched (Direction.right.along false number.reverse) m m' →
      Halved (m.bytesAt number) (m'.bytesAt number) m'.cpu.registers.p) ∧
    (∀ m m', ShiftChain watched
        (Direction.left.along true number ++ Direction.right.along true number.reverse) m m' →
      m'.bytesAt number = m.bytesAt number ∧
        m'.cpu.registers.p.carry = m.cpu.registers.p.carry) ∧
    (∀ shifts m m', ShiftChain watched shifts m m' → (∀ entry ∈ shifts, entry.2 ∈ number) →
      ∀ x ∈ watched, x ∉ number → m'.bus.get x = m.bus.get x) ∧
    ∀ (shift : Shift) address m m' k k', Executes shift.mnemonic .accumulator m m' →
      Executes shift.mnemonic (.memory address) k k' → m.cpu.registers.a = k.bus.get address →
      m.cpu.registers.p.carry = k.cpu.registers.p.carry → ShiftsAlike address m m' k k' := by
  refine ⟨ShiftChain.exists_chain watched, fun m m' chain => chain.doubled distinct inside nonempty,
    fun m m' chain => chain.halved distinct inside nonempty,
    fun m m' chain => chain.restored distinct inside, ?_,
    fun shift address m m' k k' => shiftsAlike_of_executes⟩
  intro shifts m m' chain named x seen apart
  exact chain.get_eq seen fun entry listed same => apart (same ▸ named entry listed)

/-- The number 0x92B4 in two bytes that are not next to each other, doubled: its highest bit goes
into the carry, and the bit between its bytes goes over from one to the other. -/
theorem shifts_of_chains_word :
    let number : List UInt16 := [0x0010, 0x03FF]
    let memory := (FlatMemory.zero.set 0x0010 0xB4).set 0x03FF 0x92
    let m : Machine FlatMemory :=
      ⟨⟨⟨0x00, 0x00, 0x00, 0xFD, 0x0200, Status.ofByte 0x00⟩, 7, false, none⟩, memory⟩
    let m' := (m.perform (.memory 0x0010) Mnemonic.asl.action).perform (.memory 0x03FF)
      Mnemonic.rol.action
    number.Nodup ∧ number ≠ [] ∧ numberOf (m'.bytesAt number) = 0x2568 ∧
      m'.cpu.registers.p.carry = true := by
  intro number memory m m'
  have distinct : number.Nodup := by decide
  have bytes : m.bytesAt number = [0xB4, 0x92] := by
    simp [bytesAt, number, m, memory, FlatMemory.get_set]
  have chain : ShiftChain Set.univ (Direction.left.along false number) m m' :=
    .cons rfl (fun _ _ => rfl) (.alone m) (.cons rfl (fun _ _ => rfl) (.alone _) (.nil _))
  obtain ⟨-, doubles, -⟩ := shifts_of_chains number distinct (by decide) Set.univ fun _ _ => trivial
  have doubled := doubles m m' chain
  rw [bytes] at doubled
  refine ⟨distinct, by decide, ?_, ?_⟩
  · rw [doubled.number]
    decide
  · rw [doubled.carry, topBit_iff]
    decide

end Machine
end NesMachine
