import NesMachine.Proofs.Processor.CycleAccounting

/-!
# Effective addresses

Where each addressing mode finds its operand, in numbers: which sums wrap around at 256 and
which at 65536, and where the two bytes of a pointer lie. Finding the operand steps over the
operand bytes and takes the time of the mode, and that is all it does to a machine.
-/
namespace NesMachine

namespace FlatMemory

/-- The byte at an address, where the first address follows the last one. -/
def byteAt (memory : FlatMemory) (address : Nat) : Nat :=
  (memory.get (UInt16.ofNat address)).toNat

/-- The word whose bytes lie at two addresses, the low one first. -/
def wordAt (memory : FlatMemory) (low high : Nat) : Nat :=
  memory.byteAt low + 256 * memory.byteAt high

variable (memory : FlatMemory)

theorem byteAt_of_eq {address : Nat} {a : UInt16} (same : UInt16.ofNat address = a) :
    memory.byteAt address = (memory.get a).toNat := by
  rw [byteAt, same]

theorem wordAt_of_eq {low high : Nat} {a b : UInt16} (lowSame : UInt16.ofNat low = a)
    (highSame : UInt16.ofNat high = b) :
    memory.wordAt low high = (wordOf (memory.get a) (memory.get b)).toNat := by
  rw [wordAt, memory.byteAt_of_eq lowSame, memory.byteAt_of_eq highSame, toNat_wordOf]
  omega

end FlatMemory

/-- The number that a byte stands for if its highest bit is a sign. -/
def signed (byte : Nat) : Int := if byte < 128 then byte else byte - 256

/-- Whether adding an index takes an address to another page. -/
def LeavesPage (base index : Nat) : Prop := (base + index) % 65536 / 256 ≠ base / 256

instance (base index : Nat) : Decidable (LeavesPage base index) :=
  inferInstanceAs (Decidable (_ ≠ _))

def Operand.ofAddress (address : Nat) : Operand := .memory (UInt16.ofNat address)

namespace Mode

section

variable (memory : FlatMemory) (r : Registers)

/-- The byte at the program counter. -/
def nextByte : Nat := memory.byteAt r.pc.toNat

/-- The word at the program counter. -/
def nextWord : Nat := memory.wordAt r.pc.toNat (r.pc.toNat + 1)

/-- The word in page zero at the address in the next byte. -/
def pointedWord : Nat := memory.wordAt (nextByte memory r) ((nextByte memory r + 1) % 256)

/-- The operand of a mode; the program counter is at the byte after the opcode. -/
def effectiveOperand : Mode → Operand
  | .implied => .implied
  | .accumulator => .accumulator
  | .immediate => .memory r.pc
  | .zeroPage => .ofAddress (nextByte memory r)
  | .zeroPageX => .ofAddress ((nextByte memory r + r.x.toNat) % 256)
  | .zeroPageY => .ofAddress ((nextByte memory r + r.y.toNat) % 256)
  | .absolute => .ofAddress (nextWord memory r)
  | .absoluteX => .ofAddress ((nextWord memory r + r.x.toNat) % 65536)
  | .absoluteY => .ofAddress ((nextWord memory r + r.y.toNat) % 65536)
  | .indirect =>
    let pointer := nextWord memory r
    .ofAddress (memory.wordAt pointer (pointer / 256 * 256 + (pointer + 1) % 256))
  | .indexedIndirect =>
    let pointer := nextByte memory r + r.x.toNat
    .ofAddress (memory.wordAt (pointer % 256) ((pointer + 1) % 256))
  | .indirectIndexed => .ofAddress ((pointedWord memory r + r.y.toNat) % 65536)
  | .relative => .ofAddress ((r.pc.toNat + 1 + signed (nextByte memory r)) % 65536).toNat

/-- The cycle that a mode waits for a carry into the high byte of an indexed address. -/
def carryTime (access : Access) : Mode → Nat
  | .absoluteX => wait (nextWord memory r) r.x.toNat
  | .absoluteY => wait (nextWord memory r) r.y.toNat
  | .indirectIndexed => wait (pointedWord memory r) r.y.toNat
  | _ => 0
where
  wait (base index : Nat) : Nat := if access ≠ .read ∨ LeavesPage base index then 1 else 0

theorem ofNat_toNat_eq_zeroPageAddress (b : UInt8) : UInt16.ofNat b.toNat = zeroPageAddress b :=
  UInt16.ofNat_uInt8ToNat b

theorem nextByte_eq : nextByte memory r = (memory.get r.pc).toNat :=
  memory.byteAt_of_eq UInt16.ofNat_toNat

theorem nextWord_eq : nextWord memory r = (Bus.peekWord memory.get r.pc).toNat := by
  refine memory.wordAt_of_eq UInt16.ofNat_toNat ?_
  rw [UInt16.ofNat_add, UInt16.ofNat_toNat]
  rfl

/-- Two neighbours in page zero that are named by sums wrapping around at 256. -/
theorem wordAt_zeroPage (pointer : UInt8) {n : Nat} (named : n % 256 = pointer.toNat) :
    memory.wordAt (n % 256) ((n + 1) % 256) =
      (Bus.peekZeroPageWord memory.get pointer).toNat := by
  refine memory.wordAt_of_eq ?_ ?_
  · rw [named, ofNat_toNat_eq_zeroPageAddress]
  · have next : (n + 1) % 256 = (pointer + 1).toNat := by
      rw [UInt8.toNat_add, ← named]
      simp
    rw [next, ofNat_toNat_eq_zeroPageAddress]

theorem pointedWord_eq : pointedWord memory r =
    (Bus.peekZeroPageWord memory.get (memory.get r.pc)).toNat := by
  have small : nextByte memory r % 256 = (memory.get r.pc).toNat := by
    have := (memory.get r.pc).toNat_lt
    rw [nextByte_eq]
    omega
  rw [← wordAt_zeroPage memory _ small, small, ← nextByte_eq]
  rfl

end
end Mode

theorem Operand.memory_eq_ofAddress {a : UInt16} {address : Nat} (same : address = a.toNat) :
    Operand.memory a = .ofAddress address := by
  rw [ofAddress, same, UInt16.ofNat_toNat]

theorem toNat_add_index (base : UInt16) (index : UInt8) :
    (base.toNat + index.toNat) % 65536 = (base + index.toUInt16).toNat := by
  rw [UInt16.toNat_add, UInt8.toNat_toUInt16]

theorem toNat_displaced (a : UInt16) (offset : UInt8) :
    ((a.toNat + signed offset.toNat) % 65536).toNat = (displaced a offset).toNat := by
  have := a.toNat_lt
  have := offset.toNat_lt
  have sign : offset < 0x80 ↔ offset.toNat < 128 := UInt8.lt_iff_toNat_lt
  unfold signed displaced
  by_cases positive : offset.toNat < 128
  · rw [if_pos positive, if_pos (sign.mpr positive), UInt16.toNat_add, UInt8.toNat_toUInt16]
    omega
  · rw [if_neg positive, if_neg (mt sign.mp positive), UInt16.toNat_sub, UInt16.toNat_add,
      UInt8.toNat_toUInt16]
    simp only [UInt16.reduceToNat]
    omega

theorem toNat_nextInPage (a : UInt16) :
    a.toNat / 256 * 256 + (a.toNat + 1) % 256 = (nextInPage a).toNat := by
  simp [nextInPage]

theorem leavesPage_iff (base : UInt16) (index : UInt8) :
    LeavesPage base.toNat index.toNat ↔ pageCrossed base (base + index.toUInt16) = true := by
  have bytes : pageCrossed base (base + index.toUInt16) = true ↔
      (highByte base).toNat ≠ (highByte (base + index.toUInt16)).toNat := by
    rw [ne_eq, UInt8.toNat_inj]
    simp [pageCrossed]
  rw [bytes, LeavesPage, toNat_add_index, toNat_highByte, toNat_highByte]
  exact ne_comm

namespace Mode

variable (memory : FlatMemory) (r : Registers)

/-- The place told from words and bytes is the one told in numbers. -/
theorem operand_eq_effectiveOperand (mode : Mode) :
    mode.operand memory.get r r.pc = mode.effectiveOperand memory r := by
  cases mode with
  | implied | accumulator | immediate => rfl
  | zeroPage =>
    refine Operand.memory_eq_ofAddress ?_
    rw [nextByte_eq, zeroPageAddress, UInt8.toNat_toUInt16]
  | zeroPageX | zeroPageY =>
    refine Operand.memory_eq_ofAddress ?_
    rw [nextByte_eq, zeroPageAddress, UInt8.toNat_toUInt16, UInt8.toNat_add]
  | absolute => exact Operand.memory_eq_ofAddress (nextWord_eq memory r)
  | absoluteX | absoluteY =>
    refine Operand.memory_eq_ofAddress ?_
    rw [nextWord_eq, toNat_add_index]
  | indirect =>
    refine Operand.memory_eq_ofAddress ?_
    rw [nextWord_eq, toNat_nextInPage]
    exact memory.wordAt_of_eq UInt16.ofNat_toNat UInt16.ofNat_toNat
  | indexedIndirect =>
    refine Operand.memory_eq_ofAddress ?_
    rw [nextByte_eq]
    exact wordAt_zeroPage memory _ (UInt8.toNat_add (memory.get r.pc) r.x).symm
  | indirectIndexed =>
    refine Operand.memory_eq_ofAddress ?_
    rw [pointedWord_eq, toNat_add_index]
  | relative =>
    refine Operand.memory_eq_ofAddress ?_
    have following : (r.pc.toNat + 1 + signed (memory.get r.pc).toNat) % 65536 =
        ((r.pc + 1).toNat + signed (memory.get r.pc).toNat) % 65536 := by
      rw [UInt16.toNat_add]
      simp only [UInt16.reduceToNat]
      omega
    rw [nextByte_eq, following, toNat_displaced]

theorem carryIdle_eq_carryTime (access : Access) (mode : Mode) :
    mode.carryIdle memory.get r r.pc access = mode.carryTime memory r access := by
  cases mode with
  | absoluteX | absoluteY =>
    simp [carryIdle, indexing, carryTime, carryTime.wait, nextWord_eq, leavesPage_iff]
  | indirectIndexed =>
    simp [carryIdle, indexing, carryTime, carryTime.wait, pointedWord_eq, leavesPage_iff]
  | _ => rfl

/-- Reads leave a flat memory as it is, and finding an operand only reads. -/
theorem serveAll_effect_requests (view : View) (start : UInt16) (access : Access) (mode : Mode) :
    Bus.serveAll memory (mode.effect view r start access).requests = memory := by
  cases mode <;> rfl

end Mode

/-- Finding an operand gives the place that the mode names, and does nothing to the machine
but to step over the operand bytes and to take the time of the mode, with a cycle more
where an indexed address needs a carry or the instruction writes. -/
theorem Machine.operand_of_resolve (m : Machine FlatMemory) (mode : Mode) (access : Access) :
    let r := m.cpu.registers
    m.resolve mode access = (mode.effectiveOperand m.bus r,
      { m with cpu := { m.cpu with
          registers := { r with pc := r.pc + UInt16.ofNat (mode.size - 1) }
          cycles := m.cpu.cycles + mode.cycles + mode.carryTime m.bus r access } }) := by
  intro r
  have place : mode.operand m.bus.get r r.pc = mode.effectiveOperand m.bus r :=
    Mode.operand_eq_effectiveOperand m.bus r mode
  have time : m.cpu.cycles + (mode.effect m.bus.get r r.pc access).cycles =
      m.cpu.cycles + mode.cycles + mode.carryTime m.bus r access := by
    rw [Mode.cycles_effect, Mode.carryIdle_eq_carryTime, Nat.add_assoc]
  have kept : Bus.serveAll m.bus (mode.effect m.bus.get r r.pc access).requests = m.bus :=
    Mode.serveAll_effect_requests m.bus r m.bus.get r.pc access mode
  have running : (m.cpu.halted || (mode.effect m.bus.get r r.pc access).jams) = m.cpu.halted :=
    Bool.or_false _
  rw [resolve_eq]
  refine Prod.ext place ?_
  show Machine.mk { m.cpu with
      registers := (mode.effect m.bus.get r r.pc access).registers
      cycles := m.cpu.cycles + (mode.effect m.bus.get r r.pc access).cycles
      halted := m.cpu.halted || (mode.effect m.bus.get r r.pc access).jams }
    (Bus.serveAll m.bus (mode.effect m.bus.get r r.pc access).requests) = _
  rw [time, kept, running, Mode.registers_effect, Mode.afterOperand]

end NesMachine
