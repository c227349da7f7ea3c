import Mathlib.Data.Nat.Bitwise
import NesMachine.Proofs.Processor.Executions

/-!
# Arithmetic in integers

Additions, subtractions, comparisons and bit tests as arithmetic on numbers: bytes are numbers
below 256, or between -128 and 127 when their highest bit is a sign, and the flags tell how the
result that fits into a byte differs from the one that was meant. The byte that counts is the one
at the effective address, whatever the mode; nothing else of the machine has a part in it.
-/
namespace NesMachine

/-- The opcodes that add, subtract, compare or test bits, as the processor's manuals list them. -/
def calculations : List (UInt8 × Mnemonic × Mode) := [
  (0x69, .adc, .immediate), (0x65, .adc, .zeroPage), (0x75, .adc, .zeroPageX),
  (0x6D, .adc, .absolute), (0x7D, .adc, .absoluteX), (0x79, .adc, .absoluteY),
  (0x61, .adc, .indexedIndirect), (0x71, .adc, .indirectIndexed),
  (0xE9, .sbc, .immediate), (0xEB, .sbc, .immediate), (0xE5, .sbc, .zeroPage),
  (0xF5, .sbc, .zeroPageX), (0xED, .sbc, .absolute), (0xFD, .sbc, .absoluteX),
  (0xF9, .sbc, .absoluteY), (0xE1, .sbc, .indexedIndirect), (0xF1, .sbc, .indirectIndexed),
  (0xC9, .cmp, .immediate), (0xC5, .cmp, .zeroPage), (0xD5, .cmp, .zeroPageX),
  (0xCD, .cmp, .absolute), (0xDD, .cmp, .absoluteX), (0xD9, .cmp, .absoluteY),
  (0xC1, .cmp, .indexedIndirect), (0xD1, .cmp, .indirectIndexed),
  (0xE0, .cpx, .immediate), (0xE4, .cpx, .zeroPage), (0xEC, .cpx, .absolute),
  (0xC0, .cpy, .immediate), (0xC4, .cpy, .zeroPage), (0xCC, .cpy, .absolute),
  (0x24, .bit, .zeroPage), (0x2C, .bit, .absolute)]

/-- An opcode is listed with what the matrix has for it, and the list leaves no opcode of these
operations out. -/
theorem mem_calculations_iff (opcode : UInt8) (mnemonic : Mnemonic) (mode : Mode) :
    (opcode, mnemonic, mode) ∈ calculations ↔
      (Instruction.decode opcode).mnemonic = mnemonic ∧ (Instruction.decode opcode).mode = mode ∧
        mnemonic ∈ [Mnemonic.adc, .sbc, .cmp, .cpx, .cpy, .bit] :=
  Instruction.mem_iff_decode (by decide +kernel) (by decide +kernel) opcode mnemonic mode

namespace Registers

/-- What the sum of the accumulator `a`, a byte and the carry leaves. -/
structure Adds (a byte : UInt8) (p : Status) (r' : Registers) : Prop where
  sum : r'.a.toNat = (a.toNat + byte.toNat + p.carry.toNat) % 256
  carry : r'.p.carry = true ↔ 256 ≤ a.toNat + byte.toNat + p.carry.toNat
  overflow : r'.p.overflow = true ↔
    let z := signed a.toNat + signed byte.toNat + p.carry.toNat
    ¬(-128 ≤ z ∧ z ≤ 127)
  zero : r'.p.zero = true ↔ r'.a.toNat = 0
  negative : r'.p.negative = true ↔ 128 ≤ r'.a.toNat

/-- What the accumulator `a` less a byte leaves, less one more where the carry is missing. -/
structure Subtracts (a byte : UInt8) (p : Status) (r' : Registers) : Prop where
  difference : (r'.a.toNat : Int) = ((a.toNat : Int) - byte.toNat - (1 - p.carry.toNat)) % 256
  carry : r'.p.carry = true ↔ byte.toNat + (1 - p.carry.toNat) ≤ a.toNat
  overflow : r'.p.overflow = true ↔
    let z := signed a.toNat - signed byte.toNat - (1 - p.carry.toNat)
    ¬(-128 ≤ z ∧ z ≤ 127)
  zero : r'.p.zero = true ↔ r'.a.toNat = 0
  negative : r'.p.negative = true ↔ 128 ≤ r'.a.toNat

/-- What comparing a register with a byte leaves, where the accumulator is `a`. -/
structure Compares (register byte a : UInt8) (p : Status) (r' : Registers) : Prop where
  carry : r'.p.carry = true ↔ byte.toNat ≤ register.toNat
  zero : r'.p.zero = true ↔ register = byte
  negative : r'.p.negative = true ↔ 128 ≤ ((register.toNat : Int) - byte.toNat) % 256
  overflow : r'.p.overflow = p.overflow
  a : r'.a = a

/-- What testing the bits of a byte leaves, where the accumulator is `a`. -/
structure TestsBits (a byte : UInt8) (p : Status) (r' : Registers) : Prop where
  zero : r'.p.zero = true ↔ a.toNat &&& byte.toNat = 0
  negative : r'.p.negative = byte.toNat.testBit 7
  overflow : r'.p.overflow = byte.toNat.testBit 6
  carry : r'.p.carry = p.carry
  a : r'.a = a

theorem isNegative_eq (byte : UInt8) : isNegative byte = decide (128 ≤ byte.toNat) := by
  rw [isNegative, decide_eq_decide, UInt8.le_iff_toNat_le]
  rfl

theorem toNat_carryIn (r : Registers) : r.carryIn.toNat = r.p.carry.toNat := by
  cases carry : r.p.carry <;> simp [carryIn, carry]

theorem zero_withResult (p : Status) (result : UInt8) :
    (p.withResult result).zero = true ↔ result.toNat = 0 := by
  simp [Status.withResult, ← UInt8.toNat_inj]

theorem negative_withResult (p : Status) (result : UInt8) :
    (p.withResult result).negative = true ↔ 128 ≤ result.toNat := by
  simp [Status.withResult, UInt8.le_iff_toNat_le]

variable (r : Registers) (byte : UInt8)

theorem adds_add : Adds r.a byte r.p (r.add byte) := by
  have a := r.a.toNat_lt
  have b := byte.toNat_lt
  have c := r.p.carry.toNat_le
  have sum : (r.a.toUInt16 + byte.toUInt16 + r.carryIn).toNat =
      r.a.toNat + byte.toNat + r.p.carry.toNat := by
    simp only [UInt16.toNat_add, UInt8.toNat_toUInt16, toNat_carryIn]
    omega
  have result : (r.add byte).a.toNat = (r.a.toNat + byte.toNat + r.p.carry.toNat) % 256 := by
    simp only [add, loadA, UInt16.toNat_toUInt8, sum]
  refine ⟨result, ?_, ?_, zero_withResult _ _, negative_withResult _ _⟩
  · simp only [add, loadA, Status.withResult, decide_eq_true_eq, UInt16.lt_iff_toNat_lt, sum,
      UInt16.reduceToNat]
    omega
  · have overflow : (r.add byte).p.overflow =
        (isNegative r.a == isNegative byte && isNegative (r.add byte).a != isNegative r.a) := rfl
    rw [overflow]
    simp only [isNegative_eq, Bool.and_eq_true, beq_iff_eq, bne_iff_ne, decide_eq_decide, ne_eq,
      result, signed]
    omega

theorem subtracts_subtract : Subtracts r.a byte r.p (r.subtract byte) := by
  have a := r.a.toNat_lt
  have b := byte.toNat_lt
  have c := r.p.carry.toNat_le
  have difference : (0x100 + r.a.toUInt16 - byte.toUInt16 - (1 - r.carryIn)).toNat =
      256 + r.a.toNat - byte.toNat - (1 - r.p.carry.toNat) := by
    simp only [UInt16.toNat_sub, UInt16.toNat_add, UInt8.toNat_toUInt16, toNat_carryIn,
      UInt16.reduceToNat]
    omega
  have result : (r.subtract byte).a.toNat =
      (256 + r.a.toNat - byte.toNat - (1 - r.p.carry.toNat)) % 256 := by
    simp only [subtract, loadA, UInt16.toNat_toUInt8, difference]
  refine ⟨?_, ?_, ?_, zero_withResult _ _, negative_withResult _ _⟩
  · rw [result]
    omega
  · simp only [subtract, loadA, Status.withResult, decide_eq_true_eq, UInt16.lt_iff_toNat_lt,
      difference, UInt16.reduceToNat]
    omega
  · have overflow : (r.subtract byte).p.overflow =
        (isNegative r.a != isNegative byte && isNegative (r.subtract byte).a != isNegative r.a) :=
      rfl
    rw [overflow]
    simp only [isNegative_eq, Bool.and_eq_true, bne_iff_ne, decide_eq_decide, ne_eq, result, signed]
    omega

theorem compares_compare (register : UInt8) :
    Compares register byte r.a r.p (r.compare register byte) := by
  have a := register.toNat_lt
  have b := byte.toNat_lt
  have difference : (register - byte).toNat = (256 + register.toNat - byte.toNat) % 256 := by
    rw [UInt8.toNat_sub]
    omega
  refine ⟨?_, ?_, ?_, rfl, rfl⟩
  · simp [compare, Status.withResult, UInt8.le_iff_toNat_le]
  · rw [compare, zero_withResult, difference, ← UInt8.toNat_inj]
    omega
  · rw [compare, negative_withResult, difference]
    omega

/-- A bit of a byte is set where anding with its power of two leaves something. -/
theorem and_bne_zero (bit : Nat) {mask : UInt8} (power : mask.toNat = 2 ^ bit) :
    (byte &&& mask != 0) = byte.toNat.testBit bit := by
  have number : (byte &&& mask).toNat = (byte.toNat.testBit bit).toNat * 2 ^ bit := by
    rw [UInt8.toNat_and, power, Nat.and_two_pow]
  rw [Bool.eq_iff_iff, bne_iff_ne, ne_eq, ← UInt8.toNat_inj, number]
  cases byte.toNat.testBit bit <;> simp

theorem testsBits_testBits : TestsBits r.a byte r.p (r.testBits byte) := by
  refine ⟨?_, and_bne_zero byte 7 rfl, and_bne_zero byte 6 rfl, rfl, rfl⟩
  simp [testBits, ← UInt8.toNat_inj]

def withDecimal (decimal : Bool) : Registers := { r with p := { r.p with decimal } }

end Registers

open Registers

/-- What an operation that calculates leaves of the registers, given the byte at its effective
address. -/
def Mnemonic.Calculates (r : Registers) (byte : UInt8) (r' : Registers) : Mnemonic → Prop
  | .adc => Adds r.a byte r.p r'
  | .sbc => Subtracts r.a byte r.p r'
  | .cmp => Compares r.a byte r.a r.p r'
  | .cpx => Compares r.x byte r.a r.p r'
  | .cpy => Compares r.y byte r.a r.p r'
  | .bit => TestsBits r.a byte r.p r'
  | _ => False

/-- Each operation that calculates works one byte into the registers. It does so in integers, and
neither needs the decimal flag nor changes what it is not there for. -/
theorem Mnemonic.calculates_action {mnemonic : Mnemonic}
    (calculates : mnemonic ∈ [Mnemonic.adc, .sbc, .cmp, .cpx, .cpy, .bit]) :
    ∃ update, mnemonic.action = .consume update ∧ ∀ r byte,
      mnemonic.Calculates r byte (update r byte) ∧
      ((update r byte).x = r.x ∧ (update r byte).y = r.y ∧ (update r byte).s = r.s) ∧
      ((update r byte).p.interruptDisable = r.p.interruptDisable ∧
        (update r byte).p.decimal = r.p.decimal) ∧
      ∀ decimal, update (r.withDecimal decimal) byte = (update r byte).withDecimal decimal := by
  simp only [List.mem_cons, List.not_mem_nil, or_false] at calculates
  rcases calculates with rfl | rfl | rfl | rfl | rfl | rfl
  · exact ⟨_, rfl, fun r byte =>
      ⟨r.adds_add byte, ⟨rfl, rfl, rfl⟩, ⟨rfl, rfl⟩, fun _ => rfl⟩⟩
  · exact ⟨_, rfl, fun r byte =>
      ⟨r.subtracts_subtract byte, ⟨rfl, rfl, rfl⟩, ⟨rfl, rfl⟩, fun _ => rfl⟩⟩
  · exact ⟨_, rfl, fun r byte =>
      ⟨r.compares_compare byte r.a, ⟨rfl, rfl, rfl⟩, ⟨rfl, rfl⟩, fun _ => rfl⟩⟩
  · exact ⟨_, rfl, fun r byte =>
      ⟨r.compares_compare byte r.x, ⟨rfl, rfl, rfl⟩, ⟨rfl, rfl⟩, fun _ => rfl⟩⟩
  · exact ⟨_, rfl, fun r byte =>
      ⟨r.compares_compare byte r.y, ⟨rfl, rfl, rfl⟩, ⟨rfl, rfl⟩, fun _ => rfl⟩⟩
  · exact ⟨_, rfl, fun r byte =>
      ⟨r.testsBits_testBits byte, ⟨rfl, rfl, rfl⟩, ⟨rfl, rfl⟩, fun _ => rfl⟩⟩

/-- What an operation leaves does not hang on the program counter before it. -/
theorem Mnemonic.calculates_pc (mnemonic : Mnemonic) (r r' : Registers) (byte : UInt8)
    (pc : UInt16) :
    mnemonic.Calculates { r with pc } byte r' ↔ mnemonic.Calculates r byte r' := by
  cases mnemonic <;> exact Iff.rfl

theorem Mode.effectiveOperand_withDecimal (memory : FlatMemory) (r : Registers) (decimal : Bool)
    (mode : Mode) :
    mode.effectiveOperand memory (r.withDecimal decimal) = mode.effectiveOperand memory r := by
  cases mode <;> rfl

namespace Machine

/-- A step that adds, subtracts, compares or tests bits leaves what its operation makes of the byte
at the effective address, in integers. It changes nothing else but the program counter, and with
another decimal flag it would leave the same. -/
theorem calculates_of_step (m : Machine FlatMemory) (running : m.cpu.halted = false)
    {mnemonic : Mnemonic} {mode : Mode}
    (listed : (m.bus.get m.cpu.registers.pc, mnemonic, mode) ∈ calculations) :
    let r := m.cpu.registers
    let r' := m.step.cpu.registers
    ∃ address, mode.effectiveOperand m.bus { r with pc := r.pc + 1 } = .memory address ∧
      mnemonic.Calculates r (m.bus.get address) r' ∧
      (r'.x = r.x ∧ r'.y = r.y ∧ r'.s = r.s) ∧
      (r'.p.interruptDisable = r.p.interruptDisable ∧ r'.p.decimal = r.p.decimal) ∧
      m.step.bus = m.bus ∧
      ∀ decimal, (m.mapRegisters fun r => r.withDecimal decimal).step.cpu.registers =
        r'.withDecimal decimal := by
  intro r r'
  obtain ⟨named, placed, calculates⟩ := (mem_calculations_iff _ _ _).mp listed
  obtain ⟨update, action, leaves⟩ := Mnemonic.calculates_action calculates
  have consumes : m.nextInstruction.mnemonic.action = .consume update := by
    rw [nextInstruction, named, action]
  obtain ⟨address, found⟩ : ∃ address, m.nextOperand = .memory address := by
    have suits := Instruction.suits_decode (m.bus.get m.cpu.registers.pc)
    rw [named, action] at suits
    rw [nextOperand, ← Mode.operand_eq_effectiveOperand]
    exact Mode.operand_of_holdsByte _ _ _ suits
  obtain ⟨registers, bus⟩ := m.step_of_consume running consumes found
  have left : r' = update m.located (m.bus.get address) := registers
  obtain ⟨result, index, kept, indifferent⟩ := leaves m.located (m.bus.get address)
  refine ⟨address, ?_, ?_, ?_, ?_, bus, fun decimal => ?_⟩
  · rw [← found, ← placed]
    rfl
  · rw [left]
    exact (mnemonic.calculates_pc r _ _ _).mp result
  · rw [left]
    exact index
  · rw [left]
    exact kept
  · have same : (m.mapRegisters fun r => r.withDecimal decimal).nextOperand = .memory address :=
      (Mode.effectiveOperand_withDecimal _ _ _ _).trans found
    have moved := ((m.mapRegisters fun r => r.withDecimal decimal).step_of_consume running
      consumes same).1
    rw [left, moved]
    exact indifferent decimal

/-- An addition in decimal mode at the last address. The pointer wraps around in page zero, the
index wraps around at the top of memory, and the sum overflows. -/
theorem calculates_of_step_wrapped :
    let memory := (((FlatMemory.zero.set 0xFFFF 0x71).set 0x0000 0xFF).set 0x00FF 0x90).set 0x0010
      0x50
    let m : Machine FlatMemory :=
      ⟨⟨⟨0x50, 0x11, 0x80, 0xFD, 0xFFFF, Status.ofByte 0x09⟩, 7, false, none⟩, memory⟩
    let r' := m.step.cpu.registers
    m.cpu.halted = false ∧
      (m.bus.get m.cpu.registers.pc, .adc, .indirectIndexed) ∈ calculations ∧
      r'.a.toNat = 0xA1 ∧ r'.p.carry = false ∧ r'.p.overflow = true ∧ r'.p.zero = false ∧
      r'.p.negative = true ∧ r'.p.decimal = true ∧ m.step.bus = memory := by
  intro memory m r'
  have opcode : memory.get 0xFFFF = 0x71 := by simp [memory, FlatMemory.get_set]
  have pointer : memory.get 0x0000 = 0xFF := by simp [memory, FlatMemory.get_set]
  have low : memory.get 0x00FF = 0x90 := by simp [memory, FlatMemory.get_set]
  have byte : memory.get 0x0010 = 0x50 := by simp [memory, FlatMemory.get_set]
  -- The bytes looked up above are all that is needed of the memory.
  clear_value memory
  have listed : (m.bus.get m.cpu.registers.pc, .adc, .indirectIndexed) ∈ calculations := by
    show (memory.get 0xFFFF, _, _) ∈ _
    rw [opcode]
    decide
  obtain ⟨address, found, result, -, kept, bus, -⟩ := calculates_of_step m rfl listed
  have place : address = 0x0010 := by
    have next : Mode.nextByte memory ⟨0x50, 0x11, 0x80, 0xFD, 0x0000, Status.ofByte 0x09⟩ =
        0xFF := by
      rw [Mode.nextByte_eq, pointer]
      rfl
    have pointed : Mode.pointedWord memory
        ⟨0x50, 0x11, 0x80, 0xFD, 0x0000, Status.ofByte 0x09⟩ = 0xFF90 := by
      rw [Mode.pointedWord, next, memory.wordAt_of_eq (a := 0x00FF) (b := 0x0000) rfl rfl, low,
        pointer]
      rfl
    have around : (0xFFFF : UInt16) + 1 = 0x0000 := by decide
    simp only [m, around, Mode.effectiveOperand, pointed] at found
    exact (Operand.memory.inj found).symm
  have read : m.bus.get address = 0x50 := by
    rw [place]
    exact byte
  have result : Registers.Adds 0x50 0x50 (Status.ofByte 0x09) r' := by
    rw [read] at result
    exact result
  have sum : r'.a.toNat = 0xA1 := result.sum
  have small : ¬256 ≤ (0x50 : UInt8).toNat + (0x50 : UInt8).toNat +
      (Status.ofByte 0x09).carry.toNat := by
    decide
  refine ⟨rfl, listed, sum, ?_, ?_, ?_, ?_, kept.2, bus⟩
  · exact Bool.eq_false_iff.mpr (mt result.carry.mp small)
  · exact result.overflow.mpr (by decide)
  · exact Bool.eq_false_iff.mpr (mt result.zero.mp (by omega))
  · exact result.negative.mpr (by omega)

end Machine
end NesMachine
