import Mathlib.Tactic.LinearCombination
import NesMachine.Proofs.LittleEndian
import NesMachine.Proofs.Processor.IntegerArithmetic
import NesMachine.Proofs.Processor.Jams

/-!
# Sums and differences of several bytes

Numbers of any width are added and subtracted a byte at a time, from the lowest byte up, with the
carry flag going from each byte to the next. Loading the next byte leaves the carry alone, and so
may do whatever else happens in between.
-/
namespace NesMachine

/-- The operations that take over the carry of the byte before. -/
inductive Chained where
  | addition
  | subtraction
  deriving DecidableEq, Repr

namespace Chained

def mnemonic : Chained → Mnemonic
  | addition => .adc
  | subtraction => .sbc

/-- The sign with which the second number counts. -/
def sign : Chained → Int
  | addition => 1
  | subtraction => -1

/-- What a carry counts for: one more in a sum, and one less in a difference if it is missing. -/
def carried (carry : Bool) : Chained → Int
  | addition => carry.toNat
  | subtraction => carry.toNat - 1

/-- The opcode of the instruction that holds its byte itself. -/
def opcode : Chained → UInt8
  | addition => 0x69
  | subtraction => 0xE9

/-- What the operation does to the registers. -/
def update : Chained → Registers → UInt8 → Registers
  | addition => .add
  | subtraction => .subtract

theorem action_mnemonic (operation : Chained) :
    operation.mnemonic.action = .consume operation.update := by
  cases operation <;> rfl

theorem decode_opcode (operation : Chained) :
    (Instruction.decode operation.opcode).mnemonic = operation.mnemonic ∧
      (Instruction.decode operation.opcode).mode = .immediate := by
  cases operation <;> decide

@[simp] theorem pc_update (operation : Chained) (r : Registers) (byte : UInt8) :
    (operation.update r byte).pc = r.pc := by
  cases operation <;> rfl

end Chained

namespace Machine

/-- Bytes loaded and then combined with other bytes, one pair after the other; the accumulator is
collected after each pair. Machines that differ follow each other where something else is done in
between: before a byte is loaded it must not touch the carry, and before it is combined neither the
carry nor the accumulator. -/
inductive Chain (operation : Chained) : Machine FlatMemory → List UInt8 → List UInt8 →
    List UInt8 → Machine FlatMemory → Prop where
  | nil (m : Machine FlatMemory) : Chain operation m [] [] [] m
  | cons {m before loaded ready combined m' : Machine FlatMemory} {first second : UInt16}
      {a b : UInt8} {as bs cs : List UInt8}
      (carry : before.cpu.registers.p.carry = m.cpu.registers.p.carry)
      (firstByte : before.bus.get first = a)
      (load : Executes .lda (.memory first) before loaded)
      (kept : ready.cpu.registers.p.carry = loaded.cpu.registers.p.carry ∧
        ready.cpu.registers.a = loaded.cpu.registers.a)
      (secondByte : ready.bus.get second = b)
      (combine : Executes operation.mnemonic (.memory second) ready combined)
      (rest : Chain operation combined as bs cs m') :
    Chain operation m (a :: as) (b :: bs) (combined.cpu.registers.a :: cs) m'

/-- What one combination leaves: a byte and a carry that together are the whole result, and flags
that tell its sign and whether it fits. -/
structure Combines (operation : Chained) (a b : UInt8) (carry : Bool) (r' : Registers) : Prop where
  value : (r'.a.toNat : Int) + 256 * operation.carried r'.p.carry =
    a.toNat + operation.sign * b.toNat + operation.carried carry
  overflow : r'.p.overflow = true ↔ ¬FitsIn 1
    (signed a.toNat + operation.sign * signed b.toNat + operation.carried carry)
  negative : r'.p.negative = true ↔ 128 ≤ r'.a.toNat

theorem combines_of_executes {operation : Chained} {address : UInt16} {m m' : Machine FlatMemory}
    (h : Executes operation.mnemonic (.memory address) m m') :
    Combines operation m.cpu.registers.a (m.bus.get address) m.cpu.registers.p.carry
      m'.cpu.registers := by
  have carry := m.cpu.registers.p.carry.toNat_le
  have carry' := m'.cpu.registers.p.carry.toNat_le
  have a := m.cpu.registers.a.toNat_lt
  have b := (m.bus.get address).toNat_lt
  have bit (c : Bool) : c.toNat = 1 ↔ c = true := by cases c <;> simp
  cases operation with
  | addition =>
    obtain ⟨-, pc, registers⟩ := h.consume rfl
    have adds : Registers.Adds m.cpu.registers.a (m.bus.get address) m.cpu.registers.p
        m'.cpu.registers := by
      rw [registers]
      exact Registers.adds_add { m.cpu.registers with pc } (m.bus.get address)
    have out := (bit _).trans adds.carry
    refine ⟨?_, ?_, adds.negative⟩
    · have sum := adds.sum
      simp only [Chained.carried, Chained.sign]
      omega
    · rw [adds.overflow, fitsIn_one]
      simp only [Chained.carried, Chained.sign, one_mul]
  | subtraction =>
    obtain ⟨-, pc, registers⟩ := h.consume rfl
    have subtracts : Registers.Subtracts m.cpu.registers.a (m.bus.get address) m.cpu.registers.p
        m'.cpu.registers := by
      rw [registers]
      exact Registers.subtracts_subtract { m.cpu.registers with pc } (m.bus.get address)
    have out := (bit _).trans subtracts.carry
    refine ⟨?_, ?_, subtracts.negative⟩
    · have difference := subtracts.difference
      simp only [Chained.carried, Chained.sign]
      omega
    · rw [subtracts.overflow, fitsIn_one]
      simp only [Chained.carried, Chained.sign]
      omega

/-- Loading a byte leaves the carry alone. -/
theorem loads_of_executes {address : UInt16} {m m' : Machine FlatMemory}
    (h : Executes .lda (.memory address) m m') :
    m'.cpu.registers.a = m.bus.get address ∧
      m'.cpu.registers.p.carry = m.cpu.registers.p.carry := by
  obtain ⟨-, pc, registers⟩ := h.consume rfl
  rw [registers]
  exact ⟨rfl, rfl⟩

/-- One pair of a chain, told from the carry before it. -/
theorem combines_of_link {operation : Chained} {m before loaded ready combined : Machine FlatMemory}
    {first second : UInt16} {a b : UInt8}
    (carry : before.cpu.registers.p.carry = m.cpu.registers.p.carry)
    (firstByte : before.bus.get first = a) (load : Executes .lda (.memory first) before loaded)
    (kept : ready.cpu.registers.p.carry = loaded.cpu.registers.p.carry ∧
      ready.cpu.registers.a = loaded.cpu.registers.a)
    (secondByte : ready.bus.get second = b)
    (combine : Executes operation.mnemonic (.memory second) ready combined) :
    Combines operation a b m.cpu.registers.p.carry combined.cpu.registers := by
  obtain ⟨accumulator, untouched⟩ := loads_of_executes load
  have combines := combines_of_executes combine
  rwa [kept.1, kept.2, accumulator, untouched, firstByte, carry, secondByte] at combines

namespace Chain

variable {operation : Chained} {m m' : Machine FlatMemory} {as bs cs : List UInt8}

theorem length_eq (chain : Chain operation m as bs cs m') :
    bs.length = as.length ∧ cs.length = as.length := by
  induction chain with
  | nil => exact ⟨rfl, rfl⟩
  | cons _ _ _ _ _ _ _ ih => exact ⟨congrArg (· + 1) ih.1, congrArg (· + 1) ih.2⟩

/-- What a chain leaves depends on nothing but the carry of the machine it begins with. -/
theorem of_carry_eq {k : Machine FlatMemory} {a : UInt8}
    (same : m.cpu.registers.p.carry = k.cpu.registers.p.carry)
    (chain : Chain operation m (a :: as) bs cs m') : Chain operation k (a :: as) bs cs m' := by
  cases chain with
  | cons carry firstByte load kept secondByte combine rest =>
    exact .cons (carry.trans same) firstByte load kept secondByte combine rest

/-- A pair with nothing done in between. -/
theorem next {loaded combined : Machine FlatMemory} {first second : UInt16} {a b : UInt8}
    (firstByte : m.bus.get first = a) (load : Executes .lda (.memory first) m loaded)
    (secondByte : loaded.bus.get second = b)
    (combine : Executes operation.mnemonic (.memory second) loaded combined)
    (rest : Chain operation combined as bs cs m') :
    Chain operation m (a :: as) (b :: bs) (combined.cpu.registers.a :: cs) m' :=
  .cons rfl firstByte load ⟨rfl, rfl⟩ secondByte combine rest

/-- The bytes collected and the last carry are together the whole result. -/
theorem value (chain : Chain operation m as bs cs m') :
    (numberOf cs : Int) + 256 ^ as.length * operation.carried m'.cpu.registers.p.carry =
      numberOf as + operation.sign * numberOf bs + operation.carried m.cpu.registers.p.carry := by
  induction chain with
  | nil => simp
  | cons carry firstByte load kept secondByte combine rest ih =>
    have combines := combines_of_link carry firstByte load kept secondByte combine
    simp only [numberOf_cons, List.length_cons, pow_succ]
    push_cast
    linear_combination combines.value + 256 * ih

/-- The last overflow tells that the whole result does not fit. -/
theorem overflow (chain : Chain operation m as bs cs m') (nonempty : as ≠ []) :
    m'.cpu.registers.p.overflow = true ↔ ¬FitsIn as.length (signedNumber as +
      operation.sign * signedNumber bs + operation.carried m.cpu.registers.p.carry) := by
  induction chain with
  | nil => exact absurd rfl nonempty
  | @cons m before loaded ready combined m' _ _ a b as bs cs carry firstByte load kept secondByte
      combine rest ih =>
    have combines := combines_of_link carry firstByte load kept secondByte combine
    obtain ⟨width, -⟩ := rest.length_eq
    by_cases last : as = []
    · subst last
      obtain rfl := List.eq_nil_of_length_eq_zero width
      cases rest
      rw [signedNumber_singleton, signedNumber_singleton]
      exact combines.overflow
    · have more : bs ≠ [] := by
        rintro rfl
        exact last (List.eq_nil_of_length_eq_zero width.symm)
      have whole : signedNumber (a :: as) + operation.sign * signedNumber (b :: bs) +
          operation.carried m.cpu.registers.p.carry = combined.cpu.registers.a.toNat +
            256 * (signedNumber as + operation.sign * signedNumber bs +
              operation.carried combined.cpu.registers.p.carry) := by
        rw [signedNumber_cons a last, signedNumber_cons b more]
        linear_combination -combines.value
      rw [ih last, whole, List.length_cons,
        fitsIn_succ (mt List.eq_nil_of_length_eq_zero last)]

/-- The last sign is the highest bit of what was collected. -/
theorem negative (chain : Chain operation m as bs cs m') (nonempty : as ≠ []) :
    m'.cpu.registers.p.negative = topBit cs := by
  induction chain with
  | nil => exact absurd rfl nonempty
  | @cons m before loaded ready combined m' _ _ a b as bs cs carry firstByte load kept secondByte
      combine rest ih =>
    have combines := combines_of_link carry firstByte load kept secondByte combine
    by_cases last : as = []
    · subst last
      cases rest
      rw [Bool.eq_iff_iff, topBit_singleton]
      exact combines.negative
    · have more : cs ≠ [] := by
        rintro rfl
        exact last (List.eq_nil_of_length_eq_zero rest.length_eq.2.symm)
      rw [ih last, topBit_cons _ more]

end Chain

/-- Whether bytes and flags are the sum of two numbers with as many bytes. -/
structure IsSum (as bs cs : List UInt8) (p : Status) : Prop where
  length : cs.length = as.length
  number : numberOf cs = (numberOf as + numberOf bs) % 256 ^ as.length
  carry : p.carry = true ↔ 256 ^ as.length ≤ numberOf as + numberOf bs
  overflow : p.overflow = true ↔ ¬FitsIn as.length (signedNumber as + signedNumber bs)
  negative : p.negative = topBit cs

/-- Whether bytes and flags are the difference of two numbers with as many bytes. -/
structure IsDifference (as bs cs : List UInt8) (p : Status) : Prop where
  length : cs.length = as.length
  number : (numberOf cs : Int) = ((numberOf as : Int) - numberOf bs) % 256 ^ as.length
  carry : p.carry = true ↔ numberOf bs ≤ numberOf as
  overflow : p.overflow = true ↔ ¬FitsIn as.length (signedNumber as - signedNumber bs)
  negative : p.negative = topBit cs

namespace Chain

variable {m m' : Machine FlatMemory} {as bs cs : List UInt8}

/-- The bytes collected are the result as far as there is room for it. -/
theorem number {operation : Chained} (chain : Chain operation m as bs cs m') :
    (numberOf cs : Int) = (numberOf as + operation.sign * numberOf bs +
      operation.carried m.cpu.registers.p.carry) % 256 ^ as.length := by
  have small : (numberOf cs : Int) < 256 ^ as.length := by
    rw [← chain.length_eq.2]
    exact_mod_cast numberOf_lt cs
  rw [← chain.value, Int.add_mul_emod_self_left, Int.emod_eq_of_lt (Int.natCast_nonneg _) small]

theorem isSum (chain : Chain .addition m as bs cs m') (nonempty : as ≠ [])
    (clear : m.cpu.registers.p.carry = false) : IsSum as bs cs m'.cpu.registers.p := by
  have value := chain.value
  have number := chain.number
  have overflow := chain.overflow nonempty
  obtain ⟨-, length⟩ := chain.length_eq
  simp only [Chained.sign, Chained.carried, clear, Bool.toNat_false, one_mul, Nat.cast_zero,
    add_zero] at value number overflow
  rw [← length] at value
  have carry := carry_iff value
  rw [length] at carry
  exact ⟨length, by exact_mod_cast number, by exact_mod_cast carry, overflow,
    chain.negative nonempty⟩

theorem isDifference (chain : Chain .subtraction m as bs cs m') (nonempty : as ≠ [])
    (set : m.cpu.registers.p.carry = true) : IsDifference as bs cs m'.cpu.registers.p := by
  have value := chain.value
  have number := chain.number
  have overflow := chain.overflow nonempty
  obtain ⟨-, length⟩ := chain.length_eq
  simp only [Chained.sign, Chained.carried, set, Bool.toNat_true, Nat.cast_one, sub_self, add_zero,
    neg_one_mul, ← sub_eq_add_neg] at value number overflow
  rw [← length] at value
  -- What is borrowed counts as a carry that is missing.
  have lent : (numberOf cs : Int) + 256 ^ cs.length * m'.cpu.registers.p.carry.toNat =
      numberOf as - numberOf bs + 256 ^ cs.length := by
    linear_combination value
  have carry := carry_iff lent
  refine ⟨length, number, carry.trans ?_, overflow, chain.negative nonempty⟩
  omega

end Chain

/-- The step of an instruction that holds its byte itself. -/
theorem step_of_immediate (m : Machine FlatMemory) (running : m.cpu.halted = false)
    {mnemonic : Mnemonic} {update : Registers → UInt8 → Registers}
    (action : mnemonic.action = .consume update) (named : m.nextInstruction.mnemonic = mnemonic)
    (immediate : m.nextInstruction.mode = .immediate) :
    let r := m.cpu.registers
    Executes mnemonic (.memory (r.pc + 1)) m m.step ∧
      m.step.cpu.registers = update { r with pc := r.pc + 2 } (m.bus.get (r.pc + 1)) ∧
      m.step.bus = m.bus ∧ m.step.cpu.halted = false := by
  intro r
  have found : m.nextOperand = .memory (r.pc + 1) := by
    rw [nextOperand, immediate]
    rfl
  have moved : m.located = { r with pc := r.pc + 2 } := by
    rw [located, immediate, ← add_one_add_one]
    rfl
  obtain ⟨registers, bus⟩ := m.step_of_consume running (by rw [named, action]) found
  rw [moved] at registers
  refine ⟨.step running named found, registers, bus, ?_⟩
  have harmless : (Instruction.decode m.fetch.1).mnemonic.action.jams = false := by
    have fetched : Instruction.decode m.fetch.1 = m.nextInstruction := rfl
    rw [fetched, named, action]
    rfl
  rw [halted_step_eq, running, harmless]
  rfl

/-- Two instructions in a row that hold a pair of bytes themselves begin a chain, and whatever
comes behind them goes on with it. -/
theorem chain_of_code (operation : Chained) (pc : UInt16) {m : Machine FlatMemory} {a b : UInt8}
    (running : m.cpu.halted = false) (here : m.cpu.registers.pc = pc)
    (load : m.bus.get pc = 0xA9) (first : m.bus.get (pc + 1) = a)
    (combine : m.bus.get (pc + 2) = operation.opcode) (second : m.bus.get (pc + 3) = b) :
    let combined := m.step.step
    combined.cpu.halted = false ∧ combined.cpu.registers.pc = pc + 4 ∧ combined.bus = m.bus ∧
      ∀ {as bs cs : List UInt8} {m' : Machine FlatMemory}, Chain operation combined as bs cs m' →
        Chain operation m (a :: as) (b :: bs) (combined.cpu.registers.a :: cs) m' := by
  subst here
  intro combined
  have loads : Mnemonic.lda.action = .consume .loadA := rfl
  have next : m.nextInstruction = Instruction.decode 0xA9 := by rw [nextInstruction, load]
  obtain ⟨loaded, registers, bus, still⟩ := m.step_of_immediate running loads
    (by rw [next]; decide) (by rw [next]; decide)
  have moved : m.step.cpu.registers.pc = m.cpu.registers.pc + 2 := by
    rw [registers]
    rfl
  have next' : m.step.nextInstruction = Instruction.decode operation.opcode := by
    rw [nextInstruction, moved, bus, combine]
  obtain ⟨named, immediate⟩ := operation.decode_opcode
  obtain ⟨done, registers', bus', still'⟩ := m.step.step_of_immediate still
    operation.action_mnemonic (by rw [next', named]) (by rw [next', immediate])
  have place : m.step.bus.get (m.step.cpu.registers.pc + 1) = b := by
    rw [moved, bus, UInt16.add_assoc, ← second]
    rfl
  refine ⟨still', ?_, bus'.trans bus, fun rest => .next first loaded place done rest⟩
  rw [registers', Chained.pc_update, moved, UInt16.add_assoc]
  rfl

theorem exists_chain (operation : Chained) (m : Machine FlatMemory)
    (running : m.cpu.halted = false) {as bs : List UInt8} (same : bs.length = as.length) :
    ∃ cs m', Chain operation m as bs cs m' := by
  induction as generalizing m bs with
  | nil =>
    obtain rfl := List.eq_nil_of_length_eq_zero same
    exact ⟨[], m, .nil m⟩
  | cons a as ih =>
    obtain ⟨b, bs, rfl⟩ := List.exists_cons_of_length_eq_add_one same
    -- Two instructions are put where the program counter is, and again for the bytes that follow.
    let pc := m.cpu.registers.pc
    let before : Machine FlatMemory := ⟨m.cpu, m.bus.load pc [0xA9, a, operation.opcode, b]⟩
    have code : before.bus.get pc = 0xA9 ∧ before.bus.get (pc + 1) = a ∧
        before.bus.get (pc + 2) = operation.opcode ∧ before.bus.get (pc + 3) = b := by
      simp [before, FlatMemory.load, FlatMemory.get_set, UInt16.add_assoc]
    obtain ⟨load, first, combine, second⟩ := code
    obtain ⟨still, -, -, goOn⟩ :=
      chain_of_code operation pc (m := before) running rfl load first combine second
    obtain ⟨cs, m', rest⟩ := ih _ still (Nat.succ.inj same)
    have untouched : before.cpu.registers.p.carry = m.cpu.registers.p.carry := rfl
    exact ⟨_, m', (goOn rest).of_carry_eq untouched⟩

/-- Whatever the numbers, their sum and their difference can be found byte by byte from any state,
and every way of doing so finds them, with flags that are right for the whole numbers. What is
added and then taken away again leaves the number there was. -/
theorem arithmetic_of_chains (as bs : List UInt8) (same : bs.length = as.length)
    (nonempty : as ≠ []) :
    (∀ operation (m : Machine FlatMemory), m.cpu.halted = false →
      ∃ cs m', Chain operation m as bs cs m') ∧
    (∀ m m' cs, Chain .addition m as bs cs m' → m.cpu.registers.p.carry = false →
      IsSum as bs cs m'.cpu.registers.p) ∧
    (∀ m m' cs, Chain .subtraction m as bs cs m' → m.cpu.registers.p.carry = true →
      IsDifference as bs cs m'.cpu.registers.p) ∧
    ∀ m m' k k' cs ds, Chain .addition m as bs cs m' → m.cpu.registers.p.carry = false →
      Chain .subtraction k cs bs ds k' → k.cpu.registers.p.carry = true → ds = as := by
  refine ⟨fun operation m running => exists_chain operation m running same,
    fun m m' cs chain clear => chain.isSum nonempty clear,
    fun m m' cs chain set => chain.isDifference nonempty set, ?_⟩
  intro m m' k k' cs ds added clear taken set
  have sum := added.isSum nonempty clear
  have filled : cs ≠ [] := by
    rintro rfl
    exact nonempty (List.eq_nil_of_length_eq_zero sum.length.symm)
  have difference := taken.isDifference filled set
  apply eq_of_numberOf_eq (difference.length.trans sum.length)
  have back := difference.number
  have small : (numberOf as : Int) < 256 ^ as.length := by exact_mod_cast numberOf_lt as
  rw [sum.length, sum.number] at back
  push_cast at back
  rw [Int.emod_sub_emod, add_sub_cancel_right,
    Int.emod_eq_of_lt (Int.natCast_nonneg _) small] at back
  exact_mod_cast back

/-- The sum of 0x7FFF and one, by four instructions in a row: it has no room as a signed number. -/
theorem arithmetic_of_chains_program :
    let memory := FlatMemory.zero.load 0x0200 [0xA9, 0xFF, 0x69, 0x01, 0xA9, 0x7F, 0x69, 0x00]
    let m : Machine FlatMemory :=
      ⟨⟨⟨0x00, 0x00, 0x00, 0xFD, 0x0200, Status.ofByte 0x08⟩, 7, false, none⟩, memory⟩
    let m' := m.step.step.step.step
    m.cpu.registers.p.carry = false ∧ m.cpu.registers.p.decimal = true ∧
      numberOf [m.step.step.cpu.registers.a, m'.cpu.registers.a] = 0x8000 ∧
      m'.cpu.registers.p.carry = false ∧ m'.cpu.registers.p.overflow = true ∧
      m'.cpu.registers.p.negative = true := by
  intro memory m m'
  have code : [memory.get 0x0200, memory.get 0x0201, memory.get 0x0202, memory.get 0x0203,
      memory.get 0x0204, memory.get 0x0205, memory.get 0x0206, memory.get 0x0207] =
      [0xA9, 0xFF, 0x69, 0x01, 0xA9, 0x7F, 0x69, 0x00] := by
    simp [memory, FlatMemory.load, FlatMemory.get_set]
  -- The bytes looked up above are all that is needed of the memory.
  clear_value memory
  simp only [List.cons.injEq, and_true] at code
  obtain ⟨b0, b1, b2, b3, b4, b5, b6, b7⟩ := code
  obtain ⟨running, pc, bus, low⟩ := chain_of_code .addition 0x0200 (m := m) rfl rfl b0 b1
    b2 b3
  have bus : m.step.step.bus = memory := bus
  obtain ⟨-, -, -, high⟩ := chain_of_code .addition 0x0204 (m := m.step.step) (a := 0x7F)
    (b := 0x00) running pc (by rw [bus]; exact b4) (by rw [bus]; exact b5)
    (by rw [bus]; exact b6) (by rw [bus]; exact b7)
  obtain ⟨-, sums, -, -⟩ := arithmetic_of_chains [0xFF, 0x7F] [0x01, 0x00] rfl (by decide)
  have sum := sums m m' _ (low (high (.nil m'))) rfl
  have number : numberOf [m.step.step.cpu.registers.a, m'.cpu.registers.a] = 0x8000 := by
    rw [sum.number]
    decide
  refine ⟨rfl, rfl, number, Bool.eq_false_iff.mpr (mt sum.carry.mp (by decide)),
    sum.overflow.mpr (by decide), ?_⟩
  rw [sum.negative, topBit_iff, number, sum.length]
  decide

end Machine
end NesMachine
