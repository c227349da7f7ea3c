import NesMachine.Proofs.Processor.Executions

/-!
# Operations put together of others

Most undocumented operations do at once what two documented ones do one after the other: the
second half works on the byte, the carry and the other flags that the first half left. What is
saved is the cycle in which the second operation would read the byte again.
-/
namespace NesMachine

/-- Two operations, the second one either on the byte of the first or on the accumulator. -/
structure Combination where
  first : Mnemonic
  second : Mnemonic
  inAccumulator : Bool

namespace Combination

/-- What the second operation works on. -/
def operand (combination : Combination) (address : UInt16) : Operand :=
  if combination.inAccumulator then .accumulator else .memory address

/-- The cycles saved by doing both at once. -/
def spared (combination : Combination) : Nat := if combination.inAccumulator then 0 else 1

end Combination

/-- The documented operations that make up an undocumented one. -/
def Mnemonic.combination : Mnemonic → Option Combination
  | .slo => some ⟨.asl, .ora, false⟩
  | .rla => some ⟨.rol, .and, false⟩
  | .sre => some ⟨.lsr, .eor, false⟩
  | .rra => some ⟨.ror, .adc, false⟩
  | .dcp => some ⟨.dec, .cmp, false⟩
  | .isb => some ⟨.inc, .sbc, false⟩
  | .lax => some ⟨.lda, .ldx, false⟩
  | .alr => some ⟨.and, .lsr, true⟩
  | _ => none

/-- Whether an action works a byte into the registers without a look at the program counter. -/
def Action.IgnoresPc : Action → Prop
  | .consume update => ∀ r byte pc, update { r with pc } byte = { update r byte with pc }
  | .modify change update =>
    (∀ r byte pc, change { r with pc } byte =
      ((change r byte).1, { (change r byte).2 with pc })) ∧
    ∀ r byte pc, update { r with pc } byte = { update r byte with pc }
  | _ => False

/-- The effect of such an action has the program counter where it was. -/
theorem Action.IgnoresPc.effect {action : Action} (ignores : action.IgnoresPc) (view : View)
    (r : Registers) (pc : UInt16) (operand : Operand) :
    (action.effect view { r with pc } operand).registers =
      { (action.effect view r operand).registers with pc } ∧
    (action.effect view { r with pc } operand).requests =
      (action.effect view r operand).requests := by
  have byte : operand.byte view { r with pc } = operand.byte view r := by cases operand <;> rfl
  cases action with
  | consume update => exact ⟨by rw [Action.effect, byte, ignores]; rfl, rfl⟩
  | modify change update =>
    obtain ⟨changes, updates⟩ := ignores
    have changed := changes r (operand.byte view r) pc
    simp only [Action.effect, byte, changed]
    cases operand with
    | memory a => exact ⟨updates _ _ _, rfl⟩
    | accumulator => exact ⟨updates { (change r r.a).2 with a := (change r r.a).1 } _ _, rfl⟩
    | implied => exact ⟨updates _ _ _, rfl⟩
  | _ => exact absurd ignores id

/-- Neither an operation put together of others nor one of its parts looks at the program
counter. -/
theorem Mnemonic.ignoresPc {mnemonic : Mnemonic} {combination : Combination}
    (parts : mnemonic.combination = some combination) : mnemonic.action.IgnoresPc ∧
      combination.first.action.IgnoresPc ∧ combination.second.action.IgnoresPc := by
  cases mnemonic <;> cases parts <;> refine ⟨?_, ?_, ?_⟩ <;>
    first
      | exact fun _ _ _ => rfl
      | exact ⟨fun _ _ _ => rfl, fun _ _ _ => rfl⟩

namespace Machine

/-- Machines that agree in memory and in all registers and flags, wherever they have got to in
their programs. -/
structure Matches (m k : Machine FlatMemory) : Prop where
  registers : ∃ pc, k.cpu.registers = { m.cpu.registers with pc }
  bus : k.bus = m.bus

section

variable {m k l : Machine FlatMemory}

theorem Matches.refl : Matches m m := ⟨⟨m.cpu.registers.pc, rfl⟩, rfl⟩

theorem Matches.trans (first : Matches m k) (second : Matches k l) : Matches m l := by
  obtain ⟨pc, registers⟩ := second.registers
  obtain ⟨pc', registers'⟩ := first.registers
  exact ⟨⟨pc, by rw [registers, registers']⟩, second.bus.trans first.bus⟩

end

/-- An operation that does not look at the program counter keeps machines matching. -/
theorem Executes.matches {mnemonic : Mnemonic} {operand : Operand} {m m' k k' : Machine FlatMemory}
    (h : Executes mnemonic operand m m') (h' : Executes mnemonic operand k k')
    (ignores : mnemonic.action.IgnoresPc) (same : Matches m k) : Matches m' k' := by
  obtain ⟨pc, registers, bus⟩ := h.effect
  obtain ⟨pc', registers', bus'⟩ := h'.effect
  obtain ⟨moved, memory⟩ := same
  obtain ⟨place, moved⟩ := moved
  simp only [memory, moved] at registers' bus'
  obtain ⟨settled, asked⟩ := ignores.effect m.bus.get m.cpu.registers pc operand
  obtain ⟨settled', asked'⟩ := ignores.effect m.bus.get m.cpu.registers pc' operand
  refine ⟨⟨pc', ?_⟩, ?_⟩
  · rw [registers, registers', settled, settled']
  · rw [bus, bus', asked, asked']

variable (m : Machine FlatMemory) (address : UInt16)

/-- Changing a byte and working it into the registers at once saves reading it. -/
theorem perform_modify_idle (change : Registers → UInt8 → UInt8 × Registers)
    (update : Registers → UInt8 → Registers) :
    (m.perform (.memory address) (.modify change update)).idle =
      (m.perform (.memory address) (.modify change fun r _ => r)).perform (.memory address)
        (.consume update) := by
  let old := m.bus.get address
  let changed := change m.cpu.registers old
  let bus := (m.bus.set address old).set address changed.1
  have back : bus.get address = changed.1 := by rw [FlatMemory.get_set, if_pos rfl]
  have apart : (m.perform (.memory address) (.modify change fun r _ => r)).perform
      (.memory address) (.consume update) = { m with
        cpu := { m.cpu with
          registers := update changed.2 (bus.get address), cycles := m.cpu.cycles + 3 + 1 }
        bus } := rfl
  rw [apart, back]
  rfl

/-- Working a byte into the registers in two ways at once saves reading it again. -/
theorem perform_consume_idle (first second : Registers → UInt8 → Registers) :
    (m.perform (.memory address) (.consume fun r byte => second (first r byte) byte)).idle =
      (m.perform (.memory address) (.consume first)).perform (.memory address)
        (.consume second) := rfl

/-- Working a byte into the registers and then changing the accumulator. -/
theorem perform_consume_accumulator (first : Registers → UInt8 → Registers)
    (change : Registers → UInt8 → UInt8 × Registers) :
    (m.perform (.memory address) (.consume fun r byte =>
      let r := first r byte
      let changed := change r r.a
      { changed.2 with a := changed.1 })) =
      (m.perform (.memory address) (.consume first)).perform .accumulator
        (.modify change fun r _ => r) := rfl

/-- A machine some cycles later, in which nothing was done. -/
def waited (cycles : Nat) : Machine FlatMemory :=
  { m with cpu := { m.cpu with cycles := m.cpu.cycles + cycles } }

/-- An operation put together of others does what they do one after the other, and takes the
cycles that it spares less. -/
theorem perform_combination {mnemonic : Mnemonic} {combination : Combination}
    (parts : mnemonic.combination = some combination) :
    (m.perform (.memory address) mnemonic.action).waited combination.spared =
      (m.perform (.memory address) combination.first.action).perform
        (combination.operand address) combination.second.action := by
  cases mnemonic <;> cases parts
  case lax => exact m.perform_consume_idle address .loadA .loadX
  case slo => exact m.perform_modify_idle address Registers.shiftLeft .or
  case rla => exact m.perform_modify_idle address Registers.rotateLeft .and
  case sre => exact m.perform_modify_idle address Registers.shiftRight .exclusiveOr
  case rra => exact m.perform_modify_idle address Registers.rotateRight .add
  case dcp => exact m.perform_modify_idle address Registers.decrement fun r => r.compare r.a
  case isb => exact m.perform_modify_idle address Registers.increment .subtract
  case alr => exact m.perform_consume_accumulator address .and Registers.shiftRight

/-- An operation put together of two others leaves the registers, flags and memory that they leave
one after the other, and saves the cycle of reading a byte in memory again. It does so wherever the
instructions are: machines stay matched if one of them executes the whole and the other one its
parts. -/
theorem combination_of_parts {mnemonic : Mnemonic} {combination : Combination}
    (parts : mnemonic.combination = some combination) :
    let whole := m.perform (.memory address) mnemonic.action
    let apart := (m.perform (.memory address) combination.first.action).perform
      (combination.operand address) combination.second.action
    (whole.cpu.registers = apart.cpu.registers ∧ whole.bus = apart.bus ∧
      whole.cpu.cycles + combination.spared = apart.cpu.cycles) ∧
    ∀ {m' k between after k'}, Executes mnemonic (.memory address) m m' → Matches m k →
      Executes combination.first (.memory address) k between → Matches between after →
      Executes combination.second (combination.operand address) after k' → Matches m' k' := by
  intro whole apart
  have equal : whole.waited combination.spared = apart := m.perform_combination address parts
  have registers : whole.cpu.registers = apart.cpu.registers := by
    rw [← equal]
    rfl
  have bus : whole.bus = apart.bus := by
    rw [← equal]
    rfl
  refine ⟨⟨registers, bus, ?_⟩, fun {m' k between after k'} done same first same' second => ?_⟩
  · rw [← equal]
    rfl
  · obtain ⟨ignores, ignoresFirst, ignoresSecond⟩ := Mnemonic.ignoresPc parts
    -- Each execution matches the operation by itself, and these are the same.
    have one : Matches m' whole := done.matches (.alone m) ignores .refl
    have two : Matches whole apart := ⟨⟨_, by rw [registers]⟩, bus.symm⟩
    have three : Matches (m.perform (.memory address) combination.first.action) after :=
      ((Executes.alone m).matches first ignoresFirst same).trans same'
    exact one.trans (two.trans ((Executes.alone _).matches second ignoresSecond three))

/-- A byte rotated and added at once: the carry enters the byte, and the bit that leaves it enters
the sum. -/
theorem combination_of_parts_rra :
    let r : Registers := ⟨0x7F, 0x00, 0x00, 0xFD, 0x0200, Status.ofByte 0x01⟩
    let m : Machine FlatMemory := ⟨⟨r, 7, false, none⟩, FlatMemory.zero.set 0x0010 0x03⟩
    let whole := m.perform (.memory 0x0010) Mnemonic.rra.action
    let apart := (m.perform (.memory 0x0010) Mnemonic.ror.action).perform (.memory 0x0010)
      Mnemonic.adc.action
    Mnemonic.rra.combination = some ⟨.ror, .adc, false⟩ ∧ apart.cpu.registers.a = 0x01 ∧
      apart.cpu.registers.p.carry = true ∧ apart.bus.get 0x0010 = 0x81 ∧
      whole.cpu.cycles + 1 = apart.cpu.cycles := by
  intro r m whole apart
  have byte : m.bus.get 0x0010 = 0x03 := by simp [m, FlatMemory.get_set]
  obtain ⟨⟨registers, bus, cycles⟩, -⟩ :=
    m.combination_of_parts 0x0010 (show Mnemonic.rra.combination = _ from rfl)
  have registers : apart.cpu.registers =
      let changed := r.rotateRight (m.bus.get 0x0010)
      changed.2.add changed.1 := registers.symm
  have bus : apart.bus = (m.bus.set 0x0010 (m.bus.get 0x0010)).set 0x0010
      (r.rotateRight (m.bus.get 0x0010)).1 := bus.symm
  rw [byte] at registers bus
  have computed : let r : Registers := ⟨0x7F, 0x00, 0x00, 0xFD, 0x0200, Status.ofByte 0x01⟩
      let changed := r.rotateRight 0x03
      (changed.2.add changed.1).a = 0x01 ∧ (changed.2.add changed.1).p.carry = true ∧
        changed.1 = 0x81 := by
    decide
  obtain ⟨sum, carry, rotated⟩ := computed
  refine ⟨rfl, ?_, ?_, ?_, cycles⟩
  · rw [registers]
    exact sum
  · rw [registers]
    exact carry
  · rw [bus, FlatMemory.get_set, if_pos rfl]
    exact rotated

end Machine
end NesMachine
