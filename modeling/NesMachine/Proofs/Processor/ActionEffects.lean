import NesMachine.Processor.Step
import NesMachine.Proofs.Processor.OperandEffects

/-!
# Actions, interrupts and steps, as effects

What an action does to the registers, the bus and the clock, given where its operand is.
An instruction is then the fetch of its opcode, the finding of its operand and its action,
one after the other. Nothing is read after a write except the vectors of interrupts, which
lie outside the stack page, so every byte can be taken from memory as it was before.
-/
namespace NesMachine

/-! The stack page. -/

theorem toNat_stackSlot (s : UInt8) : (stackSlot s).toNat = 256 + s.toNat := by
  have := s.toNat_lt
  simp only [stackSlot, UInt16.toNat_add, UInt8.toNat_toUInt16, UInt16.reduceToNat]
  omega

@[simp] theorem stackSlot_inj (s t : UInt8) : stackSlot s = stackSlot t ↔ s = t := by
  constructor
  · intro h
    have := congrArg UInt16.toNat h
    simp only [toNat_stackSlot] at this
    exact UInt8.toNat_inj.mp (by omega)
  · exact congrArg stackSlot

theorem highByte_stackSlot (s : UInt8) : highByte (stackSlot s) = 1 := by
  apply UInt8.toNat_inj.mp
  have := s.toNat_lt
  simp only [toNat_highByte, toNat_stackSlot, UInt8.reduceToNat]
  omega

theorem ne_stackSlot {a : UInt16} (outside : highByte a ≠ 1) (s : UInt8) : a ≠ stackSlot s := by
  rintro rfl
  exact outside (highByte_stackSlot s)

/-- A push is not seen outside the stack page. -/
theorem write_stackSlot_of_ne (view : View) (s v : UInt8) {a : UInt16} (h : highByte a ≠ 1) :
    Bus.write view (stackSlot s) v a = view a := by
  have differ : stackSlot s ≠ a := (ne_stackSlot h s).symm
  rw [Bus.write_view, if_neg differ]

theorem highByte_nextInPage (a : UInt16) : highByte (nextInPage a) = highByte a := by
  simp [nextInPage]

namespace Operand

/-- The byte in an operand; zero stands for the operands that hold none. -/
def byte (view : View) (r : Registers) : Operand → UInt8
  | .memory a => view a
  | .accumulator => r.a
  | .implied => 0

def requests : Operand → List Request
  | .memory a => [.read a]
  | .accumulator | .implied => []

end Operand

/-- The byte that a masked store writes. -/
def maskedByte (address : UInt16) (index value : UInt8) : UInt8 :=
  value &&& (highByte (address - index.toUInt16) + 1)

def maskedAddress (address : UInt16) (index value : UInt8) : UInt16 :=
  if pageCrossed (address - index.toUInt16) address
  then wordOf (lowByte address) (maskedByte address index value) else address

/-- What entering an interrupt handler does. -/
def interruptEffect (view : View) (r : Registers) (vector returnAddress : UInt16)
    (byInstruction : Bool) : Effect where
  registers := { r with
    s := r.s - 3
    pc := Bus.peekWordInPage view vector
    p := { r.p with interruptDisable := true } }
  requests := [
    .write (stackSlot r.s) (highByte returnAddress),
    .write (stackSlot (r.s - 1)) (lowByte returnAddress),
    .write (stackSlot (r.s - 2)) (r.p.pushed byInstruction),
    .read vector, .read (nextInPage vector)]

/-- What an action does once its operand has been found. -/
def Action.effect (view : View) (r : Registers) (operand : Operand) : Action → Effect
  | .consume update =>
    { registers := update r (operand.byte view r), requests := operand.requests }
  | .store value => match operand with
    | .memory a => { registers := r, requests := [.write a (value r)] }
    | .accumulator => { registers := { r with a := value r } }
    | .implied => { registers := r }
  | .storeMasked index value update =>
    { registers := update r
      requests := [.write (maskedAddress operand.address (index r) (value r))
        (maskedByte operand.address (index r) (value r))] }
  | .modify change update =>
    let (new, r') := change r (operand.byte view r)
    match operand with
    | .memory a =>
      { registers := update r' new, requests := [.read a, .write a (view a), .write a new] }
    | .accumulator => { registers := update { r' with a := new } new }
    | .implied => { registers := update r 0 }
  | .internal update => { registers := update r }
  | .push value =>
    { registers := { r with s := r.s - 1 }, requests := [.write (stackSlot r.s) (value r)] }
  | .pull update =>
    { registers := update { r with s := r.s + 1 } (view (stackSlot (r.s + 1)))
      requests := [.read (stackSlot (r.s + 1))]
      idle := 1 }
  | .branch taken =>
    if taken r then
      { registers := { r with pc := operand.address }
        idle := if pageCrossed r.pc operand.address then 2 else 1 }
    else { registers := r }
  | .jump => { registers := { r with pc := operand.address } }
  | .call =>
    { registers := { r with s := r.s - 2, pc := operand.address }
      requests := [.write (stackSlot r.s) (highByte (r.pc - 1)),
        .write (stackSlot (r.s - 1)) (lowByte (r.pc - 1))]
      idle := 1 }
  | .returnFromCall =>
    { registers := { r with
        s := r.s + 2
        pc := wordOf (view (stackSlot (r.s + 1))) (view (stackSlot (r.s + 2))) + 1 }
      requests := [.read (stackSlot (r.s + 1)), .read (stackSlot (r.s + 2))]
      idle := 2 }
  | .returnFromInterrupt =>
    { registers := { r with
        s := r.s + 3
        p := .ofByte (view (stackSlot (r.s + 1)))
        pc := wordOf (view (stackSlot (r.s + 2))) (view (stackSlot (r.s + 3))) }
      requests := [.read (stackSlot (r.s + 1)), .read (stackSlot (r.s + 2)),
        .read (stackSlot (r.s + 3))]
      idle := 1 }
  | .interrupt => interruptEffect view r irqVector (r.pc + 1) true
  | .nothing => { registers := r, idle := operand.requests.length }
  | .jam => { registers := r, jams := true }

namespace Machine

variable {β : Type} [Bus β]

theorem eq_undergo_registers (m : Machine β) : m = m.undergo { registers := m.cpu.registers } := by
  simp [undergo, Effect.cycles]

theorem storeMasked_eq (m : Machine β) (address : UInt16) (index value : UInt8) :
    m.storeMasked address index value = m.undergo {
      registers := m.cpu.registers
      requests := [.write (maskedAddress address index value)
        (maskedByte address index value)] } := by
  simp [storeMasked, write_eq, maskedAddress, maskedByte]

variable [PlainBus β]

theorem enterInterrupt_eq (m : Machine β) {vector : UInt16} (returnAddress : UInt16)
    (byInstruction : Bool) (outside : highByte vector ≠ 1) :
    m.enterInterrupt vector returnAddress byInstruction = m.undergo
      (interruptEffect (Bus.peek m.bus) m.cpu.registers vector returnAddress byInstruction) := by
  have outside' : highByte (nextInPage vector) ≠ 1 := by rwa [highByte_nextInPage]
  simp [enterInterrupt, pushWord_eq, push_eq, mapRegisters_eq, readWordInPage_eq, jump_eq,
    interruptEffect, Bus.peekWordInPage, write_stackSlot_of_ne _ _ _ outside,
    write_stackSlot_of_ne _ _ _ outside', sub_one_sub_one, sub_two_sub_one]

theorem load_eq (m : Machine β) (operand : Operand) :
    m.load operand = (operand.byte (Bus.peek m.bus) m.cpu.registers, m.undergo {
      registers := m.cpu.registers
      requests := operand.requests }) := by
  cases operand with
  | memory a => simp [load, read_eq, Operand.byte, Operand.requests]
  | accumulator => simpa [load, Operand.byte, Operand.requests] using m.eq_undergo_registers
  | implied => simpa [load, Operand.byte, Operand.requests] using m.eq_undergo_registers

/-- Performing an action has the action's effect. -/
theorem perform_eq (m : Machine β) (operand : Operand) (action : Action) :
    m.perform operand action =
      m.undergo (action.effect (Bus.peek m.bus) m.cpu.registers operand) := by
  have two (s : UInt8) : s + 1 + 1 = s + 2 := by grind
  have three (s : UInt8) : s + 2 + 1 = s + 3 := by grind
  cases action with
  | consume update => simp [perform, load_eq, mapRegisters_eq, Action.effect]
  | store value =>
    cases operand <;> simp [perform, store, write_eq, mapRegisters_eq, Action.effect]
    exact m.eq_undergo_registers
  | storeMasked index value update =>
    simp [perform, mapRegisters_eq, storeMasked_eq, Action.effect]
  | modify change update =>
    cases operand <;>
      simp [perform, modify, read_eq, write_eq, mapRegisters_eq, Action.effect, Operand.byte]
  | internal update => simp [perform, mapRegisters_eq, Action.effect]
  | push value => simp [perform, push_eq, Action.effect]
  | pull update => simp [perform, idle_eq, pull_eq, mapRegisters_eq, Action.effect]
  | branch taken =>
    by_cases h : taken m.cpu.registers
    · by_cases crossed : pageCrossed m.cpu.registers.pc operand.address
      · simp [perform, branch, h, crossed, idle_eq, jump_eq, Action.effect]
      · simp [perform, branch, h, crossed, idle_eq, jump_eq, Action.effect]
    · simpa [perform, h, Action.effect] using m.eq_undergo_registers
  | jump => simp [perform, jump_eq, Action.effect]
  | call => simp [perform, idle_eq, pushWord_eq, jump_eq, Action.effect, sub_one_sub_one]
  | returnFromCall => simp [perform, idle_eq, pullWord_eq, jump_eq, Action.effect, two]
  | returnFromInterrupt =>
    simp [perform, idle_eq, pull_eq, pullWord_eq, mapRegisters_eq, jump_eq, Action.effect, two,
      three]
  | interrupt =>
    have outside : highByte irqVector ≠ 1 := by decide
    rw [perform, enterInterrupt_eq m _ _ outside, Action.effect]
  | nothing =>
    cases operand with
    | memory a => simp [perform, idle_eq, Action.effect, Operand.requests]
    | accumulator => exact m.eq_undergo_registers
    | implied => exact m.eq_undergo_registers
  | jam => simp [perform, Action.effect, undergo, Effect.cycles]

end Machine
end NesMachine
