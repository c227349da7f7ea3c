import NesMachine.Proofs.Processor.Effects
import NesMachine.Processor.Disassembly

/-!
# Finding an operand, as an effect

The place of an operand is a function of the registers and of what peeks show at the
operand bytes and pointers. `start` is always the address of the first operand byte, one past
the opcode.
-/
namespace NesMachine
namespace Mode

/-- The base and the index of the modes that add an index to a full address. -/
def indexing (view : View) (r : Registers) (start : UInt16) : Mode → Option (UInt16 × UInt8)
  | .absoluteX => some (Bus.peekWord view start, r.x)
  | .absoluteY => some (Bus.peekWord view start, r.y)
  | .indirectIndexed => some (Bus.peekZeroPageWord view (view start), r.y)
  | _ => none

def operand (view : View) (r : Registers) (start : UInt16) : Mode → Operand
  | .implied => .implied
  | .accumulator => .accumulator
  | .immediate => .memory start
  | .zeroPage => .memory (zeroPageAddress (view start))
  | .zeroPageX => .memory (zeroPageAddress (view start + r.x))
  | .zeroPageY => .memory (zeroPageAddress (view start + r.y))
  | .absolute => .memory (Bus.peekWord view start)
  | .absoluteX => .memory (Bus.peekWord view start + r.x.toUInt16)
  | .absoluteY => .memory (Bus.peekWord view start + r.y.toUInt16)
  | .indirect => .memory (Bus.peekWordInPage view (Bus.peekWord view start))
  | .indexedIndirect => .memory (Bus.peekZeroPageWord view (view start + r.x))
  | .indirectIndexed => .memory (Bus.peekZeroPageWord view (view start) + r.y.toUInt16)
  | .relative => .memory (displaced (start + 1) (view start))

def operandRequests (start : UInt16) : Mode → List Request
  | .implied | .accumulator | .immediate => []
  | .zeroPage | .zeroPageX | .zeroPageY | .indexedIndirect | .indirectIndexed | .relative =>
    [.read start]
  | .absolute | .absoluteX | .absoluteY | .indirect => [.read start, .read (start + 1)]

/-- The reads of the pointer in memory, its low byte first. -/
def pointerRequests (view : View) (r : Registers) (start : UInt16) : Mode → List Request
  | .indirect =>
    [.read (Bus.peekWord view start), .read (nextInPage (Bus.peekWord view start))]
  | .indexedIndirect =>
    [.read (zeroPageAddress (view start + r.x)), .read (zeroPageAddress (view start + r.x + 1))]
  | .indirectIndexed =>
    [.read (zeroPageAddress (view start)), .read (zeroPageAddress (view start + 1))]
  | _ => []

/-- The cycles without a call that a mode costs whatever it finds. -/
def fixedIdle : Mode → Nat
  | .implied | .accumulator | .zeroPageX | .zeroPageY | .indexedIndirect => 1
  | _ => 0

/-- The cycle for a carry into the high byte of an indexed address. -/
def carryIdle (view : View) (r : Registers) (start : UInt16) (access : Access) (mode : Mode) : Nat :=
  match mode.indexing view r start with
  | some (base, index) =>
    if access ≠ .read ∨ pageCrossed base (base + index.toUInt16) then 1 else 0
  | none => 0

def afterOperand (start : UInt16) (mode : Mode) : UInt16 := start + UInt16.ofNat (mode.size - 1)

def effect (view : View) (r : Registers) (start : UInt16) (access : Access) (mode : Mode) :
    Effect where
  registers := { r with pc := mode.afterOperand start }
  requests := mode.operandRequests start ++ mode.pointerRequests view r start
  idle := mode.fixedIdle + mode.carryIdle view r start access

@[simp] theorem registers_effect (view : View) (r : Registers) (start : UInt16)
    (access : Access) (mode : Mode) :
    (mode.effect view r start access).registers = { r with pc := mode.afterOperand start } := rfl

/-- Looking for an operand writes nothing. -/
@[simp] theorem serveAll_requests (view : View) (r : Registers) (start : UInt16)
    (access : Access) (mode : Mode) :
    Bus.serveAll view (mode.effect view r start access).requests = view := by
  cases mode <;> rfl

end Mode

namespace Machine

variable {β : Type} [Bus β]

theorem resolveIndexed_eq (m : Machine β) (base : UInt16) (index : UInt8) (access : Access) :
    m.resolveIndexed base index access = (.memory (base + index.toUInt16), m.undergo {
      registers := m.cpu.registers
      idle := if access ≠ .read ∨ pageCrossed base (base + index.toUInt16) then 1 else 0 }) := by
  by_cases carry : access ≠ .read ∨ pageCrossed base (base + index.toUInt16)
  · rw [resolveIndexed, if_pos carry, if_pos carry, look_snd, idle_eq]
  · rw [resolveIndexed, if_neg carry, if_neg carry]
    simp [undergo, Effect.cycles]

variable [PlainBus β]

theorem resolveZeroPageIndexed_eq (m : Machine β) (index : UInt8) :
    m.resolveZeroPageIndexed index =
      (.memory (zeroPageAddress (Bus.peek m.bus m.cpu.registers.pc + index)), m.undergo {
        registers := { m.cpu.registers with pc := m.cpu.registers.pc + 1 }
        requests := [.read m.cpu.registers.pc]
        idle := 1 }) := by
  simp [resolveZeroPageIndexed, fetch_eq, idle_eq]

/-- The operand found by running is the one told from memory and registers. -/
theorem resolve_eq (m : Machine β) (mode : Mode) (access : Access) :
    m.resolve mode access =
      (mode.operand (Bus.peek m.bus) m.cpu.registers m.cpu.registers.pc,
        m.undergo (mode.effect (Bus.peek m.bus) m.cpu.registers m.cpu.registers.pc access)) := by
  cases mode <;>
    simp [resolve, Mode.operand, Mode.effect, Mode.afterOperand, Mode.size, Mode.fixedIdle,
      Mode.carryIdle, Mode.indexing, Mode.operandRequests, Mode.pointerRequests, idle_eq,
      mapRegisters_eq, fetch_eq, fetchWord_eq, readWordInPage_eq, readZeroPageWord_eq,
      resolveIndexed_eq, resolveZeroPageIndexed_eq, add_one_add_one]

end Machine
end NesMachine
