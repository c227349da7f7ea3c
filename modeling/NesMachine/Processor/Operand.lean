import NesMachine.Processor.Machine

/-!
# Operands

Finding where an instruction's operand is. Doing so reads the operand's bytes and pointers
and takes the cycles that the mode costs; the operand itself is left for the operation to
read or write.
-/
namespace NesMachine

inductive Operand where
  /-- Nowhere: the operation names all it works on. -/
  | implied
  /-- In the accumulator. -/
  | accumulator
  /-- At an address; for jumps and branches this is where they go. -/
  | memory (address : UInt16)
  deriving DecidableEq, Repr

/-- The address of an operand in memory; zero stands for the operands that have none. -/
def Operand.address : Operand → UInt16
  | .memory address => address
  | .implied | .accumulator => 0

namespace Machine

variable {β : Type} [Bus β]

/-- An operand in page zero moved by an index, which takes a cycle to add. -/
@[specialize]
def resolveZeroPageIndexed (m : Machine β) (index : UInt8) : Operand × Machine β :=
  let (base, m) := m.fetch
  (.memory (zeroPageAddress (base + index)), (m.look (zeroPageAddress base)).2)

/-- An operand at a base address moved by an index. Carrying into the high byte takes a
cycle, in which the address without the carry is looked at; it is saved only when a reading
instruction needs no carry. -/
@[specialize]
def resolveIndexed (m : Machine β) (base : UInt16) (index : UInt8) (access : Access) :
    Operand × Machine β :=
  let address := base + index.toUInt16
  let uncarried := wordOf (lowByte address) (highByte base)
  (.memory address,
    if access ≠ .read ∨ pageCrossed base address then (m.look uncarried).2 else m)

/-- Finds the operand of an instruction whose opcode has just been fetched. -/
@[specialize]
def resolve (m : Machine β) (mode : Mode) (access : Access) : Operand × Machine β :=
  match mode with
  | .implied => (.implied, (m.look m.cpu.registers.pc).2)
  | .accumulator => (.accumulator, (m.look m.cpu.registers.pc).2)
  | .immediate =>
    (.memory m.cpu.registers.pc, m.mapRegisters fun r => { r with pc := r.pc + 1 })
  | .zeroPage =>
    let (base, m) := m.fetch
    (.memory (zeroPageAddress base), m)
  | .zeroPageX => m.resolveZeroPageIndexed m.cpu.registers.x
  | .zeroPageY => m.resolveZeroPageIndexed m.cpu.registers.y
  | .absolute =>
    let (address, m) := m.fetchWord
    (.memory address, m)
  | .absoluteX =>
    let (base, m) := m.fetchWord
    m.resolveIndexed base m.cpu.registers.x access
  | .absoluteY =>
    let (base, m) := m.fetchWord
    m.resolveIndexed base m.cpu.registers.y access
  | .indirect =>
    let (pointer, m) := m.fetchWord
    let (address, m) := m.readWordInPage pointer
    (.memory address, m)
  | .indexedIndirect =>
    let (base, m) := m.fetch
    let m := (m.look (zeroPageAddress base)).2
    let (address, m) := m.readZeroPageWord (base + m.cpu.registers.x)
    (.memory address, m)
  | .indirectIndexed =>
    let (pointer, m) := m.fetch
    let (base, m) := m.readZeroPageWord pointer
    m.resolveIndexed base m.cpu.registers.y access
  | .relative =>
    let (offset, m) := m.fetch
    (.memory (displaced m.cpu.registers.pc offset), m)

end Machine
end NesMachine
