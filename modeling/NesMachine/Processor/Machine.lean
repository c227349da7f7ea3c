import NesMachine.Processor.Trace

/-!
# The processor on its bus

A processor and the bus it works on, and the elementary cycles that all instructions are
made of. Every read, every write and every internal cycle takes one unit of time. The
throwaway reads of the hardware only look at a byte, so that no device notices them.
-/
namespace NesMachine

structure Cpu where
  registers : Registers
  /-- The cycles elapsed since power-on. -/
  cycles : Nat
  /-- Whether an instruction has jammed the processor; only a reset ends that. -/
  halted : Bool
  /-- The lines traced so far, the oldest first, if instructions are being traced. -/
  trace : Option (Array TraceLine)
  deriving DecidableEq, Repr

structure Machine (β : Type) where
  cpu : Cpu
  bus : β

namespace Machine

variable {β : Type} [Bus β]

@[inline]
def mapRegisters (m : Machine β) (f : Registers → Registers) : Machine β :=
  { m with cpu := { m.cpu with registers := f m.cpu.registers } }

@[inline]
def jump (m : Machine β) (address : UInt16) : Machine β :=
  m.mapRegisters fun r => { r with pc := address }

@[inline]
def idle (m : Machine β) : Machine β :=
  { m with cpu := { m.cpu with cycles := m.cpu.cycles + 1 } }

@[inline]
def read (m : Machine β) (address : UInt16) : UInt8 × Machine β :=
  let (value, bus) := Bus.read m.bus address
  (value, { m with bus }.idle)

@[inline]
def write (m : Machine β) (address : UInt16) (value : UInt8) : Machine β :=
  { m with bus := Bus.write m.bus address value }.idle

/-- Looks at a byte, which takes the time of a read. -/
@[inline]
def look (m : Machine β) (address : UInt16) : UInt8 × Machine β :=
  (Bus.peek m.bus address, m.idle)

/-- A byte that is looked at and dropped leaves an internal cycle. -/
@[simp] theorem look_snd (m : Machine β) (address : UInt16) : (m.look address).2 = m.idle := rfl

/-- Reads the byte at the program counter and steps over it. -/
@[specialize]
def fetch (m : Machine β) : UInt8 × Machine β :=
  let (value, m) := m.read m.cpu.registers.pc
  (value, m.mapRegisters fun r => { r with pc := r.pc + 1 })

/-- Reads the word at the program counter and steps over it. -/
@[specialize]
def fetchWord (m : Machine β) : UInt16 × Machine β :=
  let (low, m) := m.fetch
  let (high, m) := m.fetch
  (wordOf low high, m)

/-- Reads the word at a pointer whose high byte lies on the page of its low byte. -/
@[specialize]
def readWordInPage (m : Machine β) (pointer : UInt16) : UInt16 × Machine β :=
  let (low, m) := m.read pointer
  let (high, m) := m.read (nextInPage pointer)
  (wordOf low high, m)

/-- Reads the word at a pointer in page zero, which wraps within that page. -/
@[specialize]
def readZeroPageWord (m : Machine β) (pointer : UInt8) : UInt16 × Machine β :=
  let (low, m) := m.read (zeroPageAddress pointer)
  let (high, m) := m.read (zeroPageAddress (pointer + 1))
  (wordOf low high, m)

@[specialize]
def push (m : Machine β) (value : UInt8) : Machine β :=
  let (address, registers) := m.cpu.registers.push
  (m.mapRegisters fun _ => registers).write address value

@[specialize]
def pull (m : Machine β) : UInt8 × Machine β :=
  let (address, registers) := m.cpu.registers.pop
  (m.mapRegisters fun _ => registers).read address

/-- Pushes a word on the stack, its high byte first. -/
@[specialize]
def pushWord (m : Machine β) (value : UInt16) : Machine β :=
  (m.push (highByte value)).push (lowByte value)

/-- Pulls a word from the stack, its low byte first. -/
@[specialize]
def pullWord (m : Machine β) : UInt16 × Machine β :=
  let (low, m) := m.pull
  let (high, m) := m.pull
  (wordOf low high, m)

end Machine
end NesMachine
