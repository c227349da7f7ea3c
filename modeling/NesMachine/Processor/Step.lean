import NesMachine.Processor.Action
import NesMachine.Processor.Interrupt
import NesMachine.Processor.Operand

/-!
# Execution

One step is one whole instruction: fetch the opcode, find the operand, and perform the
operation's action on it.
-/
namespace NesMachine.Machine

variable {β : Type} [Bus β]

/-- The byte in an operand. An implied operand holds no byte, and zero stands for it. -/
@[specialize]
def load (m : Machine β) : Operand → UInt8 × Machine β
  | .memory address => m.read address
  | .accumulator => (m.cpu.registers.a, m)
  | .implied => (0, m)

/-- Puts a byte into an operand. An implied operand takes none. -/
@[specialize]
def store (m : Machine β) (operand : Operand) (value : UInt8) : Machine β :=
  match operand with
  | .memory address => m.write address value
  | .accumulator => m.mapRegisters fun r => { r with a := value }
  | .implied => m

/-- Puts a byte anded with the high byte of the unindexed address plus one into memory.
When the index left the page, what is written replaces the high byte of the address. -/
@[specialize]
def storeMasked (m : Machine β) (address : UInt16) (index value : UInt8) : Machine β :=
  let base := address - index.toUInt16
  let masked := value &&& (highByte base + 1)
  let address := if pageCrossed base address then wordOf (lowByte address) masked else address
  m.write address masked

/-- Changes the byte in an operand and gives the changed byte. A byte in memory is written
back unchanged before it is written for good. -/
@[specialize]
def modify (m : Machine β) (operand : Operand)
    (change : Registers → UInt8 → UInt8 × Registers) : UInt8 × Machine β :=
  match operand with
  | .memory address =>
    let (old, m) := m.read address
    let m := m.write address old
    let (new, registers) := change m.cpu.registers old
    (new, (m.mapRegisters fun _ => registers).write address new)
  | .accumulator =>
    let (new, registers) := change m.cpu.registers m.cpu.registers.a
    (new, m.mapRegisters fun _ => { registers with a := new })
  | .implied => (0, m)

/-- Goes on at the target of a branch: one cycle, and another if the target lies on
another page than the instruction after the branch. -/
@[specialize]
def branch (m : Machine β) (target : UInt16) : Machine β :=
  let penalty := pageCrossed m.cpu.registers.pc target
  let m := m.idle
  (if penalty then m.idle else m).jump target

@[specialize]
def perform (m : Machine β) (operand : Operand) : Action → Machine β
  | .consume update =>
    let (value, m) := m.load operand
    m.mapRegisters fun r => update r value
  | .store value => m.store operand (value m.cpu.registers)
  | .storeMasked index value update =>
    let r := m.cpu.registers
    (m.mapRegisters update).storeMasked operand.address (index r) (value r)
  | .modify change update =>
    let (value, m) := m.modify operand change
    m.mapRegisters fun r => update r value
  | .internal update => m.mapRegisters update
  | .push value => m.push (value m.cpu.registers)
  | .pull update =>
    let (value, m) := m.idle.pull
    m.mapRegisters fun r => update r value
  | .branch taken => if taken m.cpu.registers then m.branch operand.address else m
  | .jump => m.jump operand.address
  | .call => (m.idle.pushWord (m.cpu.registers.pc - 1)).jump operand.address
  | .returnFromCall =>
    let (address, m) := m.idle.pullWord
    m.idle.jump (address + 1)
  | .returnFromInterrupt =>
    let (p, m) := m.idle.pull
    let m := m.mapRegisters fun r => { r with p := .ofByte p }
    let (address, m) := m.pullWord
    m.jump address
  | .interrupt => m.enterInterrupt irqVector (m.cpu.registers.pc + 1) true
  | .nothing =>
    match operand with
    | .memory address => (m.look address).2
    | .implied | .accumulator => m
  | .jam => { m with cpu := { m.cpu with halted := true } }

/-- Adds a line to the trace if instructions are being traced. -/
@[specialize]
def traceInstruction (m : Machine β) : Machine β :=
  match m.cpu.trace with
  | none => m
  | some lines =>
    let line := TraceLine.capture m.bus m.cpu.registers m.cpu.cycles
    { m with cpu := { m.cpu with trace := some (lines.push line) } }

@[specialize]
def execute (m : Machine β) : Machine β :=
  let (opcode, m) := m.fetch
  let instruction := Instruction.decode opcode
  let (operand, m) := m.resolve instruction.mode instruction.mnemonic.access
  m.perform operand instruction.mnemonic.action

/-- One step: the next instruction, or nothing if the processor is jammed. -/
@[specialize]
def step (m : Machine β) : Machine β :=
  if m.cpu.halted then m else m.traceInstruction.execute

/-- Takes up to `count` steps after the `taken` ones already made, and stops after the
first that leaves the processor jammed. -/
@[specialize]
def runFrom (m : Machine β) (taken : Nat) : (count : Nat) → Nat × Machine β
  | 0 => (taken, m)
  | count + 1 =>
    let m := m.step
    if m.cpu.halted then (taken + 1, m) else m.runFrom (taken + 1) count

/-- Takes up to `count` steps and stops after the first that leaves the processor jammed.
Gives the number of steps taken. -/
@[specialize]
def run (m : Machine β) (count : Nat) : Nat × Machine β := m.runFrom 0 count

@[specialize]
def startTrace (m : Machine β) : Machine β :=
  { m with cpu := { m.cpu with trace := some #[] } }

@[specialize]
def stopTrace (m : Machine β) : Machine β :=
  { m with cpu := { m.cpu with trace := none } }

/-- The lines traced since they were last taken, and the machine with none of them. -/
@[specialize]
def takeTrace (m : Machine β) : Array TraceLine × Machine β :=
  match m.cpu.trace with
  | none => (#[], m)
  | some lines => (lines, { m with cpu := { m.cpu with trace := some #[] } })

end NesMachine.Machine
