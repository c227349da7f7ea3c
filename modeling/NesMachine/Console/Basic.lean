import NesMachine.Console.AddressMap
import NesMachine.Console.Settings
import NesMachine.Processor.Step
import NesMachine.Text.Utf8

/-!
# The console

A processor on the bus of the console. A step that runs into a fault on a strict bus is
carried out completely and then reported as an error; the console can go on from there.
What a console does that is worth telling but no error is kept in its journal.
-/
namespace NesMachine

/-- What is kept of a console's log: the traced instructions and the warnings. Reports of its
progress (powered on, a cartridge loaded, the processor reset or jammed, a reset requested or
pressed, a program running) are left out, as nothing that is decided or told depends on them. -/
inductive Event where
  /-- An instruction is about to run. -/
  | instruction (line : TraceLine)
  /-- A lenient bus has ignored a fault. -/
  | ignoredFault (fault : BusFault)
  /-- The tail of an image header is not empty. -/
  | dirtyTail
  deriving DecidableEq, Repr

def Event.render : Event → String
  | .instruction line => "TRACE nes_console::cpu: " ++ line.render
  | .ignoredFault fault => "WARN nes_console::bus: ignoring bus fault fault=" ++ fault.message
  | .dirtyTail =>
    "WARN nes_cartridge::ines: dirty iNES header tail, ignoring mapper high nibble"

inductive ConsoleError where
  | cartridge (cause : CartridgeError)
  | memoryFault (cause : BusFault)
  | jammed (pc : UInt16) (opcode : UInt8)
  | timeout (cycles : Nat)
  deriving DecidableEq, Repr

namespace ConsoleError

def message : ConsoleError → String
  | .cartridge cause => "cartridge: " ++ cause.message
  | .memoryFault cause => "memory fault: " ++ cause.message
  | .jammed pc opcode =>
    "CPU jammed by opcode $" ++ Text.hexByte opcode ++ " at $" ++ Text.hexWord pc
  | .timeout cycles => "no result after " ++ cycles.repr ++ " cycles"

/-- The text of an error followed by the text of its cause, if it has one. -/
def chain (e : ConsoleError) : List String :=
  match e with
  | .cartridge cause => [e.message, cause.message]
  | .memoryFault cause => [e.message, cause.message]
  | .jammed .. | .timeout .. => [e.message]

end ConsoleError

structure Console where
  machine : Machine ConsoleBus
  region : Region
  /-- Whether traced instructions go to the journal. -/
  journalsInstructions : Bool
  /-- What there is to tell, the oldest first. -/
  journal : Array Event

namespace Console

def powerOn (settings : Settings) : Except ConsoleError Console :=
  match Cartridge.ofImage settings.image with
  | .error e => .error (.cartridge e)
  | .ok cartridge =>
    let machine := Machine.powerOn (ConsoleBus.powerOn cartridge settings.strictMemory)
    .ok {
      machine := if settings.traceInstructions then machine.startTrace else machine
      region := settings.region
      journalsInstructions := settings.traceInstructions
      journal := #[] }

def cpu (c : Console) : Cpu := c.machine.cpu

def bus (c : Console) : ConsoleBus := c.machine.bus

def cycles (c : Console) : Nat := c.machine.cpu.cycles

def pc (c : Console) : UInt16 := c.machine.cpu.registers.pc

/-- The byte at an address, looked at without any effect. -/
def peek (c : Console) (address : UInt16) : UInt8 := c.machine.bus.peek address

def mapMachine (c : Console) (f : Machine ConsoleBus → Machine ConsoleBus) : Console :=
  { c with machine := f c.machine }

/-- Presses the reset button; all memories keep what they hold. -/
def reset (c : Console) : Console := c.mapMachine Machine.reset

def nmi (c : Console) : Console := c.mapMachine Machine.nmi

/-- Requests a maskable interrupt, and tells whether it was taken. -/
def irq (c : Console) : Bool × Console :=
  let (taken, machine) := c.machine.irq
  (taken, { c with machine })

def jump (c : Console) (address : UInt16) : Console := c.mapMachine (·.jump address)

/-- Reads from the bus as the processor would, but takes no time. -/
def read (c : Console) (address : UInt16) : UInt8 × Console :=
  let (value, bus) := c.machine.bus.read address
  (value, { c with machine := { c.machine with bus } })

/-- Writes to the bus as the processor would, but takes no time. -/
def write (c : Console) (address : UInt16) (value : UInt8) : Console :=
  { c with machine := { c.machine with bus := c.machine.bus.write address value } }

/-- Writes bytes one after the other from an address on, wrapping at the top of the address
space. -/
def load (c : Console) (address : UInt16) : List UInt8 → Console
  | [] => c
  | byte :: rest => (c.write address byte).load (address + 1) rest

/-- Takes the fault that a strict bus has kept. -/
def takeFault (c : Console) : Option BusFault × Console :=
  let (fault, bus) := c.machine.bus.takeFault
  (fault, { c with machine := { c.machine with bus } })

/-- Traces instructions for the host from now on, and no longer for the journal. -/
def startTrace (c : Console) : Console :=
  { c with machine := c.machine.startTrace, journalsInstructions := false }

/-- The lines traced for the host since they were last taken. -/
def takeTrace (c : Console) : Array TraceLine × Console :=
  if c.journalsInstructions then (#[], c)
  else
    let (lines, machine) := c.machine.takeTrace
    (lines, { c with machine })

/-- Moves the traced instructions into the journal, if that is where they go. -/
def noteInstructions (c : Console) : Console :=
  if c.journalsInstructions then
    let (lines, machine) := c.machine.takeTrace
    { c with machine, journal := c.journal ++ lines.map .instruction }
  else c

def noteFaults (c : Console) : Console :=
  if c.machine.bus.ignored.isEmpty then c
  else
    let (faults, bus) := c.machine.bus.takeIgnored
    { c with
      machine := { c.machine with bus }
      journal := c.journal ++ faults.map .ignoredFault }

/-- Runs one instruction, and notes it before the faults that it ran into. Tells whether the
processor is jammed, unless a fault is found to be kept on the bus. -/
def step (c : Console) : Except ConsoleError Bool × Console :=
  let c := (c.mapMachine Machine.step).noteInstructions.noteFaults
  match c.machine.bus.fault with
  | none => (.ok c.machine.cpu.halted, c)
  | some fault => (.error (.memoryFault fault), c.takeFault.2)

/-- The most bytes that are looked at for the end of a string. -/
def maxStringSize : Nat := 4096

/-- The text that begins at an address and ends before a zero byte. -/
def textAt (c : Console) (address : UInt16) : String :=
  let bytes := Bus.peekMany c.machine.bus address maxStringSize
  Text.decodeUtf8 (bytes.takeWhile (· ≠ 0))

end Console
end NesMachine
