import NesMachine.Processor.Machine

/-!
# Interrupts and reset

The software interrupt and the two requests by devices enter their handler in one way and
differ in the vector, the return address and one bit of the pushed status. A reset moves
the stack pointer as an interrupt would, and writes nothing.
-/
namespace NesMachine

/-- Where the address of the handler for non-maskable requests is stored. -/
def nmiVector : UInt16 := 0xFFFA

/-- Where the address at which a reset starts is stored. -/
def resetVector : UInt16 := 0xFFFC

/-- Where the address of the handler for maskable requests and the software interrupt is
stored. -/
def irqVector : UInt16 := 0xFFFE

namespace Machine

variable {β : Type} [Bus β]

/-- Pushes the return address and the status, disables maskable requests and goes on at
the handler: five cycles. -/
@[specialize]
def enterInterrupt (m : Machine β) (vector returnAddress : UInt16) (byInstruction : Bool) :
    Machine β :=
  let m := m.pushWord returnAddress
  let m := m.push (m.cpu.registers.p.pushed byInstruction)
  let m := m.mapRegisters fun r => { r with p := { r.p with interruptDisable := true } }
  let (handler, m) := m.readWordInPage vector
  m.jump handler

/-- A maskable request: whether it was taken, and the machine after it. It is refused while
such requests are disabled and while the processor is jammed. -/
@[specialize]
def irq (m : Machine β) : Bool × Machine β :=
  if m.cpu.halted || m.cpu.registers.p.interruptDisable then (false, m)
  else (true, m.idle.idle.enterInterrupt irqVector m.cpu.registers.pc false)

/-- A non-maskable request, refused only while the processor is jammed. -/
@[specialize]
def nmi (m : Machine β) : Machine β :=
  if m.cpu.halted then m
  else m.idle.idle.enterInterrupt nmiVector m.cpu.registers.pc false

/-- A reset: the stack pointer moves down by three, maskable requests are disabled, and
the processor, jammed or not, starts at the address stored for resets. -/
@[specialize]
def reset (m : Machine β) : Machine β :=
  let m := m.idle.idle.idle.idle.idle
  let m := m.mapRegisters fun r =>
    { r with s := r.s - 3, p := { r.p with interruptDisable := true } }
  let (start, m) := m.readWordInPage resetVector
  let m := m.jump start
  { m with cpu := { m.cpu with halted := false } }

/-- A machine that has been switched on and has gone through its first reset. -/
@[specialize]
def powerOn (bus : β) : Machine β :=
  reset ⟨⟨.powerOn, 0, false, none⟩, bus⟩

end Machine
end NesMachine
