import NesMachine.Processor.Operand
import NesMachine.Proofs.Bus.Requests

/-!
# Effects of execution

What a stretch of execution does on a plain bus is told by four things: the registers it
leaves, the requests it makes, the internal cycles it spends and whether it jams. Every
request takes a cycle as well, so an effect also says how long it takes. All of them are
found from the registers and the memory shown by peeks, without running anything.
-/
namespace NesMachine

/-! Addresses and stack pointers move by single steps. -/

theorem add_one_add_one (a : UInt16) : a + 1 + 1 = a + 2 := UInt16.add_assoc a 1 1

theorem sub_one_sub_one (s : UInt8) : s - 1 - 1 = s - 2 := by grind

theorem sub_two_sub_one (s : UInt8) : s - 2 - 1 = s - 3 := by grind

/-- What a stretch of execution does. -/
structure Effect where
  registers : Registers
  /-- The calls on the bus, in order. -/
  requests : List Request := []
  /-- The cycles without a call. -/
  idle : Nat := 0
  /-- Whether the processor is jammed by it. -/
  jams : Bool := false

namespace Effect

/-- The time an effect takes. -/
def cycles (e : Effect) : Nat := e.requests.length + e.idle

/-- One effect and then another. -/
def andThen (e f : Effect) : Effect where
  registers := f.registers
  requests := e.requests ++ f.requests
  idle := e.idle + f.idle
  jams := e.jams || f.jams

@[simp] theorem andThen_mk (r r' : Registers) (requests requests' : List Request)
    (idle idle' : Nat) (jams jams' : Bool) :
    andThen ⟨r, requests, idle, jams⟩ ⟨r', requests', idle', jams'⟩ =
      ⟨r', requests ++ requests', idle + idle', jams || jams'⟩ := rfl

@[simp] theorem registers_andThen (e f : Effect) : (e.andThen f).registers = f.registers := rfl

@[simp] theorem requests_andThen (e f : Effect) :
    (e.andThen f).requests = e.requests ++ f.requests := rfl

@[simp] theorem jams_andThen (e f : Effect) : (e.andThen f).jams = (e.jams || f.jams) := rfl

theorem andThen_assoc (e f g : Effect) : (e.andThen f).andThen g = e.andThen (f.andThen g) := by
  simp [andThen, Nat.add_assoc, Bool.or_assoc]

@[simp] theorem cycles_andThen (e f : Effect) :
    (e.andThen f).cycles = e.cycles + f.cycles := by
  simp only [cycles, andThen, List.length_append]
  omega

end Effect

namespace Machine

variable {β : Type} [Bus β]

def undergo (m : Machine β) (e : Effect) : Machine β where
  cpu := { m.cpu with
    registers := e.registers
    cycles := m.cpu.cycles + e.cycles
    halted := m.cpu.halted || e.jams }
  bus := Bus.serveAll m.bus e.requests

@[simp] theorem registers_undergo (m : Machine β) (e : Effect) :
    (m.undergo e).cpu.registers = e.registers := rfl

@[simp] theorem cycles_undergo (m : Machine β) (e : Effect) :
    (m.undergo e).cpu.cycles = m.cpu.cycles + e.cycles := rfl

@[simp] theorem halted_undergo (m : Machine β) (e : Effect) :
    (m.undergo e).cpu.halted = (m.cpu.halted || e.jams) := rfl

@[simp] theorem bus_undergo (m : Machine β) (e : Effect) :
    (m.undergo e).bus = Bus.serveAll m.bus e.requests := rfl

@[simp] theorem undergo_undergo (m : Machine β) (e f : Effect) :
    (m.undergo e).undergo f = m.undergo (e.andThen f) := by
  simp [undergo, Effect.andThen, Effect.cycles, Bool.or_assoc]
  omega

/-! The elementary cycles as effects. -/

theorem mapRegisters_eq (m : Machine β) (f : Registers → Registers) :
    m.mapRegisters f = m.undergo { registers := f m.cpu.registers } := by
  simp [mapRegisters, undergo, Effect.cycles]

theorem jump_eq (m : Machine β) (address : UInt16) :
    m.jump address = m.undergo { registers := { m.cpu.registers with pc := address } } := by
  simp [jump, mapRegisters_eq]

theorem idle_eq (m : Machine β) :
    m.idle = m.undergo { registers := m.cpu.registers, idle := 1 } := by
  simp [idle, undergo, Effect.cycles]

theorem write_eq (m : Machine β) (a : UInt16) (v : UInt8) :
    m.write a v = m.undergo { registers := m.cpu.registers, requests := [.write a v] } := by
  simp [write, idle, undergo, Effect.cycles, Bus.serve]

variable [PlainBus β]

theorem read_eq (m : Machine β) (a : UInt16) :
    m.read a = (Bus.peek m.bus a,
      m.undergo { registers := m.cpu.registers, requests := [.read a] }) := by
  simp [read, idle, undergo, Effect.cycles, Bus.serve, PlainBus.read_value]

theorem fetch_eq (m : Machine β) :
    m.fetch = (Bus.peek m.bus m.cpu.registers.pc, m.undergo {
      registers := { m.cpu.registers with pc := m.cpu.registers.pc + 1 }
      requests := [.read m.cpu.registers.pc] }) := by
  simp [fetch, read_eq, mapRegisters_eq]

theorem fetchWord_eq (m : Machine β) :
    m.fetchWord = (Bus.peekWord (Bus.peek m.bus) m.cpu.registers.pc, m.undergo {
      registers := { m.cpu.registers with pc := m.cpu.registers.pc + 1 + 1 }
      requests := [.read m.cpu.registers.pc, .read (m.cpu.registers.pc + 1)] }) := by
  simp [fetchWord, fetch_eq, Bus.peekWord]

theorem readWordInPage_eq (m : Machine β) (pointer : UInt16) :
    m.readWordInPage pointer = (Bus.peekWordInPage (Bus.peek m.bus) pointer, m.undergo {
      registers := m.cpu.registers
      requests := [.read pointer, .read (nextInPage pointer)] }) := by
  simp [readWordInPage, read_eq, Bus.peekWordInPage]

theorem readZeroPageWord_eq (m : Machine β) (pointer : UInt8) :
    m.readZeroPageWord pointer = (Bus.peekZeroPageWord (Bus.peek m.bus) pointer, m.undergo {
      registers := m.cpu.registers
      requests := [.read (zeroPageAddress pointer), .read (zeroPageAddress (pointer + 1))] }) := by
  simp [readZeroPageWord, read_eq, Bus.peekZeroPageWord]

end Machine

/-- The address in the stack page that a value of the stack pointer names. -/
def stackSlot (s : UInt8) : UInt16 := 0x0100 + s.toUInt16

theorem Registers.stackAddress_eq (r : Registers) : r.stackAddress = stackSlot r.s := rfl

namespace Machine

variable {β : Type} [Bus β]

theorem push_eq (m : Machine β) (value : UInt8) :
    m.push value = m.undergo {
      registers := { m.cpu.registers with s := m.cpu.registers.s - 1 }
      requests := [.write (stackSlot m.cpu.registers.s) value] } := by
  simp [push, Registers.push, write_eq, mapRegisters_eq, Registers.stackAddress_eq]

theorem pushWord_eq (m : Machine β) (value : UInt16) :
    m.pushWord value = m.undergo {
      registers := { m.cpu.registers with s := m.cpu.registers.s - 1 - 1 }
      requests := [.write (stackSlot m.cpu.registers.s) (highByte value),
        .write (stackSlot (m.cpu.registers.s - 1)) (lowByte value)] } := by
  simp [pushWord, push_eq]

variable [PlainBus β]

theorem pull_eq (m : Machine β) :
    m.pull = (Bus.peek m.bus (stackSlot (m.cpu.registers.s + 1)), m.undergo {
      registers := { m.cpu.registers with s := m.cpu.registers.s + 1 }
      requests := [.read (stackSlot (m.cpu.registers.s + 1))] }) := by
  simp [pull, Registers.pop, read_eq, mapRegisters_eq, Registers.stackAddress_eq]

theorem pullWord_eq (m : Machine β) :
    m.pullWord = (wordOf (Bus.peek m.bus (stackSlot (m.cpu.registers.s + 1)))
        (Bus.peek m.bus (stackSlot (m.cpu.registers.s + 1 + 1))), m.undergo {
      registers := { m.cpu.registers with s := m.cpu.registers.s + 1 + 1 }
      requests := [.read (stackSlot (m.cpu.registers.s + 1)),
        .read (stackSlot (m.cpu.registers.s + 1 + 1))] }) := by
  simp [pullWord, pull_eq]

end Machine
end NesMachine
