import NesMachine.Proofs.Processor.Operations
import NesMachine.Proofs.Processor.OpcodeRegularity

/-!
# Interrupts and the way back

Three sources enter a handler: the two requests by devices and the software interrupt.
They leave the same frame of three bytes on the stack page, and the return from a handler
undoes what any of them did, as long as it finds the frame and the stack pointer as they
were left. The frame wraps around within the stack page.
-/
namespace NesMachine

inductive InterruptSource where
  | nmi | irq | brk
  deriving DecidableEq, Repr

namespace InterruptSource

/-- Where the address of the handler is stored. -/
def vector : InterruptSource → UInt16
  | .nmi => nmiVector
  | .irq | .brk => irqVector

def byInstruction : InterruptSource → Bool
  | .nmi | .irq => false
  | .brk => true

/-- Where execution goes on after the handler. The software interrupt leaves out the byte
that follows it. -/
def returnAddress (r : Registers) : InterruptSource → UInt16
  | .nmi | .irq => r.pc
  | .brk => r.pc + 2

/-- Whether a machine that is not jammed takes the interrupt now. -/
def Ready (m : Machine FlatMemory) : InterruptSource → Prop
  | .nmi => True
  | .irq => m.cpu.registers.p.interruptDisable = false
  | .brk => m.bus.get m.cpu.registers.pc = 0x00

/-- What the entry does to registers and memory. -/
def effect (view : View) (r : Registers) (source : InterruptSource) : Effect :=
  interruptEffect view r source.vector (source.returnAddress r) source.byInstruction

theorem nextInPage_vector (source : InterruptSource) :
    nextInPage source.vector = source.vector + 1 := by
  cases source <;> decide

end InterruptSource

/-- The three bytes that an interrupt leaves on the stack page. -/
structure InterruptFrame (view : View) (s : UInt8) (returnAddress : UInt16) (status : UInt8) :
    Prop where
  high : view (stackSlot s) = highByte returnAddress
  low : view (stackSlot (s - 1)) = lowByte returnAddress
  status : view (stackSlot (s - 2)) = status

namespace InterruptFrame

variable {view : View} {s : UInt8} {returnAddress : UInt16} {status : UInt8}

theorem of_agree {view' : View} (frame : InterruptFrame view s returnAddress status)
    (agree : ∀ depth ∈ [0, 1, 2], view' (stackSlot (s - depth)) = view (stackSlot (s - depth))) :
    InterruptFrame view' s returnAddress status where
  high := by
    have same := agree 0 (by decide)
    rw [UInt8.sub_zero] at same
    exact same.trans frame.high
  low := (agree 1 (by decide)).trans frame.low
  status := (agree 2 (by decide)).trans frame.status

/-- An entry makes a frame. -/
theorem serveAll_interruptEffect (view : View) (r : Registers) (vector returnAddress : UInt16)
    (byInstruction : Bool) :
    InterruptFrame
      (Bus.serveAll view (interruptEffect view r vector returnAddress byInstruction).requests)
      r.s returnAddress (r.p.pushed byInstruction) := by
  have one : r.s - 1 ≠ r.s := by grind
  have two : r.s - 2 ≠ r.s := by grind
  have three : r.s - 2 ≠ r.s - 1 := by grind
  constructor
  · simp [interruptEffect, Bus.write_view, one, two]
  · simp [interruptEffect, Bus.write_view, three]
  · simp [interruptEffect, Bus.write_view]

end InterruptFrame

theorem serveAll_interruptEffect_of_ne (view : View) (r : Registers)
    (vector returnAddress : UInt16) (byInstruction : Bool) {a : UInt16}
    (outside : ∀ depth ∈ [0, 1, 2], a ≠ stackSlot (r.s - depth)) :
    Bus.serveAll view (interruptEffect view r vector returnAddress byInstruction).requests a =
      view a := by
  have high := outside 0 (by decide)
  have low := outside 1 (by decide)
  have status := outside 2 (by decide)
  rw [UInt8.sub_zero] at high
  simp [interruptEffect, Bus.write_view, high.symm, low.symm, status.symm]

/-- The software interrupt is an entry after the fetch of its opcode. -/
theorem stepEffect_of_brk (view : View) (r : Registers) (opcode : view r.pc = 0x00) :
    stepEffect view r = { interruptEffect view r irqVector (r.pc + 2) true with
      requests := .read r.pc :: (interruptEffect view r irqVector (r.pc + 2) true).requests
      idle := 1 } := by
  have decoded : Instruction.decode (view r.pc) = .documented .brk .implied 7 := by
    rw [opcode]
    rfl
  have last : Mode.afterOperand (r.pc + 1) .implied + 1 = r.pc + 2 := by
    simp [Mode.afterOperand, Mode.size, add_one_add_one]
  rw [stepEffect, decoded, ← last]
  rfl

/-- The return from an interrupt only reads, and takes six cycles. -/
theorem stepEffect_of_rti (view : View) (r : Registers) (opcode : view r.pc = 0x40) :
    stepEffect view r =
      { registers := { r with
          s := r.s + 3
          p := .ofByte (view (stackSlot (r.s + 1)))
          pc := wordOf (view (stackSlot (r.s + 2))) (view (stackSlot (r.s + 3))) }
        requests := [.read r.pc, .read (stackSlot (r.s + 1)), .read (stackSlot (r.s + 2)),
          .read (stackSlot (r.s + 3))]
        idle := 2 } := by
  rw [stepEffect, opcode]
  rfl

/-- The return from an interrupt finds what is in the frame. -/
theorem InterruptFrame.registers_stepEffect {view : View} {r : Registers} {s status : UInt8}
    {returnAddress : UInt16} (frame : InterruptFrame view s returnAddress status)
    (opcode : view r.pc = 0x40) (depth : r.s = s - 3) :
    (stepEffect view r).registers =
      { r with s, pc := returnAddress, p := .ofByte status } := by
  have first : r.s + 1 = s - 2 := by grind
  have second : r.s + 2 = s - 1 := by grind
  have third : r.s + 3 = s := by grind
  rw [stepEffect_of_rti view r opcode, first, second, third, frame.status, frame.low,
    frame.high, wordOf_lowByte_highByte]

/-- Bit 5 is set in every byte pushed, and bit 4 tells instructions from devices. -/
theorem Status.pushed_and (p : Status) (byInstruction : Bool) :
    p.pushed byInstruction &&& (unusedMask ||| breakMask) =
      if byInstruction then unusedMask ||| breakMask else unusedMask := by
  obtain ⟨n, v, d, i, z, c⟩ := p
  revert n v d i z c byInstruction
  decide

namespace Machine

def enter (m : Machine FlatMemory) : InterruptSource → Machine FlatMemory
  | .nmi => m.nmi
  | .irq => m.irq.2
  | .brk => m.step

theorem enter_of_ready (m : Machine FlatMemory) (running : m.cpu.halted = false)
    {source : InterruptSource} (ready : source.Ready m) :
    let e := source.effect m.bus.get m.cpu.registers
    (m.enter source).cpu.registers = e.registers ∧
      (m.enter source).bus.get = Bus.serveAll m.bus.get e.requests ∧
      (m.enter source).cpu.halted = false := by
  intro e
  cases source with
  | nmi =>
    rw [enter, nmi_eq m running]
    exact ⟨rfl, Bus.peek_serveAll m.bus e.requests, by simp [running, requestEffect, interruptEffect]⟩
  | irq =>
    rw [enter, irq_eq m running ready]
    exact ⟨rfl, Bus.peek_serveAll m.bus e.requests, by simp [running, requestEffect, interruptEffect]⟩
  | brk =>
    obtain ⟨registers, -, halted, bus⟩ :=
      m.step_of_stepEffect running (stepEffect_of_brk m.bus.get m.cpu.registers ready)
    refine ⟨registers, ?_, halted⟩
    rw [enter, bus]
    exact Bus.peek_serveAll m.bus _

/-- A handler that begins by counting in X. -/
private theorem operateAll_inx (m : Machine FlatMemory) (running : m.cpu.halted = false)
    (opcode : m.bus.get m.cpu.registers.pc = 0xE8) :
    let r := m.cpu.registers
    let handler := m.operateAll [.step]
    handler.cpu.registers = Registers.loadX { r with pc := r.pc + 1 } (r.x + 1) ∧
      handler.cpu.halted = false ∧ handler.bus = m.bus := by
  intro r
  have effect : stepEffect (Bus.peek m.bus) r =
      { registers := Registers.loadX { r with pc := r.pc + 1 } (r.x + 1)
        requests := [.read r.pc]
        idle := 1 } := by
    have peeked : Bus.peek m.bus r.pc = 0xE8 := opcode
    have following : Mode.afterOperand (r.pc + 1) .implied = r.pc + 1 := by
      simp [Mode.afterOperand, Mode.size]
    rw [stepEffect, peeked, ← following]
    rfl
  rw [operateAll_cons, operateAll_nil, operate]
  refine ⟨?_, ?_, ?_⟩
  · rw [registers_step m running, effect]
  · rw [halted_step m running, effect]
  · rw [bus_step m running, effect]
    rfl

/-- Entry and return are inverse. An entry changes the three bytes of its frame, the stack
pointer, the interrupt flag and the program counter, and nothing else in registers and
memory. Whatever happens afterwards, a return that finds the stack pointer and the frame as
the entry left them gives back the program counter, the stack pointer and all flags. A
request that is refused changes nothing. -/
theorem return_of_interrupt (m : Machine FlatMemory) :
    let r := m.cpu.registers
    (m.cpu.halted = false → ∀ source : InterruptSource, source.Ready m →
      let entered := m.enter source
      let status := entered.bus.get (stackSlot (r.s - 2))
      InterruptFrame entered.bus.get r.s (source.returnAddress r) status ∧
        Status.ofByte status = r.p ∧
        status &&& 0x30 = (if source = .brk then 0x30 else 0x20) ∧
        (∀ a, (∀ depth ∈ [0, 1, 2], a ≠ stackSlot (r.s - depth)) →
          entered.bus.get a = m.bus.get a) ∧
        entered.cpu.registers = { r with
          s := r.s - 3
          p := { r.p with interruptDisable := true }
          pc := wordOf (m.bus.get source.vector) (m.bus.get (source.vector + 1)) } ∧
        ∀ operations : List (Operation FlatMemory),
          let handler := entered.operateAll operations
          handler.cpu.halted = false →
          handler.bus.get handler.cpu.registers.pc = 0x40 →
          handler.cpu.registers.s = entered.cpu.registers.s →
          (∀ depth ∈ [0, 1, 2], handler.bus.get (stackSlot (r.s - depth)) =
            entered.bus.get (stackSlot (r.s - depth))) →
          handler.step.cpu.registers = { handler.cpu.registers with
            pc := source.returnAddress r, s := r.s, p := r.p }) ∧
      (m.cpu.halted = true ∨ r.p.interruptDisable = true → m.irq = (false, m)) ∧
      (m.cpu.halted = true → m.nmi = m) := by
  intro r
  refine ⟨?_, irq_of_refused m, nmi_of_halted m⟩
  intro running source ready entered status
  obtain ⟨registers, memory, -⟩ := enter_of_ready m running ready
  have frame : InterruptFrame entered.bus.get r.s (source.returnAddress r)
      (r.p.pushed source.byInstruction) := by
    rw [memory]
    exact InterruptFrame.serveAll_interruptEffect m.bus.get r _ _ _
  have pushed : status = r.p.pushed source.byInstruction := frame.status
  have flags : Status.ofByte status = r.p := by rw [pushed, Status.ofByte_pushed]
  refine ⟨?_, flags, ?_, ?_, ?_, ?_⟩
  · rw [pushed]
    exact frame
  · rw [pushed]
    refine (Status.pushed_and r.p source.byInstruction).trans ?_
    cases source <;> rfl
  · intro a outside
    rw [memory]
    exact serveAll_interruptEffect_of_ne m.bus.get r _ _ _ outside
  · rw [← source.nextInPage_vector]
    exact registers
  · intro operations handler still opcode depth agree
    have kept : InterruptFrame handler.bus.get r.s (source.returnAddress r)
        (r.p.pushed source.byInstruction) := frame.of_agree agree
    have left : handler.cpu.registers.s = r.s - 3 := by
      rw [depth, registers]
      rfl
    rw [registers_step handler still, ← flags, pushed]
    exact kept.registers_stepEffect opcode left

/-- A software interrupt at the last address, with a frame that wraps around in the stack
page. Its handler changes X and the flags before it returns. -/
theorem return_of_interrupt_wrapped :
    let memory := ((FlatMemory.zero.set 0xFFFE 0x80).set 0x0080 0xE8).set 0x0081 0x40
    let m : Machine FlatMemory :=
      ⟨⟨⟨0x11, 0xFF, 0x33, 0x01, 0xFFFF, Status.ofByte 0x89⟩, 7, false, none⟩, memory⟩
    let handler := (m.enter .brk).operateAll [.step]
    m.cpu.halted = false ∧ m.bus.get m.cpu.registers.pc = 0x00 ∧
      (m.enter .brk).bus.get 0x01FF &&& 0x30 = 0x30 ∧
      handler.cpu.registers = ⟨0x11, 0x00, 0x33, 0xFE, 0x0081, Status.ofByte 0x0F⟩ ∧
      handler.step.cpu.registers = ⟨0x11, 0x00, 0x33, 0x01, 0x0001, Status.ofByte 0x89⟩ := by
  intro memory m handler
  have brk : memory.get 0xFFFF = 0x00 := by simp [memory, FlatMemory.get_set]
  have vector : memory.get 0xFFFE = 0x80 := by simp [memory, FlatMemory.get_set]
  have inx : memory.get 0x0080 = 0xE8 := by simp [memory, FlatMemory.get_set]
  have rti : memory.get 0x0081 = 0x40 := by simp [memory, FlatMemory.get_set]
  -- The bytes looked up above are all that is needed of the memory.
  clear_value memory
  have ready : InterruptSource.brk.Ready m := brk
  obtain ⟨-, -, status, outside, entered, back⟩ :=
    (return_of_interrupt m).1 rfl .brk ready
  have running : (m.enter .brk).cpu.halted = false := (enter_of_ready m rfl ready).2.2
  have registers : (m.enter .brk).cpu.registers =
      ⟨0x11, 0xFF, 0x33, 0xFE, 0x0080, Status.ofByte 0x8D⟩ := by
    have start : wordOf (memory.get 0xFFFE) (memory.get 0xFFFF) = 0x0080 := by
      rw [vector, brk]
      rfl
    rw [← start]
    exact entered
  have kept : ∀ a, (∀ depth ∈ [0, 1, 2], a ≠ stackSlot (0x01 - depth)) →
      (m.enter .brk).bus.get a = memory.get a := outside
  have first : (m.enter .brk).bus.get 0x0080 = 0xE8 :=
    (kept 0x0080 fun _ _ => ne_stackSlot (by decide) _).trans inx
  have second : (m.enter .brk).bus.get 0x0081 = 0x40 :=
    (kept 0x0081 fun _ _ => ne_stackSlot (by decide) _).trans rti
  obtain ⟨counted, unjammed, unwritten⟩ :=
    operateAll_inx (m.enter .brk) running (by rw [registers]; exact first)
  have changed : handler.cpu.registers = ⟨0x11, 0x00, 0x33, 0xFE, 0x0081, Status.ofByte 0x0F⟩ := by
    rw [counted, registers]
    rfl
  refine ⟨rfl, brk, ?_, changed, ?_⟩
  · have slot : stackSlot (0x01 - 2) = 0x01FF := by decide
    rw [← slot]
    exact status
  · refine (back [.step] unjammed ?_ ?_ ?_).trans ?_
    · rw [changed, unwritten]
      exact second
    · rw [changed, registers]
    · intro depth _
      rw [unwritten]
    · have around : (0xFFFF : UInt16) + 2 = 0x0001 := by decide
      rw [changed, ← around]
      rfl

end Machine
end NesMachine
