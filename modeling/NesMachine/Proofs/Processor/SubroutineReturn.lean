import NesMachine.Proofs.Processor.Operations

/-!
# Subroutines and the way back

A call leaves the address of its own last byte on the stack page, the high byte first, and a return
goes on at the byte after the address that it finds there. What the subroutine does in between does
not matter, as long as the return finds the two bytes and the stack pointer as the call left them.
The program counter, the stack pointer and the frame may each wrap around, and the call may lie in
the stack page itself: it reads its target before it pushes.
-/
namespace NesMachine

/-- The two bytes that a call leaves on the stack page. -/
structure CallFrame (view : View) (s : UInt8) (last : UInt16) : Prop where
  high : view (stackSlot s) = highByte last
  low : view (stackSlot (s - 1)) = lowByte last

theorem stepEffect_of_jsr (view : View) (r : Registers) (opcode : view r.pc = 0x20) :
    stepEffect view r =
      { registers := { r with s := r.s - 2, pc := Bus.peekWord view (r.pc + 1) }
        requests := [.read r.pc, .read (r.pc + 1), .read (r.pc + 1 + 1),
          .write (stackSlot r.s) (highByte (r.pc + 2)),
          .write (stackSlot (r.s - 1)) (lowByte (r.pc + 2))]
        idle := 1 } := by
  have decoded : Instruction.decode (view r.pc) = .documented .jsr .absolute 6 := by
    rw [opcode]
    rfl
  have last : Mode.afterOperand (r.pc + 1) .absolute - 1 = r.pc + 2 := by
    simp only [Mode.afterOperand, Mode.size]
    grind
  rw [stepEffect, decoded, ← last]
  rfl

theorem stepEffect_of_rts (view : View) (r : Registers) (opcode : view r.pc = 0x60) :
    stepEffect view r =
      { registers := { r with
          s := r.s + 2
          pc := wordOf (view (stackSlot (r.s + 1))) (view (stackSlot (r.s + 2))) + 1 }
        requests := [.read r.pc, .read (stackSlot (r.s + 1)), .read (stackSlot (r.s + 2))]
        idle := 3 } := by
  rw [stepEffect, opcode]
  rfl

namespace CallFrame

variable {view : View} {s : UInt8} {last : UInt16}

theorem of_agree {view' : View} (frame : CallFrame view s last)
    (agree : ∀ depth ∈ [0, 1], view' (stackSlot (s - depth)) = view (stackSlot (s - depth))) :
    CallFrame view' s last where
  high := by
    have same := agree 0 (by decide)
    rw [UInt8.sub_zero] at same
    exact same.trans frame.high
  low := (agree 1 (by decide)).trans frame.low

/-- Pushing an address makes a frame. -/
theorem of_pushes (memory : FlatMemory) (s : UInt8) (last : UInt16) :
    CallFrame ((memory.set (stackSlot s) (highByte last)).set (stackSlot (s - 1))
      (lowByte last)).get s last where
  high := by
    have other : s - 1 ≠ s := by grind
    simp [FlatMemory.get_set, other]
  low := by simp [FlatMemory.get_set]

/-- A return goes on after the address in the frame. -/
theorem stepEffect {r : Registers} (frame : CallFrame view s last) (opcode : view r.pc = 0x60)
    (depth : r.s = s - 2) :
    (stepEffect view r).registers = { r with s, pc := last + 1 } := by
  have first : r.s + 1 = s - 1 := by grind
  have second : r.s + 2 = s := by grind
  rw [stepEffect_of_rts view r opcode, first, second, frame.low, frame.high,
    wordOf_lowByte_highByte]

end CallFrame

namespace Machine

/-- Calls and returns match. A call goes on at the word after its opcode, as it was before the
call, and pushes the address of its last byte. Whatever happens afterwards, a return that finds the
stack pointer and the two bytes as the call left them goes on at the byte after the call, with the
stack pointer as it was before. Both take six cycles and change no other register and no flag. -/
theorem return_of_call (m : Machine FlatMemory) (running : m.cpu.halted = false)
    (opcode : m.bus.get m.cpu.registers.pc = 0x20) :
    let r := m.cpu.registers
    let called := m.step
    called.cpu.registers = { r with
        s := r.s - 2
        pc := wordOf (m.bus.get (r.pc + 1)) (m.bus.get (r.pc + 2)) } ∧
      called.bus = (m.bus.set (stackSlot r.s) (highByte (r.pc + 2))).set (stackSlot (r.s - 1))
        (lowByte (r.pc + 2)) ∧
      called.cpu.cycles = m.cpu.cycles + 6 ∧ called.cpu.halted = false ∧
      ∀ operations : List (Operation FlatMemory),
        let body := called.operateAll operations
        body.cpu.halted = false →
        body.bus.get body.cpu.registers.pc = 0x60 →
        body.cpu.registers.s = called.cpu.registers.s →
        (∀ depth ∈ [0, 1], body.bus.get (stackSlot (r.s - depth)) =
          called.bus.get (stackSlot (r.s - depth))) →
        body.step.cpu.registers = { body.cpu.registers with pc := r.pc + 3, s := r.s } ∧
          body.step.bus = body.bus ∧ body.step.cpu.cycles = body.cpu.cycles + 6 ∧
          body.step.cpu.halted = false := by
  intro r called
  obtain ⟨registers, cycles, halted, bus⟩ :=
    m.step_of_stepEffect running (stepEffect_of_jsr m.bus.get r opcode)
  have left : called.cpu.registers = { r with
      s := r.s - 2
      pc := wordOf (m.bus.get (r.pc + 1)) (m.bus.get (r.pc + 2)) } := by
    rw [← add_one_add_one r.pc]
    exact registers
  have pushed : called.bus = (m.bus.set (stackSlot r.s) (highByte (r.pc + 2))).set
      (stackSlot (r.s - 1)) (lowByte (r.pc + 2)) := bus
  refine ⟨left, pushed, cycles, halted, ?_⟩
  intro operations body still returns depth agree
  have frame : CallFrame body.bus.get r.s (r.pc + 2) := by
    refine CallFrame.of_agree ?_ agree
    rw [pushed]
    exact CallFrame.of_pushes m.bus r.s (r.pc + 2)
  have lowered : body.cpu.registers.s = r.s - 2 := by rw [depth, left]
  have next : r.pc + 3 = r.pc + 2 + 1 := by grind
  obtain ⟨-, cycles', halted', bus'⟩ := body.step_of_stepEffect still
    (stepEffect_of_rts body.bus.get body.cpu.registers returns)
  refine ⟨?_, bus', cycles', halted'⟩
  rw [next]
  exact (registers_step body still).trans (frame.stepEffect returns lowered)

/-- A subroutine that calls another one. The stack pointer wraps around, so that the first call
overwrites its own operand, and the second one the opcode of the first. -/
theorem return_of_call_nested :
    let memory := ((((((FlatMemory.zero.set 0x01FE 0x20).set 0x01FF 0x10).set 0x0200 0x90).set
      0x9010 0x20).set 0x9012 0xA0).set 0xA000 0x60).set 0x9013 0x60
    let m : Machine FlatMemory :=
      ⟨⟨⟨0x11, 0x22, 0x33, 0x00, 0x01FE, Status.ofByte 0xC9⟩, 7, false, none⟩, memory⟩
    m.cpu.halted = false ∧ m.bus.get m.cpu.registers.pc = 0x20 ∧
      m.step.cpu.registers.pc = 0x9010 ∧ m.step.bus.get 0x01FF = 0x00 ∧
      m.step.step.cpu.registers.pc = 0xA000 ∧ m.step.step.bus.get 0x01FE = 0x90 ∧
      m.step.step.step.cpu.registers.pc = 0x9013 ∧
      m.step.step.step.step.cpu.registers =
        ⟨0x11, 0x22, 0x33, 0x00, 0x0201, Status.ofByte 0xC9⟩ ∧
      m.step.step.step.step.cpu.cycles = 31 := by
  intro memory m
  have outer : memory.get 0x01FE = 0x20 := by simp [memory, FlatMemory.get_set]
  have low : memory.get 0x01FF = 0x10 := by simp [memory, FlatMemory.get_set]
  have high : memory.get 0x0200 = 0x90 := by simp [memory, FlatMemory.get_set]
  have inner : memory.get 0x9010 = 0x20 := by simp [memory, FlatMemory.get_set]
  have low' : memory.get 0x9011 = 0x00 := by simp [memory, FlatMemory.get_set]
  have high' : memory.get 0x9012 = 0xA0 := by simp [memory, FlatMemory.get_set]
  have rts : memory.get 0x9013 = 0x60 := by simp [memory, FlatMemory.get_set]
  have rts' : memory.get 0xA000 = 0x60 := by simp [memory, FlatMemory.get_set]
  -- The bytes looked up above are all that is needed of the memory, and what is shown of a step is
  -- all that is needed of it.
  clear_value memory
  have first := return_of_call m rfl outer
  generalize m.step = called at first ⊢
  obtain ⟨registers, bus, cycles, running, back⟩ := first
  have entered : called.cpu.registers = ⟨0x11, 0x22, 0x33, 0xFE, 0x9010, Status.ofByte 0xC9⟩ := by
    have target : wordOf (memory.get 0x01FF) (memory.get 0x0200) = 0x9010 := by
      rw [low, high]
      decide
    rw [← target]
    exact registers
  have pushed : called.bus = (memory.set 0x0100 0x02).set 0x01FF 0x00 := by
    have upper : stackSlot 0x00 = 0x0100 ∧ highByte (0x01FE + 2) = 0x02 := by decide
    have lower : stackSlot (0x00 - 1) = 0x01FF ∧ lowByte (0x01FE + 2) = 0x00 := by decide
    rw [← upper.1, ← upper.2, ← lower.1, ← lower.2]
    exact bus
  have kept : ∀ a, a ≠ 0x0100 → a ≠ 0x01FF → called.bus.get a = memory.get a := by
    intro a other other'
    rw [pushed, FlatMemory.get_set, if_neg other'.symm, FlatMemory.get_set, if_neg other.symm]
  have second := return_of_call called running (by
    rw [entered, kept 0x9010 (by decide) (by decide), inner])
  generalize step : called.step = nested at second ⊢
  obtain ⟨registers', bus', cycles', running', back'⟩ := second
  have entered' : nested.cpu.registers = ⟨0x11, 0x22, 0x33, 0xFC, 0xA000, Status.ofByte 0xC9⟩ := by
    have target : wordOf (memory.get 0x9011) (memory.get 0x9012) = 0xA000 := by
      rw [low', high']
      decide
    rw [registers', entered, ← target, ← kept 0x9011 (by decide) (by decide),
      ← kept 0x9012 (by decide) (by decide)]
    rfl
  have pushed' : nested.bus = (called.bus.set 0x01FE 0x90).set 0x01FD 0x12 := by
    have upper : stackSlot 0xFE = 0x01FE ∧ highByte (0x9010 + 2) = 0x90 := by decide
    have lower : stackSlot (0xFE - 1) = 0x01FD ∧ lowByte (0x9010 + 2) = 0x12 := by decide
    rw [← upper.1, ← upper.2, ← lower.1, ← lower.2]
    rw [entered] at bus'
    exact bus'
  have kept' : ∀ a, a ≠ 0x01FE → a ≠ 0x01FD → nested.bus.get a = called.bus.get a := by
    intro a other other'
    rw [pushed', FlatMemory.get_set, if_neg other'.symm, FlatMemory.get_set, if_neg other.symm]
  have resumes := back' []
  rw [operateAll_nil] at resumes
  obtain ⟨registers'', bus'', cycles'', running''⟩ := resumes running'
    (by rw [entered', kept' 0xA000 (by decide) (by decide), kept 0xA000 (by decide) (by decide),
      rts'])
    rfl fun _ _ => rfl
  have run : called.operateAll [.step, .step] = nested.step := by
    rw [operateAll_cons, operate, step, operateAll_cons, operate, operateAll_nil]
  generalize nested.step = returned at registers'' bus'' cycles'' running'' run ⊢
  have resumed : returned.cpu.registers =
      ⟨0x11, 0x22, 0x33, 0xFE, 0x9013, Status.ofByte 0xC9⟩ := by
    rw [registers'', entered', entered]
    decide
  have intact : ∀ depth ∈ ([0, 1] : List UInt8),
      returned.bus.get (stackSlot (0x00 - depth)) = called.bus.get (stackSlot (0x00 - depth)) := by
    intro depth within
    rw [bus'']
    simp only [List.mem_cons, List.not_mem_nil, or_false] at within
    rcases within with rfl | rfl <;> exact kept' _ (by decide) (by decide)
  have last := back [.step, .step]
  rw [run] at last
  obtain ⟨left, -, time, -⟩ := last running''
    (by rw [resumed, bus'', kept' 0x9013 (by decide) (by decide),
      kept 0x9013 (by decide) (by decide), rts])
    (by rw [resumed, entered]) intact
  refine ⟨rfl, outer, ?_, ?_, ?_, ?_, ?_, ?_, ?_⟩
  · rw [entered]
  · rw [pushed, FlatMemory.get_set, if_pos rfl]
  · rw [entered']
  · rw [pushed', FlatMemory.get_set, if_neg (by decide), FlatMemory.get_set, if_pos rfl]
  · rw [resumed]
  · rw [left, resumed]
    simp only [m]
    decide
  · rw [time, cycles'', cycles', cycles]

end Machine
end NesMachine
