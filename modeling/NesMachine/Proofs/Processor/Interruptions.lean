import NesMachine.Proofs.Processor.CycleAccounting
import NesMachine.Proofs.Processor.InstructionDependence
import NesMachine.Proofs.Processor.InterruptReturn
import NesMachine.Proofs.Processor.StepTraffic

/-!
# Interruptions that leave no trace

A handler for non-maskable requests that returns at once can be entered between any two
instructions of a program, as often as one likes. The program does not notice, as long as
it reads no byte of the stack page that an interruption has overwritten and that it has not
written again itself: such a byte is stale. The interrupted run is compared with the run
alone, boundary by boundary.
-/
namespace NesMachine

/-- What happens between two boundaries of an interrupted run. -/
inductive Turn where
  /-- An instruction of the program. -/
  | instruction
  /-- A non-maskable request, and the first instruction of its handler. -/
  | interruption
  deriving DecidableEq, Repr

namespace Machine

def takeTurn (m : Machine FlatMemory) : Turn → Machine FlatMemory
  | .instruction => m.step
  | .interruption => m.nmi.step

/-- A run with interruptions. -/
def takeTurns (m : Machine FlatMemory) (turns : List Turn) : Machine FlatMemory :=
  turns.foldl takeTurn m

/-- The bytes that are stale after some turns. The machine given is that of the program
alone: an interruption makes the bytes stale that a request would write there, and an
instruction refreshes what it writes. -/
def staleAfter (m : Machine FlatMemory) (stale : List UInt16) : List Turn → List UInt16
  | [] => stale
  | .instruction :: rest =>
    m.step.staleAfter (m.recorded.step.calls.foldl Request.refresh stale) rest
  | .interruption :: rest => m.staleAfter (Request.written m.recorded.nmi.calls ++ stale) rest

/-- Whether no instruction of the program reads a stale byte. -/
def ReadsFresh (m : Machine FlatMemory) (stale : List UInt16) : List Turn → Prop
  | [] => True
  | .instruction :: rest => Request.ReadsFresh stale m.recorded.step.calls ∧
      m.step.ReadsFresh (m.recorded.step.calls.foldl Request.refresh stale) rest
  | .interruption :: rest => m.ReadsFresh (Request.written m.recorded.nmi.calls ++ stale) rest

/-- Where the handler for non-maskable requests begins. -/
def nmiHandler (m : Machine FlatMemory) : UInt16 := wordOf (m.bus.get 0xFFFA) (m.bus.get 0xFFFB)

end Machine

/-- The interrupted machine looks to its program like the machine alone, after a number of
interruptions. -/
structure Undisturbed (stale : List UInt16) (interruptions : Nat)
    (interrupted alone : Machine FlatMemory) : Prop where
  registers : interrupted.cpu.registers = alone.cpu.registers
  halted : interrupted.cpu.halted = alone.cpu.halted
  memory : ∀ a, a ∉ stale → interrupted.bus.get a = alone.bus.get a
  onStack : ∀ a ∈ stale, highByte a = 1
  cycles : interrupted.cpu.cycles = alone.cpu.cycles + 13 * interruptions

namespace Machine

/-- A request that is taken writes its frame. -/
theorem written_nmi_recorded (m : Machine FlatMemory) (running : m.cpu.halted = false) :
    Request.written m.recorded.nmi.calls = [0, 1, 2].map fun depth =>
      stackSlot (m.cpu.registers.s - depth) := by
  rw [nmi_eq m.recorded running, calls_undergo_recorded]
  simp [requestEffect, interruptEffect, Request.written, recorded]

/-- A handler that returns at once gives the processor back as it was, thirteen cycles later,
with only the bytes changed that the request has pushed. -/
theorem interrupted_of_returns (m : Machine FlatMemory) (running : m.cpu.halted = false)
    (outside : highByte m.nmiHandler ≠ 1) (returns : m.bus.get m.nmiHandler = 0x40) :
    m.nmi.step.cpu.registers = m.cpu.registers ∧ m.nmi.step.cpu.halted = false ∧
      m.nmi.step.cpu.cycles = m.cpu.cycles + 13 ∧
      ∀ a, a ∉ Request.written m.recorded.nmi.calls → m.nmi.step.bus.get a = m.bus.get a := by
  let r := m.cpu.registers
  have ready : InterruptSource.nmi.Ready m := trivial
  let e := InterruptSource.nmi.effect m.bus.get r
  have entered : m.nmi.cpu.registers = e.registers ∧
      m.nmi.bus.get = Bus.serveAll m.bus.get e.requests ∧ m.nmi.cpu.halted = false :=
    enter_of_ready m running ready
  obtain ⟨registers, memory, still⟩ := entered
  have frame : InterruptFrame m.nmi.bus.get r.s r.pc (r.p.pushed false) := by
    rw [memory]
    exact InterruptFrame.serveAll_interruptEffect m.bus.get r _ _ _
  have handler : m.nmi.cpu.registers.pc = m.nmiHandler := congrArg Registers.pc registers
  have opcode : m.nmi.bus.get m.nmi.cpu.registers.pc = 0x40 := by
    rw [handler, memory, ← returns]
    exact serveAll_interruptEffect_of_ne _ _ _ _ _ fun _ _ => ne_stackSlot outside _
  have depth : m.nmi.cpu.registers.s = r.s - 3 := congrArg Registers.s registers
  have effect := stepEffect_of_rti m.nmi.bus.get m.nmi.cpu.registers opcode
  refine ⟨?_, ?_, ?_, ?_⟩
  · refine (registers_step m.nmi still).trans ((frame.registers_stepEffect opcode depth).trans ?_)
    rw [registers, Status.ofByte_pushed]
    rfl
  · exact (halted_step m.nmi still).trans (congrArg Effect.jams effect)
  · have request : m.nmi.cpu.cycles = m.cpu.cycles + 7 := by
      have charged := cycles_operate m .nmi
      rw [Operation.charge, running] at charged
      exact charged
    have back : (stepEffect (Bus.peek m.nmi.bus) m.nmi.cpu.registers).cycles = 6 :=
      congrArg Effect.cycles effect
    rw [cycles_step m.nmi still, back, request]
  · intro a untouched
    have unread := congrArg (fun e => Bus.serveAll m.nmi.bus.get e.requests a) effect
    have pushed : m.nmi.bus.get a = m.bus.get a := by
      rw [memory]
      refine serveAll_interruptEffect_of_ne _ _ _ _ _ fun depth within at_a => untouched ?_
      rw [written_nmi_recorded m running, at_a]
      exact List.mem_map_of_mem within
    rw [get_step m.nmi still]
    exact unread.trans pushed

end Machine

namespace Undisturbed

variable {stale : List UInt16} {interruptions : Nat} {interrupted alone : Machine FlatMemory}

/-- An instruction of the program does the same on both sides. -/
theorem step (same : Undisturbed stale interruptions interrupted alone)
    (running : alone.cpu.halted = false)
    (fresh : Request.ReadsFresh stale alone.recorded.step.calls) :
    Undisturbed (alone.recorded.step.calls.foldl Request.refresh stale) interruptions
      interrupted.step alone.step := by
  have running' : interrupted.cpu.halted = false := same.halted.trans running
  rw [Machine.calls_step_recorded alone running] at fresh ⊢
  have effect : stepEffect interrupted.bus.get interrupted.cpu.registers =
      stepEffect alone.bus.get alone.cpu.registers := by
    rw [same.registers]
    refine stepEffect_congr fun a read => same.memory a ?_
    exact Request.notMem_of_readsFresh same.onStack (readsFirst_stepEffect ..) fresh read
  constructor
  · exact (Machine.registers_step _ running').trans
      ((congrArg Effect.registers effect).trans (Machine.registers_step _ running).symm)
  · exact (Machine.halted_step _ running').trans
      ((congrArg Effect.jams effect).trans (Machine.halted_step _ running).symm)
  · intro a notStale
    rw [Machine.get_step _ running', Machine.get_step _ running, effect]
    exact Bus.serveAll_agree same.memory notStale
  · intro a ha
    exact same.onStack a (Request.mem_of_mem_foldl_refresh ha)
  · have time : (stepEffect interrupted.bus.get interrupted.cpu.registers).cycles =
        (stepEffect alone.bus.get alone.cpu.registers).cycles := congrArg Effect.cycles effect
    have here := Machine.cycles_step _ running'
    have there := Machine.cycles_step _ running
    have before := same.cycles
    simp only [Bus.peek] at here there
    omega

/-- An interruption is over before the next instruction of the program. -/
theorem interrupt (same : Undisturbed stale interruptions interrupted alone)
    (running : alone.cpu.halted = false)
    (outside : highByte alone.nmiHandler ≠ 1) (returns : alone.bus.get alone.nmiHandler = 0x40) :
    Undisturbed (Request.written alone.recorded.nmi.calls ++ stale) (interruptions + 1)
      interrupted.nmi.step alone := by
  have running' : interrupted.cpu.halted = false := same.halted.trans running
  have shown : ∀ a, highByte a ≠ 1 → interrupted.bus.get a = alone.bus.get a :=
    fun a apart => same.memory a fun h => apart (same.onStack a h)
  have handler : interrupted.nmiHandler = alone.nmiHandler := by
    rw [Machine.nmiHandler, shown 0xFFFA (by decide), shown 0xFFFB (by decide)]
    rfl
  have calls : Request.written interrupted.recorded.nmi.calls =
      Request.written alone.recorded.nmi.calls := by
    rw [Machine.written_nmi_recorded _ running', Machine.written_nmi_recorded _ running,
      same.registers]
  have outside' : highByte interrupted.nmiHandler ≠ 1 := by rwa [handler]
  have returns' : interrupted.bus.get interrupted.nmiHandler = 0x40 := by
    rwa [handler, shown _ outside]
  obtain ⟨registers, halted, cycles, memory⟩ :=
    interrupted.interrupted_of_returns running' outside' returns'
  constructor
  · exact registers.trans same.registers
  · exact halted.trans running.symm
  · intro a fresh
    rw [List.mem_append, not_or] at fresh
    rw [memory a (calls ▸ fresh.1), same.memory a fresh.2]
  · intro a ha
    rcases List.mem_append.mp ha with pushed | before
    · rw [Machine.written_nmi_recorded _ running] at pushed
      obtain ⟨depth, -, rfl⟩ := List.mem_map.mp pushed
      exact highByte_stackSlot _
    · exact same.onStack a before
  · have before := same.cycles
    omega

end Undisturbed

namespace Machine

/-- The handler stays in place as long as the program writes neither the handler nor the
place where its address is stored. -/
theorem nmiHandler_step (m : Machine FlatMemory) (running : m.cpu.halted = false)
    (kept : ∀ a ∈ [0xFFFA, 0xFFFB, m.nmiHandler], ∀ v, .write a v ∉ m.recorded.step.calls) :
    m.step.nmiHandler = m.nmiHandler ∧ m.step.bus.get m.nmiHandler = m.bus.get m.nmiHandler := by
  have unchanged : ∀ a ∈ [0xFFFA, 0xFFFB, m.nmiHandler], m.step.bus.get a = m.bus.get a := by
    intro a ha
    rw [get_step m running]
    refine Bus.serveAll_of_notWritten fun v => ?_
    rw [← calls_step_recorded m running]
    exact kept a ha v
  refine ⟨?_, unchanged _ (by simp)⟩
  rw [nmiHandler, unchanged 0xFFFA (by simp), unchanged 0xFFFB (by simp)]
  rfl

/-- The machine alone after some instructions. -/
def steps (m : Machine FlatMemory) : (count : Nat) → Machine FlatMemory
  | 0 => m
  | count + 1 => m.step.steps count

theorem undisturbed_takeTurns (turns : List Turn) (alone interrupted : Machine FlatMemory)
    (stale : List UInt16) (interruptions : Nat)
    (same : Undisturbed stale interruptions interrupted alone)
    (running : ∀ k ≤ turns.count .instruction, (alone.steps k).cpu.halted = false)
    (outside : highByte alone.nmiHandler ≠ 1) (returns : alone.bus.get alone.nmiHandler = 0x40)
    (kept : ∀ k < turns.count .instruction, ∀ a ∈ [0xFFFA, 0xFFFB, alone.nmiHandler], ∀ v,
      .write a v ∉ (alone.steps k).recorded.step.calls)
    (fresh : alone.ReadsFresh stale turns) :
    Undisturbed (alone.staleAfter stale turns) (interruptions + turns.count .interruption)
      (interrupted.takeTurns turns) (alone.steps (turns.count .instruction)) := by
  induction turns generalizing alone interrupted stale interruptions with
  | nil => exact same
  | cons turn rest ih =>
    have now : alone.cpu.halted = false := running 0 (Nat.zero_le _)
    cases turn with
    | instruction =>
      rw [List.count_cons_self] at running kept ⊢
      obtain ⟨handler, opcode⟩ := alone.nmiHandler_step now (kept 0 (Nat.succ_pos _))
      refine ih alone.step interrupted.step _ _ (same.step now fresh.1) ?_ ?_ ?_ ?_ fresh.2
      · exact fun k within => running (k + 1) (Nat.succ_le_succ within)
      · rwa [handler]
      · rwa [handler, opcode]
      · intro k within
        rw [handler]
        exact kept (k + 1) (Nat.succ_lt_succ within)
    | interruption =>
      rw [List.count_cons_self, Nat.add_comm _ 1, ← Nat.add_assoc]
      exact ih alone interrupted.nmi.step _ _ (same.interrupt now outside returns) running
        outside returns kept fresh

theorem readsFresh_of_append {m : Machine FlatMemory} {stale : List UInt16}
    {before later : List Turn} (fresh : m.ReadsFresh stale (before ++ later)) :
    m.ReadsFresh stale before := by
  induction before generalizing m stale with
  | nil => trivial
  | cons turn before ih =>
    cases turn with
    | instruction => exact ⟨fresh.1, ih fresh.2⟩
    | interruption => exact ih (m := m) fresh

/-- A run of a program is not disturbed by requests between its instructions whose handler
is a lone return outside the stack page, if the program runs on, leaves that handler in
place and reads no stale byte: at every boundary the registers and flags are those of the
run without requests, memory differs in stale bytes of the stack page only, and every
interruption has taken thirteen cycles. -/
theorem undisturbed_of_readsFresh (m : Machine FlatMemory) (turns : List Turn)
    (running : ∀ k ≤ turns.count .instruction, (m.steps k).cpu.halted = false)
    (outside : highByte m.nmiHandler ≠ 1) (returns : m.bus.get m.nmiHandler = 0x40)
    (kept : ∀ k < turns.count .instruction, ∀ a ∈ [0xFFFA, 0xFFFB, m.nmiHandler], ∀ v,
      .write a v ∉ (m.steps k).recorded.step.calls)
    (fresh : m.ReadsFresh [] turns) :
    ∀ boundary, boundary <+: turns →
      Undisturbed (m.staleAfter [] boundary) (boundary.count .interruption)
        (m.takeTurns boundary) (m.steps (boundary.count .instruction)) := by
  rintro boundary ⟨later, rfl⟩
  have within : boundary.count .instruction ≤ (boundary ++ later).count .instruction := by
    rw [List.count_append]
    exact Nat.le_add_right _ _
  have same : Undisturbed [] 0 m m := ⟨rfl, rfl, fun _ _ => rfl, by simp, rfl⟩
  rw [← Nat.zero_add (boundary.count .interruption)]
  refine undisturbed_takeTurns boundary m m [] 0 same ?_ outside returns ?_
    (readsFresh_of_append fresh)
  · exact fun k hk => running k (Nat.le_trans hk within)
  · exact fun k hk => kept k (Nat.lt_of_lt_of_le hk within)

/-- A push and a pull with a request before each. The stack pointer wraps around, so that the
second frame overwrites most of the first one, and the byte pulled is one that the first
request had overwritten before it was pushed. -/
theorem undisturbed_of_readsFresh_wrapped :
    let memory := ((((FlatMemory.zero.set 0xFFFB 0x90).set 0x9000 0x40).set 0x8000 0x48).set
      0x8001 0x68)
    let m : Machine FlatMemory :=
      ⟨⟨⟨0x7F, 0, 0, 0x00, 0x8000, Status.ofByte 0⟩, 7, false, none⟩, memory⟩
    let turns : List Turn := [.interruption, .instruction, .interruption, .instruction]
    (∀ k ≤ turns.count .instruction, (m.steps k).cpu.halted = false) ∧
      m.nmiHandler = 0x9000 ∧ m.bus.get m.nmiHandler = 0x40 ∧ m.ReadsFresh [] turns ∧
      m.staleAfter [] turns = [0x01FF, 0x01FE, 0x01FD, 0x01FF, 0x01FE] ∧
      (m.takeTurns turns).cpu.registers = ⟨0x7F, 0, 0, 0x00, 0x8002, Status.ofByte 0⟩ ∧
      (m.takeTurns turns).cpu.cycles = 40 := by
  intro memory m turns
  have high : memory.get 0xFFFB = 0x90 := by simp [memory, FlatMemory.get_set]
  have low : memory.get 0xFFFA = 0x00 := by simp [memory, FlatMemory.get_set]
  have rti : memory.get 0x9000 = 0x40 := by simp [memory, FlatMemory.get_set]
  have pha : memory.get 0x8000 = 0x48 := by simp [memory, FlatMemory.get_set]
  have pla : memory.get 0x8001 = 0x68 := by simp [memory, FlatMemory.get_set]
  have start : m.cpu.registers = ⟨0x7F, 0, 0, 0x00, 0x8000, Status.ofByte 0⟩ := rfl
  have clock : m.cpu.cycles = 7 := rfl
  have still : m.cpu.halted = false := rfl
  have bus : m.bus.get = memory.get := rfl
  -- What has been looked up above is all that is needed of the memory and the machine.
  clear_value m memory
  have pushing : stepEffect m.bus.get m.cpu.registers =
      { registers := ⟨0x7F, 0, 0, 0xFF, 0x8001, Status.ofByte 0⟩
        requests := [.read 0x8000, .write 0x0100 0x7F]
        idle := 1 } := by
    rw [start, bus, stepEffect, pha]
    rfl
  have pushed : m.step.cpu.registers = ⟨0x7F, 0, 0, 0xFF, 0x8001, Status.ofByte 0⟩ :=
    (registers_step m still).trans (congrArg Effect.registers pushing)
  have running : m.step.cpu.halted = false :=
    (halted_step m still).trans (congrArg Effect.jams pushing)
  have stored : m.step.bus.get = Bus.write memory.get 0x0100 0x7F := by
    rw [get_step m still, pushing, bus]
    rfl
  have pulling : stepEffect m.step.bus.get m.step.cpu.registers =
      { registers := ⟨0x7F, 0, 0, 0x00, 0x8002, Status.ofByte 0⟩
        requests := [.read 0x8001, .read 0x0100]
        idle := 2 } := by
    have opcode : Bus.write memory.get 0x0100 0x7F 0x8001 = 0x68 := by simp [Bus.write_view, pla]
    rw [pushed, stored, stepEffect, opcode]
    rfl
  have pulled : m.step.step.cpu.halted = false :=
    (halted_step _ running).trans (congrArg Effect.jams pulling)
  have instructions : turns.count .instruction = 2 := rfl
  have interruptions : turns.count .interruption = 2 := rfl
  have alone : ∀ k ≤ turns.count .instruction, (m.steps k).cpu.halted = false := by
    rw [instructions]
    intro k within
    obtain rfl | rfl | rfl : k = 0 ∨ k = 1 ∨ k = 2 := by omega
    · exact still
    · exact running
    · exact pulled
  have handler : m.nmiHandler = 0x9000 := by
    rw [nmiHandler, bus, low, high]
    rfl
  have returns : m.bus.get m.nmiHandler = 0x40 := by rw [handler, bus, rti]
  have first : m.recorded.step.calls = [.read 0x8000, .write 0x0100 0x7F] :=
    (calls_step_recorded m still).trans (congrArg Effect.requests pushing)
  have second : m.step.recorded.step.calls = [.read 0x8001, .read 0x0100] :=
    (calls_step_recorded _ running).trans (congrArg Effect.requests pulling)
  have before : Request.written m.recorded.nmi.calls = [0x0100, 0x01FF, 0x01FE] := by
    rw [written_nmi_recorded m still, start]
    decide
  have between : Request.written m.step.recorded.nmi.calls = [0x01FF, 0x01FE, 0x01FD] := by
    rw [written_nmi_recorded _ running, pushed]
    decide
  have kept : ∀ k < turns.count .instruction, ∀ a ∈ [0xFFFA, 0xFFFB, m.nmiHandler], ∀ v,
      .write a v ∉ (m.steps k).recorded.step.calls := by
    rw [instructions, handler]
    intro k within a ha v
    obtain rfl | rfl : k = 0 ∨ k = 1 := by omega
    · rw [steps, first]
      intro made
      obtain ⟨rfl, -⟩ : a = 0x0100 ∧ v = 0x7F := by simpa using made
      exact absurd ha (by decide)
    · rw [steps, steps, second]
      simp
  have fresh : m.ReadsFresh [] turns := by
    simp only [ReadsFresh, turns, before, between, first, second, List.foldl, Request.refresh,
      Request.ReadsFresh]
    decide
  have stale : m.staleAfter [] turns = [0x01FF, 0x01FE, 0x01FD, 0x01FF, 0x01FE] := by
    simp only [staleAfter, turns, before, between, first, second, List.foldl, Request.refresh]
    decide
  obtain ⟨registers, -, -, -, cycles⟩ := undisturbed_of_readsFresh m turns alone
    (by rw [handler]; decide) returns kept fresh turns (List.prefix_refl _)
  refine ⟨alone, handler, returns, fresh, stale, ?_, ?_⟩
  · exact registers.trans ((registers_step _ running).trans (congrArg Effect.registers pulling))
  · have three : (stepEffect (Bus.peek m.bus) m.cpu.registers).cycles = 3 :=
      congrArg Effect.cycles pushing
    have four : (stepEffect (Bus.peek m.step.bus) m.step.cpu.registers).cycles = 4 :=
      congrArg Effect.cycles pulling
    rw [cycles, instructions, interruptions, steps, steps, steps, cycles_step _ running, four,
      cycles_step m still, three, clock]

end Machine
end NesMachine
