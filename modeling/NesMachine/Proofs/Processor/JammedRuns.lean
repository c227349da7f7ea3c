import NesMachine.Proofs.Processor.Jams
import NesMachine.Proofs.Processor.Tracing

/-!
# Jams over whole runs

On any bus and through any commands, a processor is jammed when it has been jammed before or
has fetched an opcode that jams, and no reset has come since. Until then nothing that is asked
of it is done; a reset takes the jam away, with nothing lost and nothing written.
-/
namespace NesMachine

/-- What the host is told by a processor that is jammed. -/
def Command.refusal : Command → Option Bool
  | .step => some true
  | .irq => some false
  | _ => none

namespace Machine

variable {β : Type} [Bus β]

/-- What the host is told in return for a command: whether a step has left the processor
jammed, and whether a request was taken. -/
def told (m : Machine β) : Command → Option Bool
  | .step => some m.step.cpu.halted
  | .irq => some m.irq.1
  | _ => none

/-- What the host is told for several commands. -/
def toldAll (m : Machine β) : List Command → List (Option Bool)
  | [] => []
  | command :: rest => m.told command :: (m.obey command).toldAll rest

/-- The byte that is fetched as the next opcode. -/
def nextOpcode (m : Machine β) : UInt8 := (Bus.read m.bus m.cpu.registers.pc).1

/-- Whether the next step jams a processor that runs. -/
def JamsNext (m : Machine β) : Prop := m.cpu.halted = false ∧ m.nextOpcode ∈ jamOpcodes

variable (m : Machine β)

theorem jams_nextOpcode_iff :
    (Instruction.decode m.fetch.1).mnemonic.action.jams = true ↔ m.nextOpcode ∈ jamOpcodes := by
  rw [Mnemonic.jams_action, Instruction.mnemonic_decode_eq_kil_iff]
  rfl

theorem halted_step_iff :
    m.step.cpu.halted = true ↔ m.cpu.halted = true ∨ m.nextOpcode ∈ jamOpcodes := by
  rw [halted_step_eq, Bool.or_eq_true_iff, jams_nextOpcode_iff]

theorem execute_eq_of_jams (jams : m.nextOpcode ∈ jamOpcodes) :
    m.execute = {
      cpu := { m.cpu with
        registers := { m.cpu.registers with pc := m.cpu.registers.pc + 1 }
        cycles := m.cpu.cycles + 2
        halted := true }
      bus := (Bus.read m.bus m.cpu.registers.pc).2 } := by
  obtain ⟨action, mode⟩ := Instruction.decode_of_jams (m.jams_nextOpcode_iff.mpr jams)
  rw [execute]
  simp only [action, mode]
  rfl

/-- What an instruction that jams does to the whole machine: it is fetched, takes two cycles,
and leaves the mark. -/
theorem step_eq_of_jamsNext (jams : m.JamsNext) :
    m.step = {
      cpu := { m.cpu with
        registers := { m.cpu.registers with pc := m.cpu.registers.pc + 1 }
        cycles := m.cpu.cycles + 2
        halted := true
        trace := m.cpu.trace.map (·.push m.line) }
      bus := (Bus.read m.bus m.cpu.registers.pc).2 } := by
  obtain ⟨running, opcode⟩ := jams
  have traced : m.traceInstruction =
      { m with cpu := { m.cpu with trace := m.cpu.trace.map (·.push m.line) } } := by
    unfold traceInstruction line
    split
    · next none => rw [none, Option.map_none, ← none]
    · next lines some => rw [some, Option.map_some]
  rw [step, running, if_neg Bool.false_ne_true, traced]
  exact execute_eq_of_jams _ opcode

theorem callsOf_step_of_jamsNext (jams : m.JamsNext) :
    m.callsOf .step = [.read m.cpu.registers.pc] := by
  have recorded : m.recorded.JamsNext := jams
  have stepped := m.recorded.step_eq_of_jamsNext recorded
  rw [callsOf, obey, calls, stepped]
  rfl

/-- A reset, jammed or not, in full. -/
theorem reset_eq_of_reads :
    let low := Bus.read m.bus 0xFFFC
    let high := Bus.read low.2 0xFFFD
    m.reset = {
      cpu := { m.cpu with
        registers := { m.cpu.registers with
          s := m.cpu.registers.s - 3
          pc := wordOf low.1 high.1
          p := { m.cpu.registers.p with interruptDisable := true } }
        cycles := m.cpu.cycles + 7
        halted := false }
      bus := high.2 } := rfl

/-! Each command and the mark. -/

theorem halted_irq : m.irq.2.cpu.halted = m.cpu.halted := by
  unfold irq
  split <;> rfl

theorem halted_nmi : m.nmi.cpu.halted = m.cpu.halted := by
  unfold nmi
  split <;> rfl

/-- Of all commands only a step and a reset change the mark. -/
theorem halted_obey_of_ne {command : Command} (step : command ≠ .step) (reset : command ≠ .reset) :
    (m.obey command).cpu.halted = m.cpu.halted := by
  cases command with
  | step => exact absurd rfl step
  | reset => exact absurd rfl reset
  | irq => exact m.halted_irq
  | nmi => exact m.halted_nmi
  | _ => rfl

/-- Whether some step of a run jams the processor and no reset comes after it. -/
def JamsIn (m : Machine β) (commands : List Command) : Prop :=
  ∃ before rest, commands = before ++ .step :: rest ∧ (m.after before).JamsNext ∧ .reset ∉ rest

theorem not_jamsIn_nil : ¬ m.JamsIn [] := by
  rintro ⟨before, rest, parts, -, -⟩
  exact absurd parts (by simp)

theorem jamsIn_cons (command : Command) (rest : List Command) :
    m.JamsIn (command :: rest) ↔
      (command = .step ∧ m.JamsNext ∧ .reset ∉ rest) ∨ (m.obey command).JamsIn rest := by
  constructor
  · rintro ⟨before, later, parts, jams, noReset⟩
    rcases List.cons_eq_append_iff.mp parts with ⟨rfl, now⟩ | ⟨soon, rfl, later_parts⟩
    · obtain ⟨rfl, rfl⟩ := List.cons.inj now
      exact .inl ⟨rfl, jams, noReset⟩
    · exact .inr ⟨soon, later, later_parts, jams, noReset⟩
  · rintro (⟨rfl, jams, noReset⟩ | ⟨soon, later, rfl, jams, noReset⟩)
    · exact ⟨[], rest, rfl, jams, noReset⟩
    · exact ⟨command :: soon, later, rfl, jams, noReset⟩

/-- A processor is jammed after a run if it was before and has not been reset, or if a step of
the run has jammed it and no reset came later. -/
theorem halted_after_iff (commands : List Command) :
    (m.after commands).cpu.halted = true ↔
      (m.cpu.halted = true ∧ .reset ∉ commands) ∨ m.JamsIn commands := by
  induction commands generalizing m with
  | nil => simp [after, not_jamsIn_nil]
  | cons command rest ih =>
    have next : m.after (command :: rest) = (m.obey command).after rest := rfl
    rw [next, ih, jamsIn_cons]
    by_cases step : command = .step
    · have marked : (m.obey .step).cpu.halted = true ↔ m.cpu.halted = true ∨ m.JamsNext := by
        rw [obey, halted_step_iff, JamsNext]
        cases m.cpu.halted <;> simp
      simp [step, marked, or_and_right, or_assoc]
    · by_cases reset : command = .reset
      · have unmarked : (m.obey .reset).cpu.halted = false := rfl
        simp [reset, unmarked]
      · have unchanged := m.halted_obey_of_ne step reset
        simp [unchanged, step, Ne.symm reset]

theorem after_concat_step (commands : List Command) :
    m.after (commands ++ [.step]) = (m.after commands).step := by
  rw [after_append]
  rfl

/-! What a jammed processor does. -/

theorem obey_of_halted (jammed : m.cpu.halted = true) {command : Command}
    (refused : command ∈ [.step, .irq, .nmi]) :
    m.obey command = m ∧ m.told command = command.refusal := by
  have stepped := m.step_of_halted jammed
  have requested := m.irq_of_refused (.inl jammed)
  rcases List.mem_cons.mp refused with rfl | refused
  · refine ⟨stepped, ?_⟩
    rw [told, stepped, jammed]
    rfl
  rcases List.mem_cons.mp refused with rfl | refused
  · refine ⟨congrArg Prod.snd requested, ?_⟩
    rw [told, requested]
    rfl
  · obtain rfl := List.mem_singleton.mp refused
    exact ⟨m.nmi_of_halted jammed, rfl⟩

theorem after_of_halted (jammed : m.cpu.halted = true) {commands : List Command}
    (refused : ∀ command ∈ commands, command ∈ [Command.step, .irq, .nmi]) :
    m.after commands = m ∧ m.toldAll commands = commands.map Command.refusal := by
  induction commands with
  | nil => exact ⟨rfl, rfl⟩
  | cons command rest ih =>
    obtain ⟨unchanged, told⟩ := m.obey_of_halted jammed (refused command (List.mem_cons_self ..))
    obtain ⟨kept, toldLater⟩ := ih fun later h => refused later (List.mem_cons_of_mem _ h)
    refine ⟨?_, ?_⟩
    · show (m.obey command).after rest = m
      rw [unchanged, kept]
    · rw [toldAll, unchanged, told, toldLater, List.map_cons]

/-- Whatever a processor has been through, it is jammed only by the opcodes that jam and until
the next reset. An instruction that jams changes the program counter, the cycles and the mark,
and makes one call; a jammed processor does nothing and says so; and a reset keeps all but what
it is there to set, and only reads. -/
theorem jammed_of_run (m : Machine β) (commands : List Command) :
    let n := m.after commands
    let r := n.cpu.registers
    let low := Bus.read n.bus 0xFFFC
    let high := Bus.read low.2 0xFFFD
    (n.cpu.halted = true ↔
      (m.cpu.halted = true ∧ .reset ∉ commands) ∨ m.JamsIn commands) ∧
    (n.step.cpu.halted = true ↔ n.cpu.halted = true ∨ n.nextOpcode ∈ jamOpcodes) ∧
    (n.JamsNext → n.callsOf .step = [.read r.pc] ∧ n.step = {
      cpu := { n.cpu with
        registers := { r with pc := r.pc + 1 }
        cycles := n.cpu.cycles + 2
        halted := true
        trace := n.cpu.trace.map (·.push n.line) }
      bus := (Bus.read n.bus r.pc).2 }) ∧
    (n.cpu.halted = true → ∀ later : List Command,
      (∀ command ∈ later, command ∈ [Command.step, .irq, .nmi]) →
        n.after later = n ∧ (n.recorded.after later).calls = [] ∧
        n.toldAll later = later.map Command.refusal) ∧
    n.callsOf .reset = [.read 0xFFFC, .read 0xFFFD] ∧ n.reset = {
      cpu := { n.cpu with
        registers := { r with
          s := r.s - 3
          pc := wordOf low.1 high.1
          p := { r.p with interruptDisable := true } }
        cycles := n.cpu.cycles + 7
        halted := false }
      bus := high.2 } := by
  intro n r low high
  refine ⟨m.halted_after_iff commands, n.halted_step_iff, ?_, ?_, n.callsOf_reset,
    n.reset_eq_of_reads⟩
  · intro jams
    exact ⟨n.callsOf_step_of_jamsNext jams, n.step_eq_of_jamsNext jams⟩
  · intro jammed later refused
    obtain ⟨unchanged, told⟩ := n.after_of_halted jammed refused
    have silent : n.recorded.after later = n.recorded :=
      (n.recorded.after_of_halted jammed refused).1
    exact ⟨unchanged, by rw [silent]; rfl, told⟩

/-- A jam at the last address of memory, with instructions being traced, and the reset that
ends it. -/
theorem jammed_of_run_atLastAddress :
    let memory := (FlatMemory.zero.set 0xFFFF 0x92).set 0xFFFD 0x80
    let m : Machine FlatMemory :=
      ⟨⟨⟨0x11, 0x22, 0x33, 0x01, 0xFFFF, Status.ofByte 0xC9⟩, 7, false, some #[]⟩, memory⟩
    let n := m.after [.step]
    m.JamsNext ∧ m.callsOf .step = [.read 0xFFFF] ∧
      n.cpu.registers = ⟨0x11, 0x22, 0x33, 0x01, 0x0000, Status.ofByte 0xC9⟩ ∧
      n.cpu.cycles = 9 ∧ n.cpu.halted = true ∧
      n.after [.nmi, .step, .irq] = n ∧
      n.toldAll [.nmi, .step, .irq] = [none, some true, some false] ∧
      n.reset.cpu.registers = ⟨0x11, 0x22, 0x33, 0xFE, 0x8000, Status.ofByte 0xCD⟩ ∧
      n.reset.cpu.cycles = 16 ∧ n.reset.cpu.halted = false := by
  intro memory m n
  have opcode : memory.get 0xFFFF = 0x92 := by simp [memory, FlatMemory.get_set]
  have low : memory.get 0xFFFC = 0x00 := by simp [memory, FlatMemory.get_set]
  have high : memory.get 0xFFFD = 0x80 := by simp [memory, FlatMemory.get_set]
  -- The bytes looked up above are all that is needed of the memory.
  clear_value memory
  have jams : m.JamsNext := by
    refine ⟨rfl, ?_⟩
    have fetched : m.nextOpcode = 0x92 := by
      rw [nextOpcode]
      exact opcode
    rw [fetched]
    decide
  obtain ⟨-, -, jamming, -, -, -⟩ := jammed_of_run m []
  obtain ⟨calls, stepped⟩ := jamming jams
  obtain ⟨-, -, -, still, -, restarted⟩ := jammed_of_run m [.step]
  have last : n = (m.after []).step := m.after_concat_step []
  have jammed : n.cpu.halted = true := by
    rw [last, stepped]
  obtain ⟨unchanged, -, told⟩ := still jammed [.nmi, .step, .irq] (by decide)
  have bus : n.bus = memory := by
    rw [last, stepped]
    rfl
  have registers : n.cpu.registers = ⟨0x11, 0x22, 0x33, 0x01, 0x0000, Status.ofByte 0xC9⟩ := by
    have around : (0xFFFF : UInt16) + 1 = 0x0000 := by decide
    rw [last, stepped, ← around]
    rfl
  have cycles : n.cpu.cycles = 9 := by
    rw [last, stepped]
    rfl
  have vector : wordOf (memory.get 0xFFFC) (memory.get 0xFFFD) = 0x8000 := by
    rw [low, high]
    rfl
  refine ⟨jams, calls, registers, cycles, jammed, unchanged, told, ?_, ?_, ?_⟩
  · rw [restarted, registers, bus, ← vector]
    rfl
  · rw [restarted, cycles]
  · rw [restarted]

end Machine
end NesMachine
