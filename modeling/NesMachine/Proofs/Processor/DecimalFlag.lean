import NesMachine.Proofs.Processor.Commands
import NesMachine.Proofs.Processor.IntegerArithmetic

/-!
# The decimal flag goes unnoticed

Machines that differ in the decimal flag alone go on alike. An instruction either hands the flag on
or sets it to what it would be anyway. Only where the flags are pushed does the decimal flag leave
the processor, as one bit of one byte: for this there are two instructions, and every interrupt
that is taken. What was traced is left out of the comparison, since it shows the flags.
-/
namespace NesMachine

/-- Registers that differ in the decimal flag at most. -/
def Registers.SameButDecimal (r r' : Registers) : Prop := ∃ decimal, r' = r.withDecimal decimal

theorem Status.pushed_withDecimal (p : Status) (decimal byInstruction : Bool) :
    p.pushed byInstruction ||| decimalMask =
      { p with decimal }.pushed byInstruction ||| decimalMask := by
  obtain ⟨n, v, d, i, z, c⟩ := p
  revert n v d i z c decimal byInstruction
  decide

namespace Effect

/-- Effects that do the same to the processor, but for the decimal flag. -/
structure SameEngine (e f : Effect) : Prop where
  registers : e.registers.SameButDecimal f.registers
  cycles : f.cycles = e.cycles
  jams : f.jams = e.jams

structure SameButDecimal (e f : Effect) : Prop extends SameEngine e f where
  requests : f.requests = e.requests

/-- Effects that also differ in one byte that they write, which are the flags. Afterwards they only
read, and they do not read this byte. -/
structure SameButStatus (slot : UInt16) (e f : Effect) : Prop extends SameEngine e f where
  requests : ∃ (before : List Request) (status status' : UInt8) (reads : List UInt16),
    e.requests = before ++ .write slot status :: reads.map .read ∧
      f.requests = before ++ .write slot status' :: reads.map .read ∧
      status ||| Status.decimalMask = status' ||| Status.decimalMask ∧ slot ∉ reads

variable {e e' f f' : Effect} {slot : UInt16}

theorem SameEngine.andThen (first : e.SameEngine f) (second : e'.SameEngine f') :
    (e.andThen e').SameEngine (f.andThen f') where
  registers := second.registers
  cycles := by rw [cycles_andThen, cycles_andThen, first.cycles, second.cycles]
  jams := by rw [jams_andThen, jams_andThen, first.jams, second.jams]

theorem SameButDecimal.andThen (first : e.SameButDecimal f) (second : e'.SameButDecimal f') :
    (e.andThen e').SameButDecimal (f.andThen f') where
  toSameEngine := first.toSameEngine.andThen second.toSameEngine
  requests := by rw [requests_andThen, requests_andThen, first.requests, second.requests]

/-- What is done before the flags are pushed makes no difference. -/
theorem SameButDecimal.andThen_status (first : e.SameButDecimal f)
    (second : e'.SameButStatus slot f') : (e.andThen e').SameButStatus slot (f.andThen f') where
  toSameEngine := first.toSameEngine.andThen second.toSameEngine
  requests := by
    obtain ⟨before, status, status', reads, here, there, bits, unread⟩ := second.requests
    refine ⟨e.requests ++ before, status, status', reads, ?_, ?_, bits, unread⟩
    · rw [requests_andThen, here, List.append_assoc]
    · rw [requests_andThen, first.requests, there, List.append_assoc]

end Effect

/-! Operands are found without the flags. -/

section Operands

variable (view : View) (r : Registers) (decimal : Bool) (start : UInt16) (mode : Mode)

theorem Mode.operand_withDecimal :
    mode.operand view (r.withDecimal decimal) start = mode.operand view r start := by
  cases mode <;> rfl

theorem Mode.sameButDecimal_effect (access : Access) :
    (mode.effect view r start access).SameButDecimal
      (mode.effect view (r.withDecimal decimal) start access) := by
  cases mode <;> exact ⟨⟨⟨decimal, rfl⟩, rfl, rfl⟩, rfl⟩

end Operands

/-- Whether what an action does is the same with either decimal flag. -/
def Action.IgnoresDecimal : Action → Prop
  | .consume update | .pull update => ∀ r decimal value,
    (update r value).SameButDecimal (update (r.withDecimal decimal) value)
  | .store value | .push value => ∀ r decimal, value (r.withDecimal decimal) = value r
  | .storeMasked index value update => ∀ r decimal,
    index (r.withDecimal decimal) = index r ∧ value (r.withDecimal decimal) = value r ∧
      (update r).SameButDecimal (update (r.withDecimal decimal))
  | .modify change update =>
    (∀ r decimal value, (change (r.withDecimal decimal) value).1 = (change r value).1 ∧
      (change r value).2.SameButDecimal (change (r.withDecimal decimal) value).2) ∧
    ∀ r decimal value, (update r value).SameButDecimal (update (r.withDecimal decimal) value)
  | .internal update => ∀ r decimal, (update r).SameButDecimal (update (r.withDecimal decimal))
  | .branch taken => ∀ r decimal, taken (r.withDecimal decimal) = taken r
  | .interrupt => False
  | .jump | .call | .returnFromCall | .returnFromInterrupt | .nothing | .jam => True

/-- All operations but two ignore the decimal flag, those included that are named for arithmetic in
decimal mode on other processors of the family. -/
theorem Mnemonic.ignoresDecimal_action {mnemonic : Mnemonic} (silent : mnemonic ∉ [.php, .brk]) :
    mnemonic.action.IgnoresDecimal := by
  cases mnemonic with
  | php | brk => exact absurd (by decide) silent
  | lda | ldx | ldy | adc | sbc | and | ora | eor | cmp | cpx | cpy | bit
  | lax | anc | alr | arr | axs | xaa | lxa | las | pla =>
    exact fun _ decimal _ => ⟨decimal, rfl⟩
  | plp => exact fun _ _ value => ⟨(Status.ofByte value).decimal, rfl⟩
  | sta | stx | sty | sax | pha => exact fun _ _ => rfl
  | ahx | shx | shy | tas => exact fun _ decimal => ⟨rfl, rfl, decimal, rfl⟩
  | asl | lsr | rol | ror | inc | dec | slo | rla | sre | rra | dcp | isb =>
    exact ⟨fun _ decimal _ => ⟨rfl, decimal, rfl⟩, fun _ decimal _ => ⟨decimal, rfl⟩⟩
  | cld => exact fun _ _ => ⟨false, rfl⟩
  | sed => exact fun _ _ => ⟨true, rfl⟩
  | inx | iny | dex | dey | tax | tay | txa | tya | tsx | txs | clc | sec | cli | sei | clv =>
    exact fun _ decimal => ⟨decimal, rfl⟩
  | bcc | bcs | bne | beq | bpl | bmi | bvc | bvs => exact fun _ _ => rfl
  | jmp | jsr | rts | rti | nop | kil => trivial

/-! What is done with a found operand, with one decimal flag and with another. -/

section Actions

variable (view : View) (r : Registers) (decimal : Bool) (operand : Operand)

theorem Operand.byte_withDecimal :
    operand.byte view (r.withDecimal decimal) = operand.byte view r := by
  cases operand <;> rfl

theorem Action.sameButDecimal_effect {action : Action} (ignores : action.IgnoresDecimal) :
    (action.effect view r operand).SameButDecimal
      (action.effect view (r.withDecimal decimal) operand) := by
  cases action with
  | consume update =>
    rw [effect, effect, operand.byte_withDecimal]
    exact ⟨⟨ignores r decimal _, rfl, rfl⟩, rfl⟩
  | store value =>
    simp only [effect, ignores r decimal]
    cases operand <;> exact ⟨⟨⟨decimal, rfl⟩, rfl, rfl⟩, rfl⟩
  | storeMasked index value update =>
    obtain ⟨sameIndex, sameValue, updated⟩ := ignores r decimal
    rw [effect, effect, sameIndex, sameValue]
    exact ⟨⟨updated, rfl, rfl⟩, rfl⟩
  | modify change update =>
    obtain ⟨changes, updates⟩ := ignores
    obtain ⟨new, decimal', changed⟩ := changes r decimal (operand.byte view r)
    simp only [effect, operand.byte_withDecimal, new, changed]
    cases operand with
    | memory a => exact ⟨⟨updates _ decimal' _, rfl, rfl⟩, rfl⟩
    | accumulator => exact ⟨⟨updates _ decimal' _, rfl, rfl⟩, rfl⟩
    | implied => exact ⟨⟨updates r decimal 0, rfl, rfl⟩, rfl⟩
  | internal update => exact ⟨⟨ignores r decimal, rfl, rfl⟩, rfl⟩
  | push value =>
    rw [effect, effect, ignores r decimal]
    exact ⟨⟨⟨decimal, rfl⟩, rfl, rfl⟩, rfl⟩
  | pull update => exact ⟨⟨ignores { r with s := r.s + 1 } decimal _, rfl, rfl⟩, rfl⟩
  | branch taken =>
    rw [effect, effect, ignores r decimal]
    split <;> exact ⟨⟨⟨decimal, rfl⟩, rfl, rfl⟩, rfl⟩
  | returnFromInterrupt =>
    exact ⟨⟨⟨(Status.ofByte (view (stackSlot (r.s + 1)))).decimal, rfl⟩, rfl, rfl⟩, rfl⟩
  | interrupt => exact ignores.elim
  | jump | call | returnFromCall | nothing | jam => exact ⟨⟨⟨decimal, rfl⟩, rfl, rfl⟩, rfl⟩

/-- Some operations leave nothing of the decimal flag before them. -/
theorem Mnemonic.effect_withDecimal {mnemonic : Mnemonic}
    (sets : mnemonic ∈ [Mnemonic.cld, .sed, .plp, .rti]) :
    mnemonic.action.effect view (r.withDecimal decimal) operand =
      mnemonic.action.effect view r operand := by
  simp only [List.mem_cons, List.not_mem_nil, or_false] at sets
  rcases sets with rfl | rfl | rfl | rfl <;> rfl

theorem sameButStatus_php :
    (Mnemonic.php.action.effect view r operand).SameButStatus (stackSlot r.s)
      (Mnemonic.php.action.effect view (r.withDecimal decimal) operand) where
  registers := ⟨decimal, rfl⟩
  cycles := rfl
  jams := rfl
  requests := ⟨[], _, _, [], rfl, rfl, r.p.pushed_withDecimal decimal true, List.not_mem_nil⟩

theorem sameButStatus_interruptEffect {vector : UInt16} (outside : highByte vector ≠ 1)
    (returnAddress : UInt16) (byInstruction : Bool) :
    (interruptEffect view r vector returnAddress byInstruction).SameButStatus (stackSlot (r.s - 2))
      (interruptEffect view (r.withDecimal decimal) vector returnAddress byInstruction) where
  registers := ⟨decimal, rfl⟩
  cycles := rfl
  jams := rfl
  requests := by
    have outside' : highByte (nextInPage vector) ≠ 1 := by rwa [highByte_nextInPage]
    refine ⟨[.write (stackSlot r.s) (highByte returnAddress),
      .write (stackSlot (r.s - 1)) (lowByte returnAddress)], _, _, [vector, nextInPage vector],
      rfl, rfl, r.p.pushed_withDecimal decimal byInstruction, ?_⟩
    simp [(ne_stackSlot outside _).symm, (ne_stackSlot outside' _).symm]

/-- A request that is taken spends two cycles more than an entry. -/
theorem sameButStatus_requestEffect {vector : UInt16} (outside : highByte vector ≠ 1) :
    (requestEffect view r vector).SameButStatus (stackSlot (r.s - 2))
      (requestEffect view (r.withDecimal decimal) vector) :=
  { sameButStatus_interruptEffect view r decimal outside r.pc false with
    cycles := rfl }

end Actions

namespace Instruction

variable (view : View) (r : Registers) (decimal : Bool) (i : Instruction)

/-- What an instruction does before its action: it is fetched and finds its operand. -/
def locating : Effect :=
  (Effect.ofFetch r).andThen (i.mode.effect view r (r.pc + 1) i.mnemonic.access)

theorem effect_eq_locating : i.effect view r =
    (i.locating view r).andThen (i.mnemonic.action.effect view
      { r with pc := i.mode.afterOperand (r.pc + 1) } (i.mode.operand view r (r.pc + 1))) :=
  (Effect.andThen_assoc _ _ _).symm

theorem sameButDecimal_locating :
    (i.locating view r).SameButDecimal (i.locating view (r.withDecimal decimal)) := by
  have fetched : (Effect.ofFetch r).SameButDecimal (Effect.ofFetch (r.withDecimal decimal)) :=
    ⟨⟨⟨decimal, rfl⟩, rfl, rfl⟩, rfl⟩
  exact fetched.andThen (i.mode.sameButDecimal_effect view r decimal _ _)

variable {i}

theorem sameButDecimal_effect (silent : i.mnemonic ∉ [.php, .brk]) :
    (i.effect view r).SameButDecimal (i.effect view (r.withDecimal decimal)) := by
  rw [effect_eq_locating, effect_eq_locating, Mode.operand_withDecimal]
  exact (i.sameButDecimal_locating view r decimal).andThen
    (Action.sameButDecimal_effect view _ decimal _ (Mnemonic.ignoresDecimal_action silent))

theorem registers_effect_withDecimal (sets : i.mnemonic ∈ [Mnemonic.cld, .sed, .plp, .rti]) :
    (i.effect view (r.withDecimal decimal)).registers = (i.effect view r).registers := by
  rw [effect_eq_locating, effect_eq_locating, Mode.operand_withDecimal,
    Effect.registers_andThen, Effect.registers_andThen]
  exact congrArg Effect.registers (Mnemonic.effect_withDecimal view
    { r with pc := i.mode.afterOperand (r.pc + 1) } decimal _ sets)

theorem sameButStatus_effect_of_php (named : i.mnemonic = .php) :
    (i.effect view r).SameButStatus (stackSlot r.s) (i.effect view (r.withDecimal decimal)) := by
  rw [effect_eq_locating, effect_eq_locating, Mode.operand_withDecimal, named]
  exact (i.sameButDecimal_locating view r decimal).andThen_status
    (sameButStatus_php view { r with pc := i.mode.afterOperand (r.pc + 1) } decimal _)

theorem sameButStatus_effect_of_brk (named : i.mnemonic = .brk) :
    (i.effect view r).SameButStatus (stackSlot (r.s - 2))
      (i.effect view (r.withDecimal decimal)) := by
  have outside : highByte irqVector ≠ 1 := by decide
  rw [effect_eq_locating, effect_eq_locating, Mode.operand_withDecimal, named]
  exact (i.sameButDecimal_locating view r decimal).andThen_status
    (sameButStatus_interruptEffect view { r with pc := i.mode.afterOperand (r.pc + 1) } decimal
      outside _ true)

end Instruction

theorem sameButDecimal_resetEffect (view : View) (r : Registers) (decimal : Bool) :
    (resetEffect view r).SameButDecimal (resetEffect view (r.withDecimal decimal)) :=
  ⟨⟨⟨decimal, rfl⟩, rfl, rfl⟩, rfl⟩

namespace Machine

variable {β : Type}

/-- Processors that differ in the decimal flag at most, apart from what they have traced. -/
structure SameEngine (m n : Machine β) : Prop where
  registers : m.cpu.registers.SameButDecimal n.cpu.registers
  cycles : n.cpu.cycles = m.cpu.cycles
  halted : n.cpu.halted = m.cpu.halted

/-- Machines that differ in the decimal flag at most. -/
structure SameButDecimal (m n : Machine β) : Prop extends SameEngine m n where
  bus : n.bus = m.bus

/-- Machines that differ in the decimal flag and in its copy in a byte in memory, which stands once
more in what has been recorded. -/
structure SameButStatus (slot : UInt16) (m n : Machine (Recorded FlatMemory)) : Prop
    extends SameEngine m n where
  memory : ∀ a, a ≠ slot → n.bus.bus.get a = m.bus.bus.get a
  status : m.bus.bus.get slot ||| Status.decimalMask = n.bus.bus.get slot ||| Status.decimalMask
  traffic : ∃ before after,
    m.bus.traffic.toList = before ++ .write slot (m.bus.bus.get slot) :: after ∧
      n.bus.traffic.toList = before ++ .write slot (n.bus.bus.get slot) :: after

section Effects

variable [Bus β] {m n : Machine β} {e f : Effect}

theorem SameEngine.undergo (same : SameEngine m n) (alike : e.SameEngine f) :
    SameEngine (m.undergo e) (n.undergo f) where
  registers := alike.registers
  cycles := by rw [cycles_undergo, cycles_undergo, same.cycles, alike.cycles]
  halted := by rw [halted_undergo, halted_undergo, same.halted, alike.jams]

theorem SameButDecimal.undergo (same : SameButDecimal m n) (alike : e.SameButDecimal f) :
    SameButDecimal (m.undergo e) (n.undergo f) where
  toSameEngine := same.toSameEngine.undergo alike.toSameEngine
  bus := by rw [bus_undergo, bus_undergo, same.bus, alike.requests]

/-- Where a push of the flags is followed by nothing but reads elsewhere, the pushed byte stays in
memory, and nothing else differs. -/
theorem SameButDecimal.undergo_status {m n : Machine (Recorded FlatMemory)} {slot : UInt16}
    (same : SameButDecimal m n) (alike : e.SameButStatus slot f) :
    SameButStatus slot (m.undergo e) (n.undergo f) := by
  obtain ⟨before, status, status', reads, here, there, bits, unread⟩ := alike.requests
  let memory := Bus.serveAll m.bus.bus before
  have left : (m.undergo e).bus.bus = memory.set slot status := by
    rw [bus_undergo, Recorded.bus_serveAll, here, Bus.serveAll_append, Bus.serveAll_cons,
      FlatMemory.serveAll_reads, FlatMemory.serve_write]
  have left' : (n.undergo f).bus.bus = memory.set slot status' := by
    rw [bus_undergo, Recorded.bus_serveAll, same.bus, there, Bus.serveAll_append,
      Bus.serveAll_cons, FlatMemory.serveAll_reads, FlatMemory.serve_write]
  have pushed : (m.undergo e).bus.bus.get slot = status := by
    rw [left, FlatMemory.get_set, if_pos rfl]
  have pushed' : (n.undergo f).bus.bus.get slot = status' := by
    rw [left', FlatMemory.get_set, if_pos rfl]
  have elsewhere : ∀ a, a ≠ slot → ∀ value, (memory.set slot value).get a = memory.get a :=
    fun a other value => by rw [FlatMemory.get_set, if_neg other.symm]
  -- None of the reads that follow is of the pushed byte, so all of them are answered alike.
  have answered : ∀ value, (reads.map fun a => Transfer.read a ((memory.set slot value).get a)) =
      reads.map fun a => .read a (memory.get a) := fun value =>
    List.map_congr_left fun a listed => by
      rw [elsewhere a (fun h => unread (h ▸ listed))]
  refine ⟨same.toSameEngine.undergo alike.toSameEngine, ?_, ?_,
    m.bus.traffic.toList ++ Bus.transfers m.bus.bus before,
    reads.map fun a => .read a (memory.get a), ?_, ?_⟩
  · intro a other
    rw [left, left', elsewhere a other, elsewhere a other]
  · rw [pushed, pushed', bits]
  · rw [pushed, bus_undergo, Recorded.traffic_serveAll, here, Bus.transfers_append,
      Bus.transfers, FlatMemory.serve_write, FlatMemory.transfers_reads, answered,
      List.append_assoc]
    rfl
  · rw [pushed', bus_undergo, Recorded.traffic_serveAll, same.bus, there, Bus.transfers_append,
      Bus.transfers, FlatMemory.serve_write, FlatMemory.transfers_reads, answered,
      List.append_assoc]
    rfl

end Effects

/-- The operation that is next. -/
def nextMnemonic [Bus β] (m : Machine β) : Mnemonic :=
  (Instruction.decode (Bus.peek m.bus m.cpu.registers.pc)).mnemonic

/-- Whether a command pushes the flags. -/
def PushesStatus [Bus β] (m : Machine β) : Command → Prop
  | .step => m.cpu.halted = false ∧ m.nextMnemonic ∈ [Mnemonic.php, .brk]
  | .irq => m.cpu.halted = false ∧ m.cpu.registers.p.interruptDisable = false
  | .nmi => m.cpu.halted = false
  | .reset | .jump _ | .setRegisters _ | .read _ | .write _ _ => False

namespace SameButDecimal

variable [Bus β] {m n : Machine β}

theorem traceInstruction (same : SameButDecimal m n) :
    SameButDecimal m.traceInstruction n.traceInstruction := by
  obtain ⟨⟨registers, cycles, halted⟩, bus⟩ := same
  refine ⟨⟨?_, ?_, ?_⟩, ?_⟩
  · simpa using registers
  · simpa using cycles
  · simpa using halted
  · simpa using bus

variable [PlainBus β]

theorem step (same : SameButDecimal m n)
    (silent : m.cpu.halted = false → m.nextMnemonic ∉ [Mnemonic.php, .brk]) :
    SameButDecimal m.step n.step := by
  obtain ⟨decimal, registers⟩ := same.registers
  cases halted : m.cpu.halted with
  | true => rwa [m.step_of_halted halted, n.step_of_halted (same.halted.trans halted)]
  | false =>
    rw [m.step_eq halted, n.step_eq (same.halted.trans halted), same.bus, registers]
    exact same.traceInstruction.undergo
      (Instruction.sameButDecimal_effect _ _ decimal (silent halted))

theorem reset (same : SameButDecimal m n) : SameButDecimal m.reset n.reset := by
  obtain ⟨decimal, registers⟩ := same.registers
  have undergone := same.undergo
    (sameButDecimal_resetEffect (Bus.peek m.bus) m.cpu.registers decimal)
  rw [reset_eq, reset_eq, same.bus, registers]
  exact ⟨⟨undergone.registers, undergone.cycles, rfl⟩, undergone.bus⟩

/-- A command that does not push the flags leaves the machines the same but for the decimal
flag. -/
theorem obey (same : SameButDecimal m n) {command : Command} (silent : ¬m.PushesStatus command) :
    SameButDecimal (m.obey command) (n.obey command) := by
  obtain ⟨decimal, registers⟩ := same.registers
  cases command with
  | step => exact same.step fun running pushes => silent ⟨running, pushes⟩
  | irq =>
    have disabled : n.cpu.registers.p.interruptDisable = m.cpu.registers.p.interruptDisable := by
      rw [registers]
      rfl
    have refused : m.cpu.halted = true ∨ m.cpu.registers.p.interruptDisable = true := by
      simpa [PushesStatus, Classical.or_iff_not_imp_left] using silent
    rw [Machine.obey, Machine.obey, m.irq_of_refused refused,
      n.irq_of_refused (by rwa [same.halted, disabled])]
    exact same
  | nmi =>
    have halted : m.cpu.halted = true := Bool.of_not_eq_false silent
    rw [Machine.obey, Machine.obey, m.nmi_of_halted halted,
      n.nmi_of_halted (same.halted.trans halted)]
    exact same
  | reset => exact same.reset
  | jump a =>
    refine ⟨⟨⟨decimal, ?_⟩, same.cycles, same.halted⟩, same.bus⟩
    exact congrArg (fun r : Registers => { r with pc := a }) registers
  | setRegisters r => exact ⟨⟨⟨r.p.decimal, rfl⟩, same.cycles, same.halted⟩, same.bus⟩
  | read a =>
    exact ⟨⟨same.registers, same.cycles, same.halted⟩,
      congrArg (fun bus => (Bus.read bus a).2) same.bus⟩
  | write a v =>
    exact ⟨⟨same.registers, same.cycles, same.halted⟩,
      congrArg (fun bus => Bus.write bus a v) same.bus⟩

theorem after (same : SameButDecimal m n) {commands : List Command}
    (silent : ∀ before command, before ++ [command] <+: commands →
      ¬(m.after before).PushesStatus command) :
    SameButDecimal (m.after commands) (n.after commands) := by
  induction commands generalizing m n with
  | nil => exact same
  | cons command rest ih =>
    refine ih (same.obey (silent [] command ?_)) fun before later within => ?_
    · exact List.prefix_append [command] rest
    · exact silent (command :: before) later (List.cons_prefix_cons.mpr ⟨rfl, within⟩)

end SameButDecimal

variable {m n : Machine (Recorded FlatMemory)}

theorem SameButDecimal.step_status {slot : UInt16} (same : SameButDecimal m n)
    (running : m.cpu.halted = false)
    (pushes : ∀ decimal, (stepEffect (Bus.peek m.bus) m.cpu.registers).SameButStatus slot
      (stepEffect (Bus.peek m.bus) (m.cpu.registers.withDecimal decimal))) :
    SameButStatus slot m.step n.step := by
  obtain ⟨decimal, registers⟩ := same.registers
  rw [m.step_eq running, n.step_eq (same.halted.trans running), same.bus, registers]
  exact same.traceInstruction.undergo_status (pushes decimal)

theorem SameButDecimal.irq (same : SameButDecimal m n) (running : m.cpu.halted = false)
    (enabled : m.cpu.registers.p.interruptDisable = false) :
    m.irq.1 = true ∧ n.irq.1 = true ∧
      SameButStatus (stackSlot (m.cpu.registers.s - 2)) m.irq.2 n.irq.2 := by
  obtain ⟨decimal, registers⟩ := same.registers
  have enabled' : n.cpu.registers.p.interruptDisable = false := by
    rw [registers]
    exact enabled
  rw [m.irq_eq running enabled, n.irq_eq (same.halted.trans running) enabled', same.bus, registers]
  exact ⟨rfl, rfl, same.undergo_status
    (sameButStatus_requestEffect _ _ decimal (by decide))⟩

theorem SameButDecimal.nmi (same : SameButDecimal m n) (running : m.cpu.halted = false) :
    SameButStatus (stackSlot (m.cpu.registers.s - 2)) m.nmi n.nmi := by
  obtain ⟨decimal, registers⟩ := same.registers
  rw [m.nmi_eq running, n.nmi_eq (same.halted.trans running), same.bus, registers]
  exact same.undergo_status (sameButStatus_requestEffect _ _ decimal (by decide))

/-- The decimal flag takes no part in what is computed. Of two machines that differ in it alone,
every step but two leaves the same, apart from the flag, and some steps leave the same altogether.
The two steps that push the flags, and every interrupt that is taken, also leave the flag in the
byte that they push. Runs without these never differ in anything but the flag, however long they
are. -/
theorem decimal_unobserved (same : SameButDecimal m n) :
    let r := m.cpu.registers
    (m.cpu.halted = false →
      (m.nextMnemonic ∉ [Mnemonic.php, .brk] → SameButDecimal m.step n.step) ∧
      (m.nextMnemonic ∈ [Mnemonic.cld, .sed, .plp, .rti] →
        n.step.cpu.registers = m.step.cpu.registers) ∧
      (m.nextMnemonic = .php → SameButStatus (stackSlot r.s) m.step n.step) ∧
      (m.nextMnemonic = .brk → SameButStatus (stackSlot (r.s - 2)) m.step n.step) ∧
      (r.p.interruptDisable = false → m.irq.1 = true ∧ n.irq.1 = true ∧
        SameButStatus (stackSlot (r.s - 2)) m.irq.2 n.irq.2) ∧
      SameButStatus (stackSlot (r.s - 2)) m.nmi n.nmi) ∧
    ∀ commands : List Command,
      (∀ before command, before ++ [command] <+: commands →
        ¬(m.after before).PushesStatus command) →
      ∀ boundary, boundary <+: commands →
        SameButDecimal (m.after boundary) (n.after boundary) := by
  intro r
  obtain ⟨decimal, registers⟩ := same.registers
  refine ⟨fun running => ⟨?_, ?_, ?_, ?_, same.irq running, same.nmi running⟩, ?_⟩
  · exact fun silent => same.step fun _ => silent
  · intro sets
    rw [registers_step m running, registers_step n (same.halted.trans running), same.bus,
      registers]
    exact Instruction.registers_effect_withDecimal _ _ decimal sets
  · exact fun next => same.step_status running fun decimal =>
      Instruction.sameButStatus_effect_of_php _ _ decimal next
  · exact fun next => same.step_status running fun decimal =>
      Instruction.sameButStatus_effect_of_brk _ _ decimal next
  · intro commands silent boundary within
    exact same.after fun before command earlier => silent before command (earlier.trans within)

/-- A rotation that other processors of the family adjust in decimal mode, while requests are
disabled, and a push of the flags after it. -/
theorem decimal_unobserved_arr :
    let memory := ((FlatMemory.zero.set 0x0200 0x6B).set 0x0201 0x77).set 0x0202 0x08
    let m : Machine (Recorded FlatMemory) :=
      ⟨⟨⟨0x69, 0x00, 0x00, 0xFD, 0x0200, Status.ofByte 0x05⟩, 7, false, none⟩, .start memory⟩
    let n := m.mapRegisters fun r => r.withDecimal true
    SameButDecimal m n ∧ m.cpu.halted = false ∧ m.nextMnemonic = .arr ∧
      SameButDecimal (m.after [.irq, .step]) (n.after [.irq, .step]) ∧
      m.step.cpu.registers = ⟨0xB0, 0x00, 0x00, 0xFD, 0x0202, Status.ofByte 0xC4⟩ ∧
      n.step.cpu.registers.p.decimal = true ∧ m.step.nextMnemonic = .php ∧
      SameButStatus 0x01FD m.step.step n.step.step := by
  intro memory m n
  have arr : memory.get 0x0200 = 0x6B := by simp [memory, FlatMemory.get_set]
  have operand : memory.get 0x0201 = 0x77 := by simp [memory, FlatMemory.get_set]
  have php : memory.get 0x0202 = 0x08 := by simp [memory, FlatMemory.get_set]
  -- The bytes looked up above are all that is needed of the memory.
  clear_value memory
  have same : SameButDecimal m n := ⟨⟨⟨true, rfl⟩, rfl, rfl⟩, rfl⟩
  have effect (decimal : Bool) : stepEffect memory.get (m.cpu.registers.withDecimal decimal) =
      { registers := Registers.withDecimal
          ⟨0xB0, 0x00, 0x00, 0xFD, 0x0202, Status.ofByte 0xC4⟩ decimal
        requests := [.read 0x0200, .read 0x0201] } := by
    have byte : (Registers.andRotateRight
        ⟨0x69, 0x00, 0x00, 0xFD, 0x0202, { Status.ofByte 0x05 with decimal }⟩
          (memory.get 0x0201)) =
        Registers.withDecimal ⟨0xB0, 0x00, 0x00, 0xFD, 0x0202, Status.ofByte 0xC4⟩ decimal := by
      rw [operand]
      revert decimal
      decide
    rw [← byte]
    show (Instruction.decode (memory.get 0x0200)).effect _ _ = _
    rw [arr]
    rfl
  have next : m.nextMnemonic = .arr := by
    show (Instruction.decode (memory.get 0x0200)).mnemonic = .arr
    rw [arr]
    rfl
  obtain ⟨steps, runs⟩ := decimal_unobserved same
  have stepped := (steps rfl).1 (by rw [next]; decide)
  obtain ⟨moved, -, running, served⟩ := m.step_of_stepEffect rfl (effect false)
  have registers : m.step.cpu.registers =
      ⟨0xB0, 0x00, 0x00, 0xFD, 0x0202, Status.ofByte 0xC4⟩ := moved
  have flag : n.step.cpu.registers.p.decimal = true :=
    congrArg (fun r => r.p.decimal) (n.step_of_stepEffect rfl (effect true)).1
  have bus : m.step.bus.bus = memory := by
    rw [served, Recorded.bus_serveAll]
    rfl
  have after : m.step.nextMnemonic = .php := by
    show (Instruction.decode (m.step.bus.bus.get m.step.cpu.registers.pc)).mnemonic = .php
    rw [bus, registers, php]
    rfl
  refine ⟨same, rfl, next, ?_, registers, flag, after, ?_⟩
  · refine runs [.irq, .step] ?_ _ List.prefix_rfl
    rintro (_ | ⟨first, _ | ⟨second, before⟩⟩) command within
    · obtain rfl : command = .irq := by simpa using within
      exact fun pushes => Bool.noConfusion pushes.2
    · obtain ⟨rfl, rfl⟩ : first = .irq ∧ command = .step := by simpa using within
      have still : m.after [.irq] = m := congrArg Prod.snd (m.irq_of_refused (.inr rfl))
      rw [still]
      rintro ⟨-, pushes⟩
      rw [next] at pushes
      exact absurd pushes (by decide)
    · simp at within
  · have slot : stackSlot m.step.cpu.registers.s = 0x01FD := by
      rw [registers]
      decide
    rw [← slot]
    exact ((decimal_unobserved stepped).1 running).2.2.1 after

end Machine
end NesMachine
