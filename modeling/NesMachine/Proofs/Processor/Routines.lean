import NesMachine.Proofs.Bus.Dialogues
import NesMachine.Proofs.Processor.StepDuration

/-!
# The routines of the processor

What the processor does with its bus, as dialogues that start from its own state: the same
elementary cycles, operands and actions, told without a bus to run them on. An action that
is given an operand it cannot work on gets to a place that is not to be reached. The opcode
matrix keeps the processor from all these places, and so the routines, held with a bus, are
the machine on that bus.
-/
namespace NesMachine

/-- The state of a processor that decides what it does next. The lines it has traced do
not. -/
structure Engine where
  registers : Registers
  cycles : Nat
  halted : Bool
  deriving DecidableEq, Repr

def Engine.cpu (e : Engine) (trace : Option (Array TraceLine)) : Cpu :=
  ⟨e.registers, e.cycles, e.halted, trace⟩

def Cpu.engine (cpu : Cpu) : Engine := ⟨cpu.registers, cpu.cycles, cpu.halted⟩

abbrev Routine (α : Type) := StateT Engine Dialogue α

namespace Routine

variable {α δ : Type}

/-- Runs a routine on a machine whose bus answers as told. -/
def on {β : Type} (answers : Answers β) (p : Routine α) (m : Machine β) :
    Except Panic (α × Machine β) := do
  let (outcome, bus) ← (p m.cpu.engine).hold answers m.bus
  .ok (outcome.1, ⟨outcome.2.cpu m.cpu.trace, bus⟩)

def unreachable : Routine α := fun _ => .unreachable

def registers : Routine Registers := fun e => .done (e.registers, e)

def mapRegisters (f : Registers → Registers) : Routine Unit :=
  fun e => .done ((), { e with registers := f e.registers })

def jump (a : UInt16) : Routine Unit := mapRegisters fun r => { r with pc := a }

def halt (halted : Bool) : Routine Unit := fun e => .done ((), { e with halted })

def idle : Routine Unit := fun e => .done ((), { e with cycles := e.cycles + 1 })

def read (a : UInt16) : Routine UInt8 :=
  fun e => .read a fun v => .done (v, { e with cycles := e.cycles + 1 })

def look (a : UInt16) : Routine Unit :=
  fun e => .look a (.done ((), { e with cycles := e.cycles + 1 }))

def write (a : UInt16) (v : UInt8) : Routine Unit :=
  fun e => .write a v (.done ((), { e with cycles := e.cycles + 1 }))

def fetch : Routine UInt8 := do
  let r ← registers
  let v ← read r.pc
  mapRegisters fun r => { r with pc := r.pc + 1 }
  return v

/-- A word that is read in two bytes, the low one first. -/
def word (low high : Routine UInt8) : Routine UInt16 := do
  let low ← low
  let high ← high
  return wordOf low high

def fetchWord : Routine UInt16 := word fetch fetch

def readWordInPage (pointer : UInt16) : Routine UInt16 :=
  word (read pointer) (read (nextInPage pointer))

def readZeroPageWord (pointer : UInt8) : Routine UInt16 :=
  word (read (zeroPageAddress pointer)) (read (zeroPageAddress (pointer + 1)))

def push (v : UInt8) : Routine Unit := do
  let r ← registers
  mapRegisters fun _ => r.push.2
  write r.push.1 v

def pull : Routine UInt8 := do
  let r ← registers
  mapRegisters fun _ => r.pop.2
  read r.pop.1

def pushWord (w : UInt16) : Routine Unit := do
  push (highByte w)
  push (lowByte w)

def pullWord : Routine UInt16 := word pull pull

def resolveZeroPageIndexed (index : UInt8) : Routine Operand := do
  let base ← fetch
  look (zeroPageAddress base)
  return .memory (zeroPageAddress (base + index))

def resolveIndexed (base : UInt16) (index : UInt8) (access : Access) : Routine Operand := do
  let a := base + index.toUInt16
  if access ≠ .read ∨ pageCrossed base a then
    look (wordOf (lowByte a) (highByte base))
  return .memory a

def resolve (mode : Mode) (access : Access) : Routine Operand := do
  let r ← registers
  match mode with
  | .implied =>
    look r.pc
    return .implied
  | .accumulator =>
    look r.pc
    return .accumulator
  | .immediate =>
    mapRegisters fun r => { r with pc := r.pc + 1 }
    return .memory r.pc
  | .zeroPage => return .memory (zeroPageAddress (← fetch))
  | .zeroPageX => resolveZeroPageIndexed r.x
  | .zeroPageY => resolveZeroPageIndexed r.y
  | .absolute => return .memory (← fetchWord)
  | .absoluteX => resolveIndexed (← fetchWord) r.x access
  | .absoluteY => resolveIndexed (← fetchWord) r.y access
  | .indirect => return .memory (← readWordInPage (← fetchWord))
  | .indexedIndirect =>
    let base ← fetch
    look (zeroPageAddress base)
    return .memory (← readZeroPageWord (base + r.x))
  | .indirectIndexed => resolveIndexed (← readZeroPageWord (← fetch)) r.y access
  | .relative =>
    let offset ← fetch
    let r ← registers
    return .memory (displaced r.pc offset)

def load : Operand → Routine UInt8
  | .memory a => read a
  | .accumulator => return (← registers).a
  | .implied => unreachable

def store (operand : Operand) (v : UInt8) : Routine Unit :=
  match operand with
  | .memory a => write a v
  | .accumulator => mapRegisters fun r => { r with a := v }
  | .implied => unreachable

def modify (operand : Operand) (change : Registers → UInt8 → UInt8 × Registers) :
    Routine UInt8 :=
  match operand with
  | .memory a => do
    let old ← read a
    write a old
    let r ← registers
    mapRegisters fun _ => (change r old).2
    write a (change r old).1
    return (change r old).1
  | .accumulator => do
    let r ← registers
    mapRegisters fun _ => { (change r r.a).2 with a := (change r r.a).1 }
    return (change r r.a).1
  | .implied => unreachable

/-- Where a jump goes. -/
def target : Operand → Routine UInt16
  | .memory a => return a
  | .implied | .accumulator => unreachable

def storeMasked (a : UInt16) (index v : UInt8) : Routine Unit :=
  let base := a - index.toUInt16
  let masked := v &&& (highByte base + 1)
  write (if pageCrossed base a then wordOf (lowByte a) masked else a) masked

def branch (a : UInt16) : Routine Unit := do
  let r ← registers
  idle
  if pageCrossed r.pc a then idle
  jump a

def enterInterrupt (vector returnAddress : UInt16) (byInstruction : Bool) : Routine Unit := do
  pushWord returnAddress
  let r ← registers
  push (r.p.pushed byInstruction)
  mapRegisters fun r => { r with p := { r.p with interruptDisable := true } }
  jump (← readWordInPage vector)

def perform (operand : Operand) : Action → Routine Unit
  | .consume update => do
    let v ← load operand
    mapRegisters fun r => update r v
  | .store value => do
    let r ← registers
    store operand (value r)
  | .storeMasked index value update => do
    let r ← registers
    mapRegisters update
    storeMasked (← target operand) (index r) (value r)
  | .modify change update => do
    let v ← modify operand change
    mapRegisters fun r => update r v
  | .internal update => mapRegisters update
  | .push value => do
    let r ← registers
    push (value r)
  | .pull update => do
    idle
    let v ← pull
    mapRegisters fun r => update r v
  | .branch taken => do
    let r ← registers
    if taken r then branch (← target operand)
  | .jump => do jump (← target operand)
  | .call => do
    let a ← target operand
    let r ← registers
    idle
    pushWord (r.pc - 1)
    jump a
  | .returnFromCall => do
    idle
    let a ← pullWord
    idle
    jump (a + 1)
  | .returnFromInterrupt => do
    idle
    let p ← pull
    mapRegisters fun r => { r with p := .ofByte p }
    jump (← pullWord)
  | .interrupt => do
    let r ← registers
    enterInterrupt irqVector (r.pc + 1) true
  | .nothing =>
    match operand with
    | .memory a => look a
    | .implied | .accumulator => return
  | .jam => halt true

/-- An instruction whose opcode has been fetched. -/
def instruction (i : Instruction) : Routine Unit := do
  perform (← resolve i.mode i.mnemonic.access) i.mnemonic.action

def execute : Routine Unit := do instruction (.decode (← fetch))

/-- A request by a device, which a jammed processor does not serve. -/
def serve (vector : UInt16) : Routine Unit := do
  idle
  idle
  let r ← registers
  enterInterrupt vector r.pc false

def reset : Routine Unit := do
  idle
  idle
  idle
  idle
  idle
  mapRegisters fun r => { r with s := r.s - 3, p := { r.p with interruptDisable := true } }
  jump (← readWordInPage resetVector)
  halt false

theorem hold_of_on {β : Type} {answers : Answers β} {p : Routine α} {m m' : Machine β} {a : α}
    (held : p.on answers m = .ok (a, m')) :
    (p m.cpu.engine).hold answers m.bus = .ok ((a, m'.cpu.engine), m'.bus) ∧
      m'.cpu.trace = m.cpu.trace := by
  unfold on at held
  cases outcome : (p m.cpu.engine).hold answers m.bus with
  | error panic =>
    rw [outcome] at held
    cases held
  | ok outcome =>
    rw [outcome] at held
    cases held
    exact ⟨rfl, rfl⟩

/-- A routine goes on from where its first part has got. -/
theorem on_bind {β : Type} {answers : Answers β} {p : Routine α} {m m' : Machine β} {a : α}
    (held : p.on answers m = .ok (a, m')) (f : α → Routine δ) :
    (p >>= f).on answers m = (f a).on answers m' := by
  obtain ⟨first, trace⟩ := hold_of_on held
  unfold on
  show (((p m.cpu.engine).bind fun (a, e) => f a e).hold answers m.bus >>= _) = _
  rw [Dialogue.hold_bind, first, trace]
  rfl

section Answered

variable {β : Type} [Bus β] (m : Machine β)

theorem on_resolveIndexed (base : UInt16) (index : UInt8) (access : Access) :
    (resolveIndexed base index access).on (Bus.answers β) m =
      .ok (m.resolveIndexed base index access) := by
  unfold resolveIndexed Machine.resolveIndexed
  dsimp only
  split <;> rfl

theorem on_resolve (mode : Mode) (access : Access) :
    (resolve mode access).on (Bus.answers β) m = .ok (m.resolve mode access) := by
  cases mode with
  | absoluteX | absoluteY => exact on_resolveIndexed m.fetchWord.2 _ _ _
  | indirectIndexed => exact on_resolveIndexed (m.fetch.2.readZeroPageWord m.fetch.1).2 _ _ _
  | _ => rfl

theorem on_branch (a : UInt16) : (branch a).on (Bus.answers β) m = .ok ((), m.branch a) := by
  have split : (branch a).on (Bus.answers β) m =
      (if pageCrossed m.cpu.registers.pc a then (do idle; jump a) else jump a).on
        (Bus.answers β) m.idle := rfl
  rw [split]
  unfold Machine.branch
  dsimp only
  split <;> rfl

end Answered

end Routine

/-- Whether an action can work on an operand. -/
def Action.Takes (operand : Operand) : Action → Prop
  | .consume _ | .store _ | .modify .. => operand ≠ .implied
  | .storeMasked .. | .branch _ | .jump | .call => ∃ a, operand = .memory a
  | _ => True

theorem Action.takes_of_suits {mode : Mode} {operand : Operand} {action : Action}
    (suits : action.suits mode = true) (yields : mode.yields operand) : action.Takes operand := by
  have memory := mode.memory_of_holdsByte yields
  cases action with
  | consume update =>
    obtain ⟨a, rfl⟩ := memory suits
    exact Operand.noConfusion
  | store value =>
    obtain ⟨a, rfl⟩ := memory (Bool.and_eq_true_iff.mp suits).1
    exact Operand.noConfusion
  | modify change update =>
    rcases Bool.or_eq_true_iff.mp suits with suits | suits
    · obtain ⟨a, rfl⟩ := memory (Bool.and_eq_true_iff.mp suits).1
      exact Operand.noConfusion
    · obtain rfl := beq_iff_eq.mp suits
      obtain rfl : operand = .accumulator := yields
      exact Operand.noConfusion
  | storeMasked index value update => exact memory (Bool.and_eq_true_iff.mp suits).1
  | branch taken =>
    obtain rfl := beq_iff_eq.mp suits
    exact yields
  | jump =>
    rcases Bool.or_eq_true_iff.mp suits with suits | suits
    · obtain rfl := beq_iff_eq.mp suits
      exact yields
    · obtain rfl := beq_iff_eq.mp suits
      exact yields
  | call =>
    obtain rfl := beq_iff_eq.mp suits
    exact yields
  | _ => trivial

namespace Routine

variable {β : Type} [Bus β] (m : Machine β)

/-- An action that takes its operand gets to no place that is not to be reached. -/
theorem on_perform {operand : Operand} {action : Action} (takes : action.Takes operand) :
    (perform operand action).on (Bus.answers β) m = .ok ((), m.perform operand action) := by
  cases action with
  | consume update | store value | modify change update =>
    cases operand with
    | memory a | accumulator => rfl
    | implied => exact absurd rfl takes
  | storeMasked index value update | jump | call =>
    obtain ⟨a, rfl⟩ := takes
    rfl
  | branch taken =>
    obtain ⟨a, rfl⟩ := takes
    have split : (perform (.memory a) (.branch taken)).on (Bus.answers β) m =
        (if taken m.cpu.registers then branch a else pure ()).on (Bus.answers β) m := rfl
    rw [split]
    unfold Machine.perform
    dsimp only
    split
    · exact on_branch m a
    · rfl
  | nothing => cases operand <;> rfl
  | _ => rfl

theorem on_instruction {i : Instruction} (suits : i.mnemonic.action.suits i.mode = true) :
    (instruction i).on (Bus.answers β) m =
      .ok ((), (m.resolve i.mode i.mnemonic.access).2.perform
        (m.resolve i.mode i.mnemonic.access).1 i.mnemonic.action) := by
  have takes := Action.takes_of_suits suits (m.exists_resolve i.mode i.mnemonic.access).1
  exact (on_bind (on_resolve m i.mode i.mnemonic.access) _).trans (on_perform _ takes)

/-- No opcode leads to a place that is not to be reached. -/
theorem on_execute : execute.on (Bus.answers β) m = .ok ((), m.execute) := by
  have fetched : fetch.on (Bus.answers β) m = .ok m.fetch := rfl
  exact (on_bind fetched _).trans (on_instruction _ (Instruction.suits_decode m.fetch.1))

theorem on_serve (vector : UInt16) : (serve vector).on (Bus.answers β) m =
    .ok ((), m.idle.idle.enterInterrupt vector m.cpu.registers.pc false) := rfl

theorem on_reset : reset.on (Bus.answers β) m = .ok ((), m.reset) := rfl

end Routine
end NesMachine
