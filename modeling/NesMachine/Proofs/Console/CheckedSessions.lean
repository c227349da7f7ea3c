import NesMachine.Proofs.Console.CheckedRuns

/-!
# No session with a console panics

A host loads an image and then does with the console what it likes. Whatever the bytes of the
image are, a session with everything checked is the session: none of the checks fails.
-/
namespace NesMachine

/-- What a host can do with a console. -/
inductive Act where
  | obey (command : Command)
  | runUntil (limit : Nat) (stop : Console → Bool)
  | test (budget : Nat)
  | peek (address : UInt16)
  | text (address : UInt16)
  | disassemble (address : UInt16)

/-- What the host is told in return. -/
inductive Answer where
  | reply (reply : Reply)
  | outcome (outcome : Except ConsoleError RunOutcome)
  | report (report : Except ConsoleError StatusReport)
  | byte (value : UInt8)
  | text (text : String)
  | disassembly (disassembly : Disassembly)

namespace Console

def act (c : Console) : Act → Answer × Console
  | .obey command => (.reply (c.obey command).1, (c.obey command).2)
  | .runUntil limit stop => (.outcome (c.runUntil limit stop).1, (c.runUntil limit stop).2)
  | .test budget => (.report (TestStatus.run c budget).1, (TestStatus.run c budget).2)
  | .peek a => (.byte (c.peek a), c)
  | .text a => (.text (c.textAt a), c)
  | .disassemble a => (.disassembly (disassemble c.bus c.cpu.registers a), c)

def acts (c : Console) : List Act → List Answer × Console
  | [] => ([], c)
  | act :: rest =>
    let (answer, c) := c.act act
    let (answers, c) := c.acts rest
    (answer :: answers, c)

/-- Switches a console on and does something with it. -/
def session (settings : Settings) (acts : List Act) :
    Except ConsoleError (List Answer × Console) :=
  match powerOn settings with
  | .error e => .error e
  | .ok c => .ok (c.acts acts)

end Console

namespace Checked

def act (c : Console) : Act → Except Panic (Answer × Console)
  | .obey command => do
    let (reply, c) ← obey c command
    return (.reply reply, c)
  | .runUntil limit stop => do
    let (outcome, c) ← runFrom c.cycles limit stop (limit + 1) c
    return (.outcome outcome, c)
  | .test budget => do
    let (report, c) ← testFrom c.cycles budget (budget + 1) c ⟨none, none⟩
    return (.report report, c)
  | .peek a => return (.byte (← peek c.bus a), c)
  | .text a => do
    let bytes ← peekText (peek c.bus) a Console.maxStringSize
    return (.text (Text.decodeUtf8 bytes), c)
  | .disassemble a => return (.disassembly (← disassemble (peek c.bus) c.cpu.registers a), c)

def acts (c : Console) : List Act → Except Panic (List Answer × Console)
  | [] => return ([], c)
  | first :: rest => do
    let (answer, c) ← act c first
    let (answers, c) ← acts c rest
    return (answer :: answers, c)

def session (settings : Settings) (performed : List Act) :
    Except Panic (Except ConsoleError (List Answer × Console)) := do
  match ← powerOn settings with
  | .error e => return .error e
  | .ok c => return .ok (← acts c performed)

theorem act_eq (c : Console) (performed : Act) : act c performed = .ok (c.act performed) := by
  cases performed with
  | obey command => rw [act, obey_eq]; rfl
  | runUntil limit stop => rw [act, runFrom_eq limit stop _ (Nat.le_refl _)]; rfl
  | test budget => rw [act, testFrom_eq budget _ _ (Nat.le_refl _)]; rfl
  | peek a => rw [act, peek_eq]; rfl
  | text a => rw [act, peek_bus_eq, peekText_eq]; rfl
  | disassemble a => rw [act, peek_bus_eq, disassemble_eq]; rfl

theorem acts_eq (c : Console) (performed : List Act) :
    acts c performed = .ok (c.acts performed) := by
  induction performed generalizing c with
  | nil => rfl
  | cons first rest ih =>
    rw [acts, act_eq, ok_bind]
    dsimp only
    rw [ih]
    rfl

/-- Whatever bytes a console is switched on with and whatever is done with it then, no check
fails. -/
theorem no_panic_in_session (settings : Settings) (performed : List Act) :
    session settings performed = .ok (Console.session settings performed) := by
  rw [session, powerOn_eq, ok_bind, Console.session]
  cases Console.powerOn settings with
  | error e => rfl
  | ok c =>
    dsimp only
    rw [acts_eq]
    rfl

end Checked
end NesMachine
