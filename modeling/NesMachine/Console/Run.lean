import NesMachine.Console.Basic

/-!
# Running the console

Runs go from instruction to instruction until there is a reason to stop: the host asks for
it, the cycles allowed are used up, the processor jams, or a fault is found. Every
instruction takes at least one cycle, so the cycles allowed also bound the instructions.
-/
namespace NesMachine

inductive RunOutcome where
  /-- The processor is jammed. -/
  | halted
  /-- The host asked for it. -/
  | stopped
  /-- The cycles allowed are used up. -/
  | limitReached
  deriving DecidableEq, Repr

def RunOutcome.name : RunOutcome → String
  | .halted => "Halted"
  | .stopped => "Stopped"
  | .limitReached => "LimitReached"

namespace Console

/-- Runs a console that had spent `start` cycles when the run began, for at most `fuel` more
instructions. -/
def runFrom (start limit : Nat) (stop : Console → Bool) :
    (fuel : Nat) → Console → Except ConsoleError RunOutcome × Console
  | 0, c => (.ok .limitReached, c)
  | fuel + 1, c =>
    if stop c then (.ok .stopped, c)
    else if limit ≤ c.cycles - start then (.ok .limitReached, c)
    else
      match c.step with
      | (.error e, c) => (.error e, c)
      | (.ok true, c) => (.ok .halted, c)
      | (.ok false, c) => runFrom start limit stop fuel c

/-- Runs for up to `limit` cycles or until `stop` holds, which is asked before each
instruction and before the cycles are counted. -/
def runUntil (c : Console) (limit : Nat) (stop : Console → Bool) :
    Except ConsoleError RunOutcome × Console :=
  runFrom c.cycles limit stop (limit + 1) c

def run (c : Console) (limit : Nat) : Except ConsoleError RunOutcome × Console :=
  c.runUntil limit fun _ => false

end Console
end NesMachine
