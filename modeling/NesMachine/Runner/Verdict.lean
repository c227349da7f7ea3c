import NesMachine.Console.TestStatus
import NesMachine.Runner.FileTree

/-!
# Verdicts

What came of testing an image: a result that the program gave, or the reason why there is
none.
-/
namespace NesMachine.Runner

structure TestResult where
  passed : Bool
  code : UInt8
  message : String
  cycles : Nat
  deriving DecidableEq, Repr

inductive TestFailure where
  /-- The image cannot be read. -/
  | unreadable (path : String) (cause : ReadError)
  /-- The image is no cartridge. -/
  | unloadable (cause : ConsoleError)
  /-- The console could not go on. -/
  | interrupted (cause : ConsoleError)
  /-- A run has ended before it came to the address `finish`. -/
  | finishNotReached (pc : UInt16) (outcome : RunOutcome) (finish : UInt16)
  /-- A run has not jammed the processor after the address `finish`. -/
  | notHalted (finish : UInt16) (outcome : RunOutcome) (pc : UInt16)
  deriving DecidableEq, Repr

/-- The text of a failure, followed by its causes. -/
def TestFailure.message : TestFailure → String
  | .unreadable path cause => "failed to read " ++ path ++ ": " ++ cause.message
  | .unloadable cause => ": ".intercalate ("failed to load ROM" :: cause.chain)
  | .interrupted cause => ": ".intercalate cause.chain
  | .finishNotReached pc outcome finish =>
    "stopped at $" ++ Text.hexWord pc ++ " (" ++ outcome.name ++ ") before reaching $"
      ++ Text.hexWord finish
  | .notHalted finish outcome pc =>
    "no halt after $" ++ Text.hexWord finish ++ " (" ++ outcome.name ++ ", PC $"
      ++ Text.hexWord pc ++ ")"

abbrev Verdict := Except TestFailure TestResult

def Verdict.passed : Verdict → Bool
  | .ok result => result.passed
  | .error _ => false

end NesMachine.Runner
