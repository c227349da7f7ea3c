import NesMachine.Runner.Verdict

/-!
# The automatic mode of nestest

This test program has an entry for machines without a picture. It comes to a known address
after a known number of cycles, and then runs on until it jams, leaving one result byte for
documented and one for undocumented instructions.
-/
namespace NesMachine.Runner.Nestest

def entry : UInt16 := 0xC000

def finish : UInt16 := 0xC66E

/-- The cycles that have passed when it is there. -/
def finishCycles : Nat := 26554

def officialAddress : UInt16 := 0x02

def unofficialAddress : UInt16 := 0x03

inductive Problem where
  | official (code : UInt8)
  | unofficial (code : UInt8)
  | cycles (count : Nat)
  deriving DecidableEq, Repr

def Problem.message : Problem → String
  | .official code => "official $" ++ Text.hexByte code
  | .unofficial code => "unofficial $" ++ Text.hexByte code
  | .cycles count =>
    "CYC " ++ count.repr ++ " at $" ++ Text.hexWord finish ++ ", expected " ++ finishCycles.repr

/-- What is wrong with the result bytes and the cycles at the end. -/
def problems (official unofficial : UInt8) (cycles : Nat) : List Problem :=
  (if official ≠ 0 then [.official official] else [])
    ++ (if unofficial ≠ 0 then [.unofficial unofficial] else [])
    ++ (if cycles ≠ finishCycles then [.cycles cycles] else [])

/-- The result of a run: passed if nothing is wrong. -/
def judge (official unofficial : UInt8) (cycles haltCycles : Nat) : TestResult :=
  let wrong := problems official unofficial cycles
  { passed := wrong.isEmpty
    code := official ||| unofficial
    message := if wrong.isEmpty then "ok" else ", ".intercalate (wrong.map Problem.message)
    cycles := haltCycles }

/-- Runs the program on from its end until it jams. -/
def runToHalt (c : Console) (budget : Nat) : Verdict × Console :=
  let cycles := c.cycles
  match c.run budget with
  | (.error e, c) => (.error (.interrupted e), c)
  | (.ok .halted, c) =>
    (.ok (judge (c.peek officialAddress) (c.peek unofficialAddress) cycles c.cycles), c)
  | (.ok outcome, c) => (.error (.notHalted finish outcome c.pc), c)

/-- Runs the program; both parts of the run may take `budget` cycles each. -/
def run (c : Console) (budget : Nat) : Verdict × Console :=
  match (c.jump entry).runUntil budget fun c => c.pc == finish with
  | (.error e, c) => (.error (.interrupted e), c)
  | (.ok .stopped, c) => runToHalt c budget
  | (.ok outcome, c) => (.error (.finishNotReached c.pc outcome finish), c)

end NesMachine.Runner.Nestest
