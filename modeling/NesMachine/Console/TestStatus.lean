import NesMachine.Console.Run

/-!
# The status protocol of test programs

A test program leaves a signature in cartridge RAM once it has started, and a status byte
before it: one value while it runs, one to ask for the reset button after a short while,
and any other as its result, which comes with a message.
-/
namespace NesMachine

structure StatusReport where
  code : UInt8
  message : String
  /-- The cycles from the start of the run to the report. -/
  cycles : Nat
  deriving DecidableEq, Repr

def StatusReport.passed (r : StatusReport) : Bool := r.code = 0

namespace TestStatus

def statusAddress : UInt16 := 0x6000

/-- The bytes of the signature and where they are. -/
def signature : List (UInt16 × UInt8) := [(0x6001, 0xDE), (0x6002, 0xB0), (0x6003, 0x61)]

def messageAddress : UInt16 := 0x6004

/-- The status of a program that is still running. -/
def running : UInt8 := 0x80

/-- The status of a program that asks for a reset. -/
def needsReset : UInt8 := 0x81

/-- How long after it was asked for the reset button is pressed. -/
def resetDelayMilliseconds : Nat := 100

def started (c : Console) : Bool :=
  signature.all fun (address, value) => c.peek address == value

structure Watch where
  /-- When the reset button is to be pressed, if it is. -/
  resetAt : Option Nat
  /-- The status seen last. -/
  lastStatus : Option UInt8
  deriving DecidableEq, Repr

/-- Looks at the status of a program that has started. A request for a reset counts when it
was not there the last time; a result is given as a report. -/
def observe (c : Console) (elapsed : Nat) (w : Watch) : Except StatusReport Watch :=
  if started c then
    let status := c.peek statusAddress
    if status = running then .ok { w with lastStatus := some status }
    else if status = needsReset then
      let due := c.cycles + c.region.cyclesIn resetDelayMilliseconds
      .ok {
        resetAt := if w.lastStatus = some needsReset then w.resetAt else some due
        lastStatus := some status }
    else .error ⟨status, c.textAt messageAddress, elapsed⟩
  else .ok w

def pressReset (c : Console) (w : Watch) : Console × Watch :=
  match w.resetAt with
  | some due => if due ≤ c.cycles then (c.reset, { w with resetAt := none }) else (c, w)
  | none => (c, w)

/-- Runs a console that had spent `start` cycles when the run began, for at most `fuel` more
instructions. -/
def runFrom (start budget : Nat) :
    (fuel : Nat) → Console → Watch → Except ConsoleError StatusReport × Console
  | 0, c, _ => (.error (.timeout (c.cycles - start)), c)
  | fuel + 1, c, w =>
    let elapsed := c.cycles - start
    match observe c elapsed w with
    | .error report => (.ok report, c)
    | .ok w =>
      let (c, w) := pressReset c w
      if budget ≤ elapsed then (.error (.timeout elapsed), c)
      else
        match c.step with
        | (.error e, c) => (.error e, c)
        | (.ok true, c) =>
          let pc := c.pc - 1
          (.error (.jammed pc (c.peek pc)), c)
        | (.ok false, c) => runFrom start budget fuel c w

/-- Runs a test program until it reports its result or `budget` cycles have passed. -/
def run (c : Console) (budget : Nat) : Except ConsoleError StatusReport × Console :=
  runFrom c.cycles budget (budget + 1) c ⟨none, none⟩

end TestStatus
end NesMachine
