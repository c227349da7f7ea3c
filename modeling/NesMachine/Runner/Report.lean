import NesMachine.Runner.Nestest
import NesMachine.Runner.Options
import NesMachine.Text.Blank

/-!
# Reports

Testing one image, and what is written about all of them.
-/
namespace NesMachine.Runner

/-- The cycles that a test may take when no limit is given. -/
def defaultMaxCycles : Nat := 200000000

def usage : String :=
  "Usage: nes-test-runner [options] <rom.nes> [rom2.nes ...]\n" ++
  "  -v, --verbose      Debug logging\n" ++
  "      --trace        Log every instruction in nestest format\n" ++
  "      --lenient      Log memory faults instead of failing\n" ++
  "      --nestest      Run nestest.nes automation from $C000\n" ++
  "      --max-cycles N Cycle budget per ROM (default 200000000)"

/-- The options in arguments that name at least one image; otherwise, what to tell the
user. -/
def chooseOptions (arguments : List String) : Except String Options :=
  match Options.parse arguments with
  | .error e => .error ("error: " ++ e.message ++ "\n\n" ++ usage)
  | .ok options => if options.roms.isEmpty then .error usage else .ok options

/-- The console settings for an image. The automatic mode of nestest runs into memory that
is not there, so it needs a lenient bus. -/
def Options.settings (o : Options) (image : Array UInt8) : Settings :=
  { Settings.ofImage image with
    strictMemory := !o.lenient && !o.nestest
    traceInstructions := o.trace }

/-- What the header of an image gives to tell, whatever comes of the image. -/
def headerEvents (image : Array UInt8) : Array Event :=
  match Header.parse image with
  | .ok header => if header.dirtyTail then #[.dirtyTail] else #[]
  | .error _ => #[]

/-- Runs the program in a console until there is a verdict. -/
def testConsole (o : Options) (c : Console) : Verdict × Console :=
  let budget := o.maxCycles.getD defaultMaxCycles
  if o.nestest then Nestest.run c budget
  else
    match TestStatus.run c budget with
    | (.error e, c) => (.error (.interrupted e), c)
    | (.ok report, c) => (.ok ⟨report.passed, report.code, report.message, report.cycles⟩, c)

/-- Tests an image. Gives the verdict and what happened on the way. -/
def testImage (o : Options) (path : String) :
    Except ReadError (Array UInt8) → Verdict × Array Event
  | .error e => (.error (.unreadable path e), #[])
  | .ok image =>
    match Console.powerOn (o.settings image) with
    | .error e => (.error (.unloadable e), headerEvents image)
    | .ok c =>
      let (verdict, c) := testConsole o c
      (verdict, headerEvents image ++ c.journal)

structure Report where
  path : String
  verdict : Verdict
  events : Array Event

def Report.line (r : Report) : String :=
  match r.verdict with
  | .ok result =>
    (if result.passed then "[PASS] " else "[FAIL] ") ++ romName r.path ++ " - $"
      ++ Text.hexByte result.code ++ " (" ++ Text.trim result.message ++ ") after "
      ++ result.cycles.repr ++ " cycles"
  | .error failure => "[FAIL] " ++ romName r.path ++ " - " ++ failure.message

def summary (reports : List Report) : String :=
  let passed := reports.countP fun r => r.verdict.passed
  "Summary: " ++ passed.repr ++ " passed, " ++ (reports.length - passed).repr ++ " failed"

/-- The exit code: zero if all images have passed. -/
def exitCode (reports : List Report) : UInt8 :=
  if reports.all fun r => r.verdict.passed then 0 else 1

def testAll (o : Options) (read : String → Except ReadError (Array UInt8)) : List Report :=
  o.roms.map fun path =>
    let (verdict, events) := testImage o path (read path)
    ⟨path, verdict, events⟩

/-- What a run of the runner leaves behind. The log holds the traced instructions and the
warnings, as `Event` has them; the reports of progress, among them that a test has finished,
are no part of it. -/
inductive Transcript where
  /-- The arguments are wrong, or name no image; nothing was run. -/
  | refused (complaint : String)
  /-- All images were tested. -/
  | finished (exitCode : UInt8) (output : String) (log : List String)
  deriving DecidableEq, Repr

/-- Runs the runner with arguments and a way to read files. -/
def run (arguments : List String) (read : String → Except ReadError (Array UInt8)) :
    Transcript :=
  match chooseOptions arguments with
  | .error complaint => .refused (complaint ++ "\n")
  | .ok options =>
    let reports := testAll options read
    let lines := reports.map Report.line ++ ["", summary reports]
    .finished (exitCode reports) (String.join (lines.map (· ++ "\n")))
      (reports.flatMap fun r => r.events.toList.map Event.render)

end NesMachine.Runner
