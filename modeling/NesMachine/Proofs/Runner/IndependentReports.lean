import NesMachine.Proofs.Runner.Arguments

/-!
# Images are tested on their own

What a run of the runner prints and logs is put together from what it prints and logs about
each image, and that depends on the options and on the image only. A line is what is printed
about one image; the name of an image and the message of a program may hold line breaks. The
records of the log are the instructions traced and the warnings given.
-/
namespace NesMachine.Runner

def passes (line : String) : Bool := "[PASS] ".toList.isPrefixOf line.toList

def fails (line : String) : Bool := "[FAIL] ".toList.isPrefixOf line.toList

/-- The summary of lines about images. -/
def tally (lines : List String) : String :=
  "Summary: " ++ (lines.countP passes).repr ++ " passed, "
    ++ (lines.countP fails).repr ++ " failed"

/-- The output that holds lines about images. -/
def printed (lines : List String) : String :=
  String.join ((lines ++ ["", tally lines]).map (· ++ "\n"))

def exitStatus (lines : List String) : UInt8 := if lines.all passes then 0 else 1

def Transcript.ofLines (lines records : List String) : Transcript :=
  .finished (exitStatus lines) (printed lines) records

/-! What lines show of their reports. -/

namespace Report

def records (r : Report) : List String := r.events.toList.map Event.render

theorem passes_line (r : Report) : passes r.line = r.verdict.passed := by
  obtain ⟨path, failure | ⟨passed, code, message, cycles⟩, events⟩ := r
  · simp [passes, line, Verdict.passed, List.isPrefixOf]
  · cases passed <;> simp [passes, line, Verdict.passed, List.isPrefixOf]

theorem fails_line (r : Report) : fails r.line = !r.verdict.passed := by
  obtain ⟨path, failure | ⟨passed, code, message, cycles⟩, events⟩ := r
  · simp [fails, line, Verdict.passed, List.isPrefixOf]
  · cases passed <;> simp [fails, line, Verdict.passed, List.isPrefixOf]

variable (reports : List Report)

theorem countP_passes :
    (reports.map line).countP passes = reports.countP fun r => r.verdict.passed := by
  rw [List.countP_map]
  exact List.countP_congr fun r _ => by simp [passes_line]

theorem countP_passes_add_countP_fails :
    (reports.map line).countP passes + (reports.map line).countP fails = reports.length := by
  have failed : (reports.map line).countP fails =
      reports.countP fun r => decide ¬r.verdict.passed = true := by
    rw [List.countP_map]
    exact List.countP_congr fun r _ => by simp [fails_line]
  rw [countP_passes, failed]
  exact (List.length_eq_countP_add_countP _).symm

theorem summary_eq_tally : summary reports = tally (reports.map line) := by
  have all := countP_passes_add_countP_fails reports
  have failed : reports.length - (reports.map line).countP passes =
      (reports.map line).countP fails := by omega
  rw [tally, ← failed, countP_passes]
  rfl

theorem exitCode_eq_exitStatus : exitCode reports = exitStatus (reports.map line) := by
  have passed : passes ∘ line = fun r => r.verdict.passed := funext passes_line
  rw [exitCode, exitStatus, List.all_map, passed]

end Report

/-- The report about the image at a path. -/
def Options.report (o : Options) (read : String → Except ReadError (Array UInt8))
    (path : String) : Report :=
  let (verdict, events) := testImage o path (read path)
  ⟨path, verdict, events⟩

variable {arguments : List String} {o : Options}

/-- A run reports on one path after another. -/
theorem run_eq_ofLines (chosen : chooseOptions arguments = .ok o)
    (read : String → Except ReadError (Array UInt8)) :
    run arguments read = .ofLines (o.roms.map fun path => (o.report read path).line)
      (o.roms.flatMap fun path => (o.report read path).records) := by
  have lines : (testAll o read).map Report.line =
      o.roms.map fun path => (o.report read path).line := List.map_map
  have records : (testAll o read).flatMap Report.records =
      o.roms.flatMap fun path => (o.report read path).records := List.flatMap_map ..
  rw [run, chosen, Transcript.ofLines, ← lines, ← records, printed, ← Report.summary_eq_tally,
    ← Report.exitCode_eq_exitStatus]
  rfl

/-! The lines of the output. -/

theorem splitOn_join (texts : List String) :
    (String.join (texts.map (· ++ "\n"))).toList.splitOn '\n' =
      texts.flatMap (·.toList.splitOn '\n') ++ [[]] := by
  induction texts with
  | nil => rfl
  | cons text texts ih =>
    have joined : (String.join ((text :: texts).map (· ++ "\n"))).toList =
        text.toList ++ '\n' :: (String.join (texts.map (· ++ "\n"))).toList := by
      simp
    rw [joined, List.splitOn_append_cons_of_beq _ _ (beq_self_eq_true _), ih, List.flatMap_cons,
      List.append_assoc]

theorem newline_notMem_tally (lines : List String) : '\n' ∉ (tally lines).toList := by
  have digits (n : Nat) : '\n' ∉ Nat.toDigits 10 n := by
    intro listed
    exact absurd (Nat.isDigit_of_mem_toDigits (by decide) (by decide) listed) (by decide)
  simp [tally, digits]

theorem splitOn_printed (lines : List String) :
    (printed lines).toList.splitOn '\n' =
      lines.flatMap (·.toList.splitOn '\n') ++ [[], (tally lines).toList, []] := by
  have single : (tally lines).toList.splitOn '\n' = [(tally lines).toList] :=
    List.splitOn_eq_singleton (newline_notMem_tally lines)
  rw [printed, splitOn_join, List.flatMap_append, List.append_assoc]
  simp [single]

/-- Without the automatic mode, an image passes if the program in it reports the code zero. -/
theorem Options.passes_line_report (read : String → Except ReadError (Array UInt8))
    (reporting : o.nestest = false) (path : String) :
    passes (o.report read path).line = true ↔
      ∃ image, read path = .ok image ∧ ∃ c, Console.powerOn (o.settings image) = .ok c ∧
        ∃ report, (TestStatus.run c (o.maxCycles.getD defaultMaxCycles)).1 = .ok report ∧
          report.code = 0 := by
  have verdict : (o.report read path).verdict = (testImage o path (read path)).1 := rfl
  rw [Report.passes_line, verdict]
  cases read path with
  | error e => simp [testImage, Verdict.passed]
  | ok image =>
    cases powered : Console.powerOn (o.settings image) with
    | error e => simp [testImage, powered, Verdict.passed]
    | ok c =>
      rcases ran : TestStatus.run c (o.maxCycles.getD defaultMaxCycles) with ⟨e | report, c'⟩
      · simp [testImage, powered, testConsole, reporting, ran, Verdict.passed]
      · simp [testImage, powered, testConsole, reporting, ran, Verdict.passed, StatusReport.passed]

theorem tally_perm {lines lines' : List String} (same : lines.Perm lines') :
    tally lines = tally lines' := by
  rw [tally, tally, same.countP_eq, same.countP_eq]

theorem exitStatus_perm {lines lines' : List String} (same : lines.Perm lines') :
    exitStatus lines = exitStatus lines' := by
  rw [exitStatus, exitStatus, same.all_eq]

theorem exitStatus_eq_zero_iff (lines : List String) :
    exitStatus lines = 0 ↔ ∀ line ∈ lines, passes line = true := by
  rw [← List.all_eq_true, exitStatus]
  cases lines.all passes <;> decide

/-- The arguments ask for some paths with the options that are chosen. -/
def Options.AskedFor (o : Options) (paths arguments : List String) : Prop :=
  chooseOptions arguments = .ok { o with roms := paths }

/-- Every image has a line and records of its own, whatever images are tested before it. -/
structure TestsSeparately (read : String → Except ReadError (Array UInt8))
    (arguments : List String) (o : Options) (line : String → String)
    (records : String → List String) : Prop where
  whole : run arguments read = .ofLines (o.roms.map line) (o.roms.flatMap records)
  /-- The output has the lines about the paths in their order, an empty line, and the summary,
  and ends with a line break. -/
  outputLines : (printed (o.roms.map line)).toList.splitOn '\n' =
    o.roms.flatMap (fun path => (line path).toList.splitOn '\n') ++
      [[], (tally (o.roms.map line)).toList, []]
  tagged : ∀ path ∈ o.roms, passes (line path) = !fails (line path)
  counted : (o.roms.map line).countP passes + (o.roms.map line).countP fails = o.roms.length
  exits : exitStatus (o.roms.map line) = 0 ↔ ∀ path ∈ o.roms, passes (line path) = true
  alone : ∀ path ∈ o.roms, o.AskedFor [path] (withoutPaths arguments ++ [path]) ∧
    ∀ other, o.AskedFor [path] other → run other read = .ofLines [line path] (records path)
  reordered : ∀ paths, paths.Perm o.roms → o.AskedFor paths (withoutPaths arguments ++ paths) ∧
    (∀ other, o.AskedFor paths other →
      run other read = .ofLines (paths.map line) (paths.flatMap records)) ∧
    (paths.map line).Perm (o.roms.map line) ∧
    tally (paths.map line) = tally (o.roms.map line) ∧
    exitStatus (paths.map line) = exitStatus (o.roms.map line)
  /-- Without the automatic mode, a line tells what the program in a new console reports. -/
  reported : o.nestest = false → ∀ path ∈ o.roms, passes (line path) = true ↔
    ∃ image, read path = .ok image ∧ ∃ c, Console.powerOn (o.settings image) = .ok c ∧
      ∃ report, (TestStatus.run c (o.maxCycles.getD defaultMaxCycles)).1 = .ok report ∧
        report.code = 0

end NesMachine.Runner
