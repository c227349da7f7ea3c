import NesMachine.Runner.Report

/-!
# The command line

Reads the images, runs the runner on them, and prints what it reports as it goes.
-/
namespace NesMachine.Runner

def readImage (path : String) : IO (Except ReadError (Array UInt8)) := do
  try
    return .ok (← IO.FS.readBinFile path).data
  catch e =>
    match e with
    | .inappropriateType _ 20 _ => return .error .notDirectory
    | .inappropriateType .. => return .error .isDirectory
    | _ => return .error .notFound

/-- Tests one image and prints what there is to tell about it. -/
def testAndPrint (options : Options) (path : String) : IO Report := do
  let (verdict, events) := testImage options path (← readImage path)
  let report : Report := ⟨path, verdict, events⟩
  for event in events do
    IO.eprintln event.render
  IO.println report.line
  return report

end NesMachine.Runner

open NesMachine.Runner in
def main (arguments : List String) : IO UInt32 := do
  match chooseOptions arguments with
  | .error complaint =>
    IO.eprintln complaint
    return 1
  | .ok options =>
    let reports ← options.roms.mapM (testAndPrint options)
    IO.println ""
    IO.println (summary reports)
    return (exitCode reports).toUInt32
