import NesMachine.Text.Numeral
import NesMachine.Text.Quoted

/-!
# Command-line options

The arguments of the runner are flags, a limit on the cycles, and the paths of the images
to run. Reading goes from left to right and stops at the first argument that is wrong.
-/
namespace NesMachine.Runner

structure Options where
  /-- Asks for the reports of progress, which are left out of the log: it has no effect here. -/
  verbose : Bool
  trace : Bool
  lenient : Bool
  nestest : Bool
  maxCycles : Option Nat
  /-- The paths of the images, in order. -/
  roms : List String
  deriving DecidableEq, Repr

inductive ArgumentError where
  | missingCycleCount
  | badCycleCount (value : String) (cause : Text.NumeralError)
  | unknownOption (argument : String)
  deriving DecidableEq, Repr

def ArgumentError.message : ArgumentError → String
  | .missingCycleCount => "--max-cycles needs a value"
  | .badCycleCount value cause => "bad cycle count " ++ Text.quote value ++ ": " ++ cause.message
  | .unknownOption argument => "unknown option " ++ argument

inductive Argument where
  | verbose | trace | lenient | nestest
  /-- The next argument is a number of cycles. -/
  | maxCycles
  /-- It looks like an option and is none. -/
  | unknown
  /-- The path of an image. -/
  | rom
  deriving DecidableEq, Repr

def Argument.of (argument : String) : Argument :=
  if argument = "-v" ∨ argument = "--verbose" then .verbose
  else if argument = "--trace" then .trace
  else if argument = "--lenient" then .lenient
  else if argument = "--nestest" then .nestest
  else if argument = "--max-cycles" then .maxCycles
  else if argument.toList.head? = some '-' then .unknown
  else .rom

namespace Options

def plain : Options := ⟨false, false, false, false, none, []⟩

/-- The greatest number of cycles that can be asked for. -/
def cycleLimit : Nat := UInt64.size - 1

/-- Reads a number of cycles, whose digits may be grouped by underscores. -/
def parseCycles (value : String) : Except ArgumentError Nat :=
  let digits := String.ofList (value.toList.filter (· ≠ '_'))
  (Text.readNumeral 10 cycleLimit digits).mapError (.badCycleCount value)

/-- Adds what arguments ask for to what was asked for before. -/
def parseFrom (o : Options) : List String → Except ArgumentError Options
  | [] => .ok o
  | argument :: rest =>
    match Argument.of argument with
    | .verbose => parseFrom { o with verbose := true } rest
    | .trace => parseFrom { o with trace := true } rest
    | .lenient => parseFrom { o with lenient := true } rest
    | .nestest => parseFrom { o with nestest := true } rest
    | .unknown => .error (.unknownOption argument)
    | .rom => parseFrom { o with roms := o.roms ++ [argument] } rest
    | .maxCycles =>
      match rest with
      | [] => .error .missingCycleCount
      | value :: rest =>
        match parseCycles value with
        | .error e => .error e
        | .ok cycles => parseFrom { o with maxCycles := some cycles } rest

def parse (arguments : List String) : Except ArgumentError Options := plain.parseFrom arguments

end Options
end NesMachine.Runner
