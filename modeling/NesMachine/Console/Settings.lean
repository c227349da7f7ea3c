import NesMachine.Text.Record

/-!
# Settings of the console

The image to load, the clock, and how strictly and how talkatively the console runs.
-/
namespace NesMachine

/-- The two kinds of console, which differ in their clock. -/
inductive Region where
  | ntsc | pal
  deriving DecidableEq, Repr

namespace Region

/-- The kind of console that is meant when none is named. -/
def standard : Region := .ntsc

def name : Region → String
  | .ntsc => "Ntsc"
  | .pal => "Pal"

def frequency : Region → Nat
  | .ntsc => 1789773
  | .pal => 1662607

/-- The cycles of the processor in a time, rounded down. -/
def cyclesIn (r : Region) (milliseconds : Nat) : Nat := r.frequency * milliseconds / 1000

end Region

structure Settings where
  image : Array UInt8
  region : Region
  /-- Whether an access that no device serves stops the console. -/
  strictMemory : Bool
  /-- Whether every instruction is noted in the journal. -/
  traceInstructions : Bool

namespace Settings

def ofImage (image : Array UInt8) : Settings := ⟨image, .standard, true, false⟩

open Text

/-- The settings on one line; of the image only its size is told. -/
def describe (s : Settings) : String :=
  record "NesConfig" [field "rom_len" s.image.size.repr, field "region" s.region.name,
    field "strict_memory" (truth s.strictMemory),
    field "trace_cpu" (truth s.traceInstructions)]

end Settings
end NesMachine
