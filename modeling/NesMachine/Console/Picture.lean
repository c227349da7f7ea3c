/-!
# The picture unit

Eight registers, without the picture. Reading the status register turns the vertical-blank
bit over each time, so that a program that waits for it goes on, and clears the toggle that
the scroll and address registers share.
-/
namespace NesMachine

structure PictureUnit where
  registers : Vector UInt8 8
  /-- Whether the status register shows a vertical blank. -/
  vblank : Bool
  /-- Whether the next write to the scroll or address register is the second of two. -/
  writeToggle : Bool
  deriving DecidableEq

namespace PictureUnit

def powerOn : PictureUnit := ⟨Vector.replicate 8 0, false, false⟩

/-- The register that a number selects: there are eight, and they repeat. -/
def select (number : UInt16) : Fin 8 := ⟨number.toNat % 8, Nat.mod_lt _ (by decide)⟩

def status : Fin 8 := 2

def scroll : Fin 8 := 5

def address : Fin 8 := 6

/-- The byte in a register. The status register has the vertical blank as its highest bit,
and its low five bits are those of the last write to any register. -/
def peek (unit : PictureUnit) (number : UInt16) : UInt8 :=
  if select number = status then
    unit.registers[status] &&& 0x1F ||| if unit.vblank then 0x80 else 0
  else unit.registers[select number]

def read (unit : PictureUnit) (number : UInt16) : UInt8 × PictureUnit :=
  (unit.peek number,
    if select number = status then
      { unit with vblank := !unit.vblank, writeToggle := false }
    else unit)

/-- Writes a register. The status register keeps only the bits that any write leaves. -/
def write (unit : PictureUnit) (number : UInt16) (value : UInt8) : PictureUnit :=
  let register := select number
  let registers := unit.registers.set status (value &&& 0x1F)
  { unit with
    registers := if register = status then registers else registers.set register value
    writeToggle :=
      if register = scroll ∨ register = address then !unit.writeToggle else unit.writeToggle }

end PictureUnit
end NesMachine
