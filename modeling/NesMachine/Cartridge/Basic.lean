import NesMachine.Cartridge.Nrom

/-!
# Cartridges

A cartridge is a header and the board that it describes. An image is refused when it is
shorter than its header says or asks for a board other than number zero.
-/
namespace NesMachine

structure Cartridge where
  header : Header
  board : Nrom

namespace Cartridge

def ofImage (image : Array UInt8) : Except CartridgeError Cartridge :=
  match Header.parse image with
  | .error e => .error e
  | .ok header =>
    if image.size < header.imageSize then
      .error (.truncated header.imageSize image.size)
    else if header.mapper ≠ 0 then .error (.unsupportedMapper header.mapper)
    else
      let prgRom := image.extract header.prgRomStart header.chrRomStart
      let chrRom := image.extract header.chrRomStart header.imageSize
      .ok ⟨header, .fitted prgRom chrRom header.prgRamSize header.mirroring⟩

/-- The cartridge on one line; its memories are left out. -/
def describe (c : Cartridge) : String :=
  Text.record "Cartridge" [Text.field "header" c.header.describe, ".."]

end Cartridge
end NesMachine
