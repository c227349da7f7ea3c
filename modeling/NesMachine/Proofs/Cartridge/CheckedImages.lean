import NesMachine.Proofs.Cartridge.Acceptance
import NesMachine.Proofs.Panics

/-!
# Images are read within their bounds

Reading a header, and cutting an image into its ROMs, with every index and every slice
checked. Whatever the bytes are, no check fails: the size of the image has been asked for
before a byte of it is looked at.
-/
namespace NesMachine.Checked

/-- The byte at an index. -/
def byteOf (image : Array UInt8) (i : Nat) : Except Panic UInt8 := do
  return image[← index image.size i]

def parseHeader (image : Array UInt8) : Except Panic (Except CartridgeError Header) := do
  if image.size < 16 then return .error (.headerTooShort image.size)
  if (← slice image 0 4).toList ≠ Header.magic then return .error .badMagic
  let prgRomBanks ← byteOf image 4
  let chrRomBanks ← byteOf image 5
  let flags ← byteOf image 6
  let moreFlags ← byteOf image 7
  let prgRamBanks ← byteOf image 8
  if prgRomBanks = 0 then return .error .noPrgRom
  let dirtyTail := (← slice image 12 16).toList.any (· ≠ 0)
  return .ok {
    prgRomBanks, chrRomBanks
    mapper := (if dirtyTail then 0 else moreFlags &&& 0xF0) ||| flags >>> 4
    mirroring := Header.mirroringOf flags
    battery := flags &&& 0x02 ≠ 0
    trainer := flags &&& 0x04 ≠ 0
    prgRamBanks := max prgRamBanks 1
    dirtyTail }

/-- A cartridge from an image. Both ROMs are cut out before the board is asked for. -/
def readCartridge (image : Array UInt8) : Except Panic (Except CartridgeError Cartridge) := do
  match ← parseHeader image with
  | .error e => return .error e
  | .ok header =>
    if image.size < header.imageSize then
      return .error (.truncated header.imageSize image.size)
    let prgRom ← slice image header.prgRomStart header.chrRomStart
    let chrRom ← slice image header.chrRomStart header.imageSize
    if header.mapper ≠ 0 then return .error (.unsupportedMapper header.mapper)
    return .ok ⟨header, .fitted prgRom chrRom header.prgRamSize header.mirroring⟩

theorem byteOf_of_lt {image : Array UInt8} {i : Nat} (h : i < image.size) :
    byteOf image i = .ok image[i] := by
  rw [byteOf, index_of_lt h]
  rfl

/-- Reading a header looks at no byte that is not there. -/
theorem parseHeader_eq (image : Array UInt8) :
    parseHeader image = .ok (Header.parse image) := by
  by_cases short : image.size < 16
  · rw [parseHeader, Header.parse, if_pos short, dif_pos short]
    rfl
  · have mark : (image.extract 0 4).toList = [image[0], image[1], image[2], image[3]] :=
      congrArg Array.toList (Header.extract_four 0 (by omega))
    have tail : (image.extract 12 16).toList = [image[12], image[13], image[14], image[15]] :=
      congrArg Array.toList (Header.extract_four 12 (by omega))
    rw [parseHeader, Header.parse, if_neg short, dif_neg short,
      slice_of_le (by omega) (by omega), slice_of_le (by omega) (by omega)]
    simp (disch := omega) only [byteOf_of_lt, ok_bind, mark, tail]
    by_cases unmarked : [image[0], image[1], image[2], image[3]] ≠ Header.magic
    · rw [if_pos unmarked, if_pos unmarked]
      rfl
    · rw [if_neg unmarked, if_neg unmarked]
      by_cases banks : image[4] = 0
      · rw [if_pos banks, if_pos banks]
        rfl
      · rw [if_neg banks, if_neg banks]
        rfl

/-- An image that is as long as its header says has room for both of its ROMs. -/
theorem readCartridge_eq (image : Array UInt8) :
    readCartridge image = .ok (Cartridge.ofImage image) := by
  rw [readCartridge, parseHeader_eq, Cartridge.ofImage, ok_bind]
  cases Header.parse image with
  | error e => rfl
  | ok header =>
    dsimp only
    by_cases truncated : image.size < header.imageSize
    · rw [if_pos truncated, if_pos truncated]
      rfl
    · have long : header.imageSize = header.chrRomStart + header.chrRomSize := rfl
      have order : header.chrRomStart = header.prgRomStart + header.prgRomSize := rfl
      rw [if_neg truncated, if_neg truncated, slice_of_le (by omega) (by omega), ok_bind,
        slice_of_le (by omega) (by omega), ok_bind]
      split <;> rfl

end NesMachine.Checked
