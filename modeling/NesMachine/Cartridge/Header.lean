import NesMachine.Text.Record

/-!
# Image headers

A cartridge image opens with sixteen bytes: four that mark it, the sizes of its two ROMs in
banks, three bytes of flags and the size of its RAM, and a tail that ought to be zero. Old
tools left a signature in the tail, which spoils the upper digit of the board number.
-/
namespace NesMachine

inductive Mirroring where
  | horizontal | vertical | fourScreen
  deriving DecidableEq, Repr

def Mirroring.name : Mirroring → String
  | .horizontal => "Horizontal"
  | .vertical => "Vertical"
  | .fourScreen => "FourScreen"

inductive CartridgeError where
  | headerTooShort (size : Nat)
  | badMagic
  | noPrgRom
  | truncated (expected actual : Nat)
  | unsupportedMapper (number : UInt8)
  deriving DecidableEq, Repr

def CartridgeError.message : CartridgeError → String
  | .headerTooShort size => "image too short for iNES header (" ++ size.repr ++ " bytes)"
  | .badMagic => "missing iNES magic (expected NES\\x1A)"
  | .noPrgRom => "image declares no PRG ROM"
  | .truncated expected actual =>
    "image truncated: expected " ++ expected.repr ++ " bytes, found " ++ actual.repr
  | .unsupportedMapper number => "unsupported mapper " ++ number.toNat.repr

structure Header where
  /-- Program ROM in units of 16 KiB, at least one. -/
  prgRomBanks : UInt8
  /-- Character ROM in units of 8 KiB. -/
  chrRomBanks : UInt8
  /-- The number of the board. -/
  mapper : UInt8
  mirroring : Mirroring
  battery : Bool
  trainer : Bool
  /-- Program RAM in units of 8 KiB, at least one. -/
  prgRamBanks : UInt8
  /-- Whether the tail holds something, so that the upper digit of the board number was not
  believed. -/
  dirtyTail : Bool
  deriving DecidableEq, Repr

namespace Header

def size : Nat := 16

/-- The length of a trainer, which lies between the header and the program ROM. -/
def trainerSize : Nat := 512

def magic : List UInt8 := [0x4E, 0x45, 0x53, 0x1A]

def prgRomSize (h : Header) : Nat := h.prgRomBanks.toNat * 0x4000

def chrRomSize (h : Header) : Nat := h.chrRomBanks.toNat * 0x2000

def prgRamSize (h : Header) : Nat := h.prgRamBanks.toNat * 0x2000

def prgRomStart (h : Header) : Nat := size + if h.trainer then trainerSize else 0

def chrRomStart (h : Header) : Nat := h.prgRomStart + h.prgRomSize

def imageSize (h : Header) : Nat := h.chrRomStart + h.chrRomSize

/-- The mirroring that a flag byte asks for; four screens win over the other bit. -/
def mirroringOf (flags : UInt8) : Mirroring :=
  if flags &&& 0x08 ≠ 0 then .fourScreen
  else if flags &&& 0x01 ≠ 0 then .vertical
  else .horizontal

/-- Reads the header of an image. Its length is checked first, then the marking bytes, then
that there is program ROM. -/
def parse (image : Array UInt8) : Except CartridgeError Header :=
  if h : image.size < 16 then .error (.headerTooShort image.size)
  else if [image[0], image[1], image[2], image[3]] ≠ magic then .error .badMagic
  else if image[4] = 0 then .error .noPrgRom
  else
    let flags := image[6]
    let dirtyTail := [image[12], image[13], image[14], image[15]].any (· ≠ 0)
    let upperDigit : UInt8 := if dirtyTail then 0 else image[7] &&& 0xF0
    .ok {
      prgRomBanks := image[4]
      chrRomBanks := image[5]
      mapper := upperDigit ||| flags >>> 4
      mirroring := mirroringOf flags
      battery := flags &&& 0x02 ≠ 0
      trainer := flags &&& 0x04 ≠ 0
      prgRamBanks := max image[8] 1
      dirtyTail }

open Text

def describe (h : Header) : String :=
  record "InesHeader" [
    field "prg_rom_banks" h.prgRomBanks.toNat.repr,
    field "chr_rom_banks" h.chrRomBanks.toNat.repr,
    field "mapper_number" h.mapper.toNat.repr,
    field "mirroring" h.mirroring.name,
    field "has_battery" (truth h.battery),
    field "has_trainer" (truth h.trainer),
    field "prg_ram_banks" h.prgRamBanks.toNat.repr]

end Header
end NesMachine
