import NesMachine.Console.Basic
import NesMachine.Processor.Query
import NesMachine.Text.Numeral

/-!
# Looking at the console

Values by path: a device and a name, or an address in memory. A path that names no device
is one of the processor.
-/
namespace NesMachine

namespace Text

/-- What follows `start` in a list that opens with it. -/
def after? {α : Type} [DecidableEq α] : (start list : List α) → Option (List α)
  | [], list => some list
  | _ :: _, [] => none
  | a :: start, b :: list => if a = b then after? start list else none

/-- What follows `start` in a text that opens with it. -/
def textAfter? (start s : String) : Option String :=
  (after? start.toList s.toList).map String.ofList

end Text

namespace Console

open Text

/-- The address that a text names: hexadecimal after `0x`, `0X` or `$`, and decimal
otherwise. -/
def address? (s : String) : Option UInt16 :=
  let numeral (base : Nat) (digits : String) : Option UInt16 :=
    (readNumeral base 0xFFFF digits).toOption.map UInt16.ofNat
  match (textAfter? "0x" s).or ((textAfter? "0X" s).or (textAfter? "$" s)) with
  | some digits => numeral 16 digits
  | none => numeral 10 s

def queryPicture (unit : PictureUnit) : String → Option Value
  | "vblank" => some (.bool unit.vblank)
  | "write_toggle" => some (.bool unit.writeToggle)
  | _ => none

def queryCartridge (cartridge : Cartridge) : String → Option Value
  | "mirroring" => some (.text cartridge.board.mirroring.name)
  | "chr_rom_len" => some (.count cartridge.board.chrRom.size)
  | "prg_ram" => some (.bool cartridge.board.hasRam)
  | _ => none

/-- The value at a path, if there is one. -/
def query (c : Console) (path : String) : Option Value :=
  match textAfter? "cpu." path with
  | some name => c.cpu.query name
  | none =>
  match textAfter? "ppu." path with
  | some name => queryPicture c.bus.picture name
  | none =>
  match textAfter? "cartridge." path with
  | some name => queryCartridge c.bus.cartridge name
  | none =>
  match textAfter? "memory." path with
  | some name => (address? name).map fun address => .byte (c.peek address)
  | none => c.cpu.query path

def queryPaths : List String :=
  ["cpu.<2a03_paths>", "ppu.vblank", "ppu.write_toggle", "cartridge.mirroring",
    "cartridge.chr_rom_len", "cartridge.prg_ram", "memory.<address>"]

end Console
end NesMachine
