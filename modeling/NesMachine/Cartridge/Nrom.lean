import NesMachine.Cartridge.Header

/-!
# The board without bank switching

Program RAM answers from `$6000` to `$7FFF` and program ROM from `$8000` on; a memory that
is smaller than its window is repeated throughout it. Only the RAM can be written.
-/
namespace NesMachine

structure Nrom where
  prgRom : Array UInt8
  chrRom : Array UInt8
  prgRam : Array UInt8
  mirroring : Mirroring

namespace Nrom

/-- A board whose RAM holds zeros; no more RAM is fitted than its window has room for. -/
def fitted (prgRom chrRom : Array UInt8) (prgRamSize : Nat) (mirroring : Mirroring) : Nrom where
  prgRom := prgRom
  chrRom := chrRom
  prgRam := Array.replicate (min prgRamSize 0x2000) 0
  mirroring := mirroring

def hasRam (board : Nrom) : Bool := !board.prgRam.isEmpty

/-- The byte of a memory that answers at an offset into its window; an empty memory answers
with zero. -/
def byteAt (memory : Array UInt8) (offset : Nat) : UInt8 :=
  memory.getD (offset % memory.size) 0

/-- The byte at an address, looked at without any effect. -/
def peek (board : Nrom) (address : UInt16) : UInt8 :=
  if address < 0x6000 then 0
  else if address < 0x8000 then byteAt board.prgRam (address.toNat - 0x6000)
  else byteAt board.prgRom (address.toNat - 0x8000)

/-- The byte that a read gives. A read has no effect on this board either. -/
def read (board : Nrom) (address : UInt16) : UInt8 := board.peek address

/-- Writes a byte, and tells whether anything on the board took it. -/
def write (board : Nrom) (address : UInt16) (value : UInt8) : Bool × Nrom :=
  if 0x6000 ≤ address ∧ address < 0x8000 ∧ board.hasRam then
    let index := (address.toNat - 0x6000) % board.prgRam.size
    (true, { board with prgRam := board.prgRam.setIfInBounds index value })
  else (false, board)

end Nrom
end NesMachine
