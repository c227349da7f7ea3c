import NesMachine.Bus.Basic
import NesMachine.Cartridge.Basic
import NesMachine.Console.Picture
import NesMachine.Console.Sound
import NesMachine.Text.Hex

/-!
# The address map of the console

Which device answers at which address, and what becomes of an access that no device can
serve. Such a fault is kept until someone takes it if the bus is strict, the first one
winning; on a lenient bus it is noted as ignored. Either way the access goes on, and a read
gives zero.
-/
namespace NesMachine

inductive BusFault where
  | romWrite (address : UInt16) (value : UInt8)
  | unmappedRead (address : UInt16)
  | unmappedWrite (address : UInt16) (value : UInt8)
  deriving DecidableEq, Repr

def BusFault.message : BusFault → String
  | .romWrite address value =>
    "write of $" ++ Text.hexByte value ++ " to ROM at $" ++ Text.hexWord address
  | .unmappedRead address => "read from unmapped $" ++ Text.hexWord address
  | .unmappedWrite address value =>
    "write of $" ++ Text.hexByte value ++ " to unmapped $" ++ Text.hexWord address

inductive Device where
  | workRam | picture | sound | nobody | cartridgeRam | cartridgeRom
  deriving DecidableEq, Repr

/-- The device whose part of the address space holds an address. -/
def Device.at (address : UInt16) : Device :=
  if address < 0x2000 then .workRam
  else if address < 0x4000 then .picture
  else if address < 0x4018 then .sound
  else if address < 0x6000 then .nobody
  else if address < 0x8000 then .cartridgeRam
  else .cartridgeRom

structure ConsoleBus where
  /-- Two kibibytes of work RAM, four times over. -/
  ram : Vector UInt8 2048
  picture : PictureUnit
  sound : SoundUnit
  cartridge : Cartridge
  strict : Bool
  /-- The first fault not yet taken; only a strict bus keeps one. -/
  fault : Option BusFault
  /-- The faults ignored so far, the oldest first; only a lenient bus ignores any. -/
  ignored : Array BusFault

namespace ConsoleBus

def powerOn (cartridge : Cartridge) (strict : Bool) : ConsoleBus where
  ram := Vector.replicate 2048 0
  picture := .powerOn
  sound := .powerOn
  cartridge := cartridge
  strict := strict
  fault := none
  ignored := #[]

def ramCell (address : UInt16) : Fin 2048 :=
  ⟨address.toNat % 2048, Nat.mod_lt _ (by decide)⟩

def raise (bus : ConsoleBus) (fault : BusFault) : ConsoleBus :=
  if bus.strict then { bus with fault := bus.fault.or (some fault) }
  else { bus with ignored := bus.ignored.push fault }

/-- The fault that is kept, and the bus without it. -/
def takeFault (bus : ConsoleBus) : Option BusFault × ConsoleBus :=
  (bus.fault, { bus with fault := none })

/-- The faults ignored since they were last taken, and the bus without them. -/
def takeIgnored (bus : ConsoleBus) : Array BusFault × ConsoleBus :=
  (bus.ignored, { bus with ignored := #[] })

def peek (bus : ConsoleBus) (address : UInt16) : UInt8 :=
  match Device.at address with
  | .workRam => bus.ram[ramCell address]
  | .picture => bus.picture.peek address
  | .sound => bus.sound.peek address
  | .nobody => 0
  | .cartridgeRam | .cartridgeRom => bus.cartridge.board.peek address

def read (bus : ConsoleBus) (address : UInt16) : UInt8 × ConsoleBus :=
  match Device.at address with
  | .workRam => (bus.ram[ramCell address], bus)
  | .picture =>
    let (value, picture) := bus.picture.read address
    (value, { bus with picture })
  | .sound => (bus.sound.peek address, bus)
  | .nobody => (0, bus.raise (.unmappedRead address))
  | .cartridgeRam =>
    if bus.cartridge.board.hasRam then (bus.cartridge.board.read address, bus)
    else (0, bus.raise (.unmappedRead address))
  | .cartridgeRom => (bus.cartridge.board.read address, bus)

/-- Writes to the board of the cartridge, and tells whether it took the byte. -/
def writeBoard (bus : ConsoleBus) (address : UInt16) (value : UInt8) : Bool × ConsoleBus :=
  let (taken, board) := bus.cartridge.board.write address value
  (taken, { bus with cartridge := { bus.cartridge with board } })

def write (bus : ConsoleBus) (address : UInt16) (value : UInt8) : ConsoleBus :=
  match Device.at address with
  | .workRam => { bus with ram := bus.ram.set (ramCell address) value }
  | .picture => { bus with picture := bus.picture.write address value }
  | .sound => { bus with sound := bus.sound.write address value }
  | .nobody => bus.raise (.unmappedWrite address value)
  | .cartridgeRam =>
    if bus.cartridge.board.hasRam then (bus.writeBoard address value).2
    else bus.raise (.unmappedWrite address value)
  | .cartridgeRom =>
    let (taken, bus) := bus.writeBoard address value
    if taken then bus else bus.raise (.romWrite address value)

instance : Bus ConsoleBus where
  read := read
  peek := peek
  write := write

end ConsoleBus
end NesMachine
