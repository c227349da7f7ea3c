/-!
# The sound unit

The registers from `$4000` to `$4017`, without the sound: each gives back the byte last
written to it.
-/
namespace NesMachine

/-- The registers of the sound unit and the controllers. -/
structure SoundUnit where
  registers : Vector UInt8 24
  deriving DecidableEq

namespace SoundUnit

def powerOn : SoundUnit := ⟨Vector.replicate 24 0⟩

/-- The register at an address; there are twenty-four, and they repeat. -/
def select (address : UInt16) : Fin 24 :=
  ⟨(address - 0x4000).toNat % 24, Nat.mod_lt _ (by decide)⟩

def peek (unit : SoundUnit) (address : UInt16) : UInt8 := unit.registers[select address]

def write (unit : SoundUnit) (address : UInt16) (value : UInt8) : SoundUnit :=
  ⟨unit.registers.set (select address) value⟩

end SoundUnit
end NesMachine
