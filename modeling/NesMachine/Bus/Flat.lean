import NesMachine.Bus.Basic

/-!
# Flat memory

Sixty-four kibibytes of plain memory: what was written last at an address is what is read
there, and reading changes nothing.
-/
namespace NesMachine

structure FlatMemory where
  cells : Vector UInt8 65536

namespace FlatMemory

def zero : FlatMemory := ⟨Vector.replicate 65536 0⟩

def get (m : FlatMemory) (address : UInt16) : UInt8 :=
  have := address.toNat_lt
  m.cells[address.toNat]

def set (m : FlatMemory) (address : UInt16) (value : UInt8) : FlatMemory :=
  ⟨m.cells.set address.toNat value address.toNat_lt⟩

/-- A byte that was just set is there; every other address keeps its byte. -/
theorem get_set (m : FlatMemory) (a b : UInt16) (value : UInt8) :
    (m.set a value).get b = if a = b then value else m.get b := by
  by_cases h : a = b
  · subst h
    simp [get, set]
  · have differ : a.toNat ≠ b.toNat := fun e => h (UInt16.toNat_inj.mp e)
    simp [get, set, Vector.getElem_set_ne _ _ differ, h]

/-- Writes bytes one after the other from an address on, wrapping at the top of memory, so
that of two bytes for one address the later one stays. -/
def load (m : FlatMemory) (address : UInt16) : List UInt8 → FlatMemory
  | [] => m
  | byte :: rest => (m.set address byte).load (address + 1) rest

instance : Bus FlatMemory where
  read m a := (m.get a, m)
  peek := get
  write := set

end FlatMemory
end NesMachine
