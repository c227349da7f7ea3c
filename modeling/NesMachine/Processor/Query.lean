import NesMachine.Text.Record
import NesMachine.Value
import NesMachine.Processor.Machine

/-!
# Looking at the processor

Registers, flags and counters by name, and the whole state on one line.
-/
namespace NesMachine

open Text

def Status.describe (p : Status) : String :=
  record "Status" [field "n" (truth p.negative), field "v" (truth p.overflow),
    field "d" (truth p.decimal), field "i" (truth p.interruptDisable),
    field "z" (truth p.zero), field "c" (truth p.carry)]

def Registers.describe (r : Registers) : String :=
  record "Registers" [field "a" r.a.toNat.repr, field "x" r.x.toNat.repr,
    field "y" r.y.toNat.repr, field "s" r.s.toNat.repr, field "pc" r.pc.toNat.repr,
    field "p" r.p.describe]

namespace Cpu

/-- The whole state on one line; of the trace it tells whether there is one. -/
def describe (cpu : Cpu) : String :=
  record "Ricoh2A03" [field "regs" cpu.registers.describe, field "cycles" cpu.cycles.repr,
    field "halted" (truth cpu.halted), field "trace" (truth cpu.trace.isSome)]

def queryPaths : List String :=
  ["pc", "a", "x", "y", "s", "p", "flags.c", "flags.z", "flags.i", "flags.d", "flags.v",
    "flags.n", "cycles", "halted"]

/-- The value with a name, if there is one. Flags may be named without `flags.`, the stack
pointer also as `sp` and the packed flags also as `status`. -/
def query (cpu : Cpu) (path : String) : Option Value :=
  let r := cpu.registers
  match path with
  | "pc" => some (.word r.pc)
  | "a" => some (.byte r.a)
  | "x" => some (.byte r.x)
  | "y" => some (.byte r.y)
  | "s" | "sp" => some (.byte r.s)
  | "p" | "status" => some (.byte r.p.toByte)
  | "flags.c" | "c" => some (.bool (r.p.isSet Status.carryMask))
  | "flags.z" | "z" => some (.bool (r.p.isSet Status.zeroMask))
  | "flags.i" | "i" => some (.bool (r.p.isSet Status.interruptDisableMask))
  | "flags.d" | "d" => some (.bool (r.p.isSet Status.decimalMask))
  | "flags.v" | "v" => some (.bool (r.p.isSet Status.overflowMask))
  | "flags.n" | "n" => some (.bool (r.p.isSet Status.negativeMask))
  | "cycles" => some (.count cpu.cycles)
  | "halted" => some (.bool cpu.halted)
  | _ => none

end Cpu
end NesMachine
