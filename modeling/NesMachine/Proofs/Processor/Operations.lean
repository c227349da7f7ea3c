import NesMachine.Proofs.Processor.StepEffects

/-!
# Operations of a host

All that a host can do to a processor and its bus from outside: let it run an instruction,
make a request, press reset, set the program counter, or put other registers and another
memory in place. A run is any sequence of these.
-/
namespace NesMachine

inductive Operation (β : Type) where
  | step
  | irq
  | nmi
  | reset
  | jump (address : UInt16)
  /-- Registers and memory are changed from outside. -/
  | replace (registers : Registers) (bus : β)

namespace Machine

variable {β : Type} [Bus β]

def operate (m : Machine β) : Operation β → Machine β
  | .step => m.step
  | .irq => m.irq.2
  | .nmi => m.nmi
  | .reset => m.reset
  | .jump address => m.jump address
  | .replace registers bus => { cpu := { m.cpu with registers }, bus }

def operateAll (m : Machine β) (operations : List (Operation β)) : Machine β :=
  operations.foldl operate m

@[simp] theorem operateAll_nil (m : Machine β) : m.operateAll [] = m := rfl

@[simp] theorem operateAll_cons (m : Machine β) (operation : Operation β)
    (rest : List (Operation β)) :
    m.operateAll (operation :: rest) = (m.operate operation).operateAll rest := rfl

end Machine
end NesMachine
