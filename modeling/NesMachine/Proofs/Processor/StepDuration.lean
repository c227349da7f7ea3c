import NesMachine.Proofs.Processor.OpcodeRegularity
import NesMachine.Proofs.Processor.StepEffects

/-!
# How long a step takes on any bus

Whatever the devices on the bus answer, finding an operand takes the cycles of the mode and
at most one more for a carry, and acting on it those of the action and at most two more for
a branch. With the regularities of the opcode matrix, a step of a processor that is not
jammed takes two to eight cycles.
-/
namespace NesMachine

/-- The form of the operands of a mode. -/
def Mode.yields (mode : Mode) (operand : Operand) : Prop :=
  match mode with
  | .implied => operand = .implied
  | .accumulator => operand = .accumulator
  | _ => ∃ a, operand = .memory a

theorem Mode.memory_of_holdsByte {mode : Mode} {operand : Operand} (yields : mode.yields operand)
    (holds : mode.holdsByte = true) : ∃ a, operand = .memory a := by
  cases mode with
  | implied | accumulator => cases holds
  | _ => exact yields

namespace Machine

variable {β : Type} (m : Machine β)

@[simp] theorem cycles_idle : m.idle.cpu.cycles = m.cpu.cycles + 1 := rfl

@[simp] theorem cycles_jump (a : UInt16) : (m.jump a).cpu.cycles = m.cpu.cycles := rfl

theorem exists_branch (target : UInt16) : ∃ branch, branch ≤ 2 ∧
    (m.branch target).cpu.cycles = m.cpu.cycles + branch := by
  cases crossed : pageCrossed m.cpu.registers.pc target with
  | false => exact ⟨1, by omega, by simp [branch, crossed]⟩
  | true => exact ⟨2, by omega, by simp [branch, crossed]⟩

variable [Bus β]

/-- A carry takes one cycle, and none only where a reading instruction stays on the page. -/
theorem exists_carry (base : UInt16) (index : UInt8) (access : Access) : ∃ carry,
    (if access = .read then 0 else 1) ≤ carry ∧ carry ≤ 1 ∧
      (m.resolveIndexed base index access).2.cpu.cycles = m.cpu.cycles + carry := by
  by_cases paid : access ≠ .read ∨ pageCrossed base (base + index.toUInt16)
  · refine ⟨1, ?_, Nat.le_refl 1, ?_⟩
    · split <;> omega
    · simp only [resolveIndexed, if_pos paid, look_snd, cycles_idle]
  · refine ⟨0, ?_, Nat.zero_le 1, ?_⟩
    · have reading : access = .read := Decidable.of_not_not fun other => paid (.inl other)
      simp [reading]
    · simp only [resolveIndexed, if_neg paid, Nat.add_zero]

@[simp] theorem cycles_fetch : m.fetch.2.cpu.cycles = m.cpu.cycles + 1 := rfl

theorem exists_resolve (mode : Mode) (access : Access) :
    mode.yields (m.resolve mode access).1 ∧ ∃ carry,
      (if mode.carries ∧ access ≠ .read then 1 else 0) ≤ carry ∧
      carry ≤ (if mode.carries then 1 else 0) ∧
      (m.resolve mode access).2.cpu.cycles = m.cpu.cycles + mode.cycles + carry := by
  have indexed (reached : Machine β) (base : UInt16) (index : UInt8) (mode : Mode)
      (carries : mode.carries = true) (spent : reached.cpu.cycles = m.cpu.cycles + mode.cycles) :
      ∃ carry, (if mode.carries ∧ access ≠ .read then 1 else 0) ≤ carry ∧
        carry ≤ (if mode.carries then 1 else 0) ∧
        (reached.resolveIndexed base index access).2.cpu.cycles =
          m.cpu.cycles + mode.cycles + carry := by
    obtain ⟨carry, least, most, cycles⟩ := reached.exists_carry base index access
    refine ⟨carry, ?_, ?_, ?_⟩
    · by_cases reading : access = .read
      · simp [reading]
      · simpa [carries, reading] using least
    · rw [carries]
      exact most
    · rw [cycles, spent]
  cases mode with
  | implied | accumulator => exact ⟨rfl, 0, Nat.le_refl 0, Nat.le_refl 0, rfl⟩
  | immediate | zeroPage | zeroPageX | zeroPageY | absolute | indirect | indexedIndirect
  | relative => exact ⟨⟨_, rfl⟩, 0, Nat.le_refl 0, Nat.le_refl 0, rfl⟩
  | absoluteX | absoluteY => exact ⟨⟨_, rfl⟩, indexed m.fetchWord.2 _ _ _ rfl rfl⟩
  | indirectIndexed =>
    exact ⟨⟨_, rfl⟩, indexed (m.fetch.2.readZeroPageWord m.fetch.1).2 _ _ _ rfl rfl⟩

/-- The cycles of an action on an operand that it suits; a branch that is taken may need two
more. -/
theorem exists_perform {mode : Mode} {operand : Operand} (yields : mode.yields operand)
    {action : Action} (suits : action.suits mode = true) : ∃ branch,
      branch ≤ (if action.branches m.cpu.registers then 2 else 0) ∧
      (m.perform operand action).cpu.cycles = m.cpu.cycles + action.cycles mode + branch := by
  have memory := mode.memory_of_holdsByte yields
  cases action with
  | branch taken =>
    cases holds : taken m.cpu.registers with
    | false => exact ⟨0, Nat.zero_le _, by simp [perform, holds, Action.cycles]⟩
    | true =>
      obtain ⟨branch, most, cycles⟩ := m.exists_branch operand.address
      exact ⟨branch, by simpa [Action.branches, holds] using most,
        by simp [perform, holds, Action.cycles, cycles]⟩
  | consume update =>
    obtain ⟨a, rfl⟩ := memory suits
    exact ⟨0, Nat.zero_le _, rfl⟩
  | store value =>
    obtain ⟨a, rfl⟩ := memory (Bool.and_eq_true_iff.mp suits).1
    exact ⟨0, Nat.zero_le _, rfl⟩
  | modify change update =>
    rcases Bool.or_eq_true_iff.mp suits with suits | suits
    · obtain ⟨a, rfl⟩ := memory (Bool.and_eq_true_iff.mp suits).1
      have other : mode ≠ .accumulator := by
        rintro rfl
        cases suits
      exact ⟨0, Nat.zero_le _, by rw [Action.cycles, if_neg other]; rfl⟩
    · obtain rfl := beq_iff_eq.mp suits
      obtain rfl : operand = .accumulator := yields
      exact ⟨0, Nat.zero_le _, rfl⟩
  | nothing =>
    rcases Bool.or_eq_true_iff.mp suits with suits | suits
    · obtain ⟨a, rfl⟩ := memory suits
      have other : mode ≠ .implied := by
        rintro rfl
        cases suits
      exact ⟨0, Nat.zero_le _, by rw [Action.cycles, if_neg other]; rfl⟩
    · obtain rfl := beq_iff_eq.mp suits
      obtain rfl : operand = .implied := yields
      exact ⟨0, Nat.zero_le _, rfl⟩
  | _ => exact ⟨0, Nat.zero_le _, rfl⟩

/-- Whatever is on the bus, an instruction takes two to eight cycles. -/
theorem cycles_execute_bounds : m.cpu.cycles + 2 ≤ m.execute.cpu.cycles ∧
    m.execute.cpu.cycles ≤ m.cpu.cycles + 8 := by
  have suits := Instruction.suits_decode m.fetch.1
  have column := Instruction.cycles_decode m.fetch.1
  have bounds := Instruction.cycles_decode_bounds m.fetch.1
  rw [execute]
  simp only
  generalize Instruction.decode m.fetch.1 = i at *
  obtain ⟨yields, carry, least, most, resolved⟩ :=
    m.fetch.2.exists_resolve i.mode i.mnemonic.access
  obtain ⟨branch, few, performed⟩ :=
    (m.fetch.2.resolve i.mode i.mnemonic.access).2.exists_perform yields suits
  rw [performed, resolved, cycles_fetch]
  have atMost : branch ≤ if i.mnemonic.isBranch then 2 else 0 := by
    rw [Mnemonic.branches_action] at few
    split at few
    · next taken => rwa [if_pos (Mnemonic.isBranch_of_branches taken)]
    · exact Nat.le_trans few (Nat.zero_le _)
  have carried : i.cycles ≤ 1 + i.mode.cycles + carry + i.mnemonic.action.cycles i.mode ∧
      1 + i.mode.cycles + carry + i.mnemonic.action.cycles i.mode ≤
        i.cycles + if i.mode.carries ∧ i.mnemonic.access = .read then 1 else 0 := by
    grind
  omega

theorem cycles_step_bounds (running : m.cpu.halted = false) :
    m.cpu.cycles + 2 ≤ m.step.cpu.cycles ∧ m.step.cpu.cycles ≤ m.cpu.cycles + 8 := by
  have bounds := m.traceInstruction.cycles_execute_bounds
  rw [cycles_traceInstruction] at bounds
  rw [step, running]
  exact bounds

theorem cycles_reset : m.reset.cpu.cycles = m.cpu.cycles + 7 := rfl

end Machine
end NesMachine
