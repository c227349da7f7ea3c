import NesMachine.Proofs.Console.JamReports
import NesMachine.Proofs.Console.LenientRuns
import NesMachine.Runner.Nestest

/-!
# Verdicts of the automatic mode

The program is run from its entry to the address `finish` and from there to its jam, each
within the budget. There is a result if it comes to both, and the result is a pass if it was
at `finish` in exactly the cycles that the hardware takes and has left two zeros. Otherwise
there is an error, but never a fault, for the console is lenient.
-/
namespace NesMachine.Runner.Nestest

/-- A program comes to the address `finish` for the first time after `k` instructions, none of
which jams and each of which begins within the budget. -/
structure Finishes (start : Console) (budget k : Nat) : Prop where
  there : (start.stepped k).pc = 0xC66E
  first : ∀ j < k, (start.stepped j).pc ≠ 0xC66E
  unjammed : ∀ j < k, (start.stepped (j + 1)).cpu.halted = false
  within : ∀ j < k, (start.stepped j).cycles - start.cycles < budget

/-- A program jams in the instruction after `m` others, all of which begin within the budget. -/
structure Jams (start : Console) (budget m : Nat) : Prop where
  unjammed : ∀ j < m, (start.stepped (j + 1)).cpu.halted = false
  jammed : (start.stepped (m + 1)).cpu.halted = true
  within : ∀ j ≤ m, (start.stepped j).cycles - start.cycles < budget

/-- A program comes to the address `finish` after `k` instructions and jams in the one after
`m` more. -/
structure Completes (start : Console) (budget k m : Nat) : Prop where
  finishes : Finishes start budget k
  jams : Jams (start.stepped k) budget m

theorem Finishes.unique {start : Console} {budget k k' : Nat} (finishes : Finishes start budget k)
    (finishes' : Finishes start budget k') : k = k' := by
  rcases Nat.lt_trichotomy k k' with earlier | same | later
  · exact absurd finishes.there (finishes'.first k earlier)
  · exact same
  · exact absurd finishes'.there (finishes.first k' later)

section Runs

variable {rom : Array UInt8} {start d : Console} (faultless : start.Faultless rom) {budget : Nat}

include faultless

theorem runUntil_eq_stopped_iff_finishes :
    start.runUntil budget (fun c => c.pc == finish) = (.ok .stopped, d) ↔
      ∃ k, Finishes start budget k ∧ d = start.stepped k := by
  rw [faultless.runUntil_eq_stopped_iff]
  simp only [beq_eq_false_iff_ne, beq_iff_eq]
  constructor
  · rintro ⟨k, ⟨unjammed, within⟩, first, there, rfl⟩
    exact ⟨k, ⟨there, first, unjammed, within⟩, rfl⟩
  · rintro ⟨k, ⟨there, first, unjammed, within⟩, rfl⟩
    exact ⟨k, ⟨unjammed, within⟩, first, there, rfl⟩

theorem run_eq_halted_iff_jams : start.run budget = (.ok .halted, d) ↔
    ∃ m, Jams start budget m ∧ d = start.stepped (m + 1) := by
  rw [faultless.run_eq_halted_iff]
  constructor
  · rintro ⟨m, ⟨unjammed, within⟩, last, jammed, rfl⟩
    refine ⟨m, ⟨unjammed, jammed, ?_⟩, rfl⟩
    intro j small
    rcases Nat.lt_or_eq_of_le small with before | rfl
    · exact within j before
    · exact last
  · rintro ⟨m, ⟨unjammed, jammed, within⟩, rfl⟩
    exact ⟨m, ⟨unjammed, fun j small => within j (Nat.le_of_lt small)⟩,
      within m (Nat.le_refl m), jammed, rfl⟩

end Runs

theorem passed_judge (official unofficial : UInt8) (cycles haltCycles : Nat) :
    (judge official unofficial cycles haltCycles).passed = true ↔
      cycles = 26554 ∧ official = 0 ∧ unofficial = 0 := by
  by_cases first : official = 0 <;> by_cases second : unofficial = 0 <;>
    by_cases third : cycles = finishCycles <;>
      simp_all [judge, problems, finishCycles]

/-- What is judged of a program that has completed. -/
def resultAt (start : Console) (k m : Nat) : TestResult :=
  let jammed := start.stepped (k + m + 1)
  judge (jammed.peek 0x02) (jammed.peek 0x03) (start.stepped k).cycles jammed.cycles

section Verdict

variable {rom : Array UInt8} {c : Console} (faultless : (c.jump entry).Faultless rom)
  {budget : Nat}

include faultless

theorem run_of_completes {k m : Nat} (completes : Completes (c.jump entry) budget k m) :
    (run c budget).1 = .ok (resultAt (c.jump entry) k m) := by
  have finished := (runUntil_eq_stopped_iff_finishes faultless).mpr ⟨k, completes.finishes, rfl⟩
  have jammed := (run_eq_halted_iff_jams (faultless.stepped k)).mpr ⟨m, completes.jams, rfl⟩
  rw [← Console.stepped_add] at jammed
  rw [run, finished]
  simp only [runToHalt, jammed]
  rfl

/-- A run that gives no result tells where it ended, and has not completed. -/
theorem run_of_not_completes (never : ¬ ∃ k m, Completes (c.jump entry) budget k m) :
    ∃ failure, (run c budget).1 = .error failure ∧ ∀ e, failure ≠ .interrupted e := by
  rcases first : (c.jump entry).runUntil budget (fun c => c.pc == finish) with ⟨e | outcome, d⟩
  · exact absurd (congrArg Prod.fst first) (faultless.runUntil_ne_error budget _ e)
  · rw [run, first]
    cases outcome with
    | halted | limitReached => exact ⟨_, rfl, nofun⟩
    | stopped =>
      obtain ⟨k, finishes, rfl⟩ := (runUntil_eq_stopped_iff_finishes faultless).mp first
      have faultless' := faultless.stepped k
      simp only [runToHalt]
      rcases second : ((c.jump entry).stepped k).run budget with ⟨e | outcome, d⟩
      · exact absurd (congrArg Prod.fst second) (faultless'.runUntil_ne_error budget _ e)
      · cases outcome with
        | stopped | limitReached => exact ⟨_, rfl, nofun⟩
        | halted =>
          obtain ⟨m, jams, rfl⟩ := (run_eq_halted_iff_jams faultless').mp second
          exact absurd ⟨k, m, finishes, jams⟩ never

end Verdict

/-- On a new lenient console the program passes if it completes within the budget, in the cycles
of the hardware, and leaves two zeros. A program that completes has a result, which tells what
it has left and when it jammed; any other has an error, and none has a fault. -/
theorem verdict_of_completes {settings : Settings} {c : Console}
    (on : Console.powerOn settings = .ok c) (lenient : settings.strictMemory = false)
    (budget : Nat) :
    let start := c.jump 0xC000
    let verdict := (run c budget).1
    (∀ fault, verdict ≠ .error (.interrupted (.memoryFault fault))) ∧
      (verdict.passed = true ↔ ∃ k m, Completes start budget k m ∧
        (start.stepped k).cycles = 26554 ∧ (start.stepped (k + m + 1)).peek 0x02 = 0 ∧
        (start.stepped (k + m + 1)).peek 0x03 = 0) ∧
      ((∃ failure, verdict = .error failure) ↔ ¬ ∃ k m, Completes start budget k m) ∧
      ∀ k m, Completes start budget k m → ∃ result, verdict = .ok result ∧
        result.code = (start.stepped (k + m + 1)).peek 0x02 |||
          (start.stepped (k + m + 1)).peek 0x03 ∧
        result.cycles = (start.stepped (k + m + 1)).cycles := by
  intro start verdict
  obtain ⟨rom, faultless⟩ : ∃ rom, start.Faultless rom := by
    obtain ⟨cartridge, accepted, rfl⟩ := Console.ofImage_of_powerOn on
    exact ⟨_, (Console.faultless_switchedOn accepted lenient).after [.jump 0xC000]⟩
  have given {k m : Nat} (completes : Completes start budget k m) :
      verdict = .ok (resultAt start k m) := run_of_completes faultless completes
  by_cases complete : ∃ k m, Completes start budget k m
  · obtain ⟨k, m, completes⟩ := complete
    have judged := given completes
    refine ⟨by simp [judged], ?_, ?_, fun k m completes => ⟨_, given completes, rfl, rfl⟩⟩
    · constructor
      · intro passed
        rw [judged] at passed
        exact ⟨k, m, completes, (passed_judge _ _ _ _).mp passed⟩
      · rintro ⟨k, m, completes, right⟩
        rw [given completes]
        exact (passed_judge _ _ _ _).mpr right
    · refine iff_of_false ?_ fun never => never ⟨k, m, completes⟩
      rintro ⟨failure, failed⟩
      cases judged.symm.trans failed
  · obtain ⟨failure, failed, uninterrupted⟩ := run_of_not_completes faultless complete
    have failed : verdict = .error failure := failed
    refine ⟨?_, ?_, iff_of_true ⟨failure, failed⟩ complete,
      fun k m completes => absurd ⟨k, m, completes⟩ complete⟩
    · intro fault same
      cases failed.symm.trans same
      exact uninterrupted _ rfl
    · refine iff_of_false ?_ fun ⟨k, m, completes, _⟩ => complete ⟨k, m, completes⟩
      rw [failed]
      exact Bool.false_ne_true

/-! A program that goes straight to the address `finish`, where it jams. -/

theorem step_of_jump {m : Machine ConsoleBus} (running : m.cpu.halted = false) {pc : UInt16}
    (there : m.cpu.registers.pc = pc) {low high : UInt8} (opcode : m.bus.read pc = (0x4C, m.bus))
    (first : m.bus.read (pc + 1) = (low, m.bus))
    (second : m.bus.read (pc + 1 + 1) = (high, m.bus)) :
    m.step.cpu.registers.pc = wordOf low high ∧ m.step.cpu.cycles = m.cpu.cycles + 3 ∧
      m.step.cpu.halted = false ∧ m.step.bus = m.bus := by
  have instruction : Instruction.decode 0x4C = ⟨.jmp, .absolute, 3, true⟩ := rfl
  have opcode : Bus.read m.bus pc = (0x4C, m.bus) := opcode
  have first : Bus.read m.bus (pc + 1) = (low, m.bus) := first
  have second : Bus.read m.bus (pc + 1 + 1) = (high, m.bus) := second
  have registers := m.registers_traceInstruction
  have cycles := m.cycles_traceInstruction
  have halted := m.halted_traceInstruction.trans running
  have bus := m.bus_traceInstruction
  rw [Machine.step, running, if_neg Bool.false_ne_true]
  generalize m.traceInstruction = traced at *
  obtain ⟨cpu, bus'⟩ := traced
  subst bus
  subst there
  rw [← registers] at opcode first second
  simp only [Machine.execute, Machine.fetch, Machine.read, opcode, instruction, Machine.idle,
    Machine.mapRegisters, Machine.resolve, Machine.fetchWord, first, second]
  exact ⟨rfl, congrArg (· + 3) cycles, halted, rfl⟩

/-- What is in ROM at the entry and at the address `finish` of such a program. -/
structure Leaps (c : Console) : Prop where
  running : c.cpu.halted = false
  pc : c.pc = 0xC000
  opcode : c.peek 0xC000 = 0x4C
  low : c.peek 0xC001 = 0x6E
  high : c.peek 0xC002 = 0xC6
  jam : c.peek 0xC66E = 0x02

theorem Leaps.stepped {c : Console} (leaps : Leaps c) :
    (c.stepped 1).pc = 0xC66E ∧ (c.stepped 1).cycles = c.cycles + 3 ∧
      (c.stepped 1).cpu.halted = false ∧ (c.stepped 2).cpu.halted = true ∧
      (c.stepped 2).peek = c.peek := by
  have rom (c : Console) {a : UInt16} (above : 0x8000 ≤ a) {byte : UInt8}
      (shown : c.peek a = byte) : c.machine.bus.read a = (byte, c.machine.bus) :=
    shown ▸ c.machine.bus.read_rom above
  have kept {c : Console} (same : c.machine.step.bus = c.machine.bus) : c.step.2.peek = c.peek := by
    funext a
    have devices := c.devices_step
    rw [same] at devices
    exact congrFun (ConsoleBus.peek_of_devices devices) a
  obtain ⟨there, spent, goesOn, bus⟩ := step_of_jump leaps.running leaps.pc
    (rom c (by decide) leaps.opcode) (rom c (by decide) leaps.low) (rom c (by decide) leaps.high)
  have pc : c.step.2.pc = 0xC66E := c.pc_step.trans (there.trans (by decide))
  have running : c.step.2.cpu.halted = false := c.halted_step.trans goesOn
  have fetched : c.step.2.machine.bus.read c.step.2.pc = (0x02, c.step.2.machine.bus) := by
    rw [pc]
    exact rom c.step.2 (by decide) ((congrFun (kept bus) 0xC66E).trans leaps.jam)
  have jams : (Instruction.decode c.step.2.machine.fetch.1).mnemonic.action.jams = true := by
    have opcode : c.step.2.machine.fetch.1 = 0x02 := congrArg Prod.fst fetched
    rw [opcode]
    rfl
  have unwritten : c.step.2.machine.step.bus = c.step.2.machine.bus :=
    (c.step.2.machine.step_of_jams running jams).1.trans (congrArg Prod.snd fetched)
  refine ⟨pc, c.cycles_step.trans spent, running, ?_, (kept unwritten).trans (kept bus)⟩
  show c.step.2.step.2.cpu.halted = true
  rw [Console.halted_step, Machine.halted_step_eq, jams, Bool.or_true]

theorem Leaps.completes {c : Console} (leaps : Leaps c) : Completes c 1 1 0 := by
  obtain ⟨there, -, running, jammed, -⟩ := leaps.stepped
  have entry : (c.stepped 0).pc = 0xC000 := leaps.pc
  have unspent (c : Console) : (c.stepped 0).cycles - c.cycles < 1 :=
    Nat.lt_of_le_of_lt (Nat.le_of_eq (Nat.sub_self c.cycles)) Nat.one_pos
  refine ⟨⟨there, ?_, ?_, ?_⟩, ⟨by omega, jammed, ?_⟩⟩ <;> intro j small <;>
    obtain rfl : j = 0 := by omega
  · rw [entry]
    decide
  · exact running
  · exact unspent c
  · exact unspent (c.stepped 1)

def leapingHeader : Array UInt8 := #[0x4E, 0x45, 0x53, 0x1A, 1, 0, 0, 0, 0, 0, 0, 0, 0, 0, 0, 0]

def leapingProgram : Array UInt8 := #[0x4C, 0x6E, 0xC6] ++ Array.replicate 0x3FFD 0x02

def leapingImage : Array UInt8 := leapingHeader ++ leapingProgram

/-- The cartridge of that image. -/
def leaping : Cartridge where
  header := {
    prgRomBanks := 1, chrRomBanks := 0, mapper := 0, mirroring := .horizontal, battery := false,
    trainer := false, prgRamBanks := 1, dirtyTail := false }
  board := .fitted (leapingImage.extract 16 16400) (leapingImage.extract 16400 16400) 0x2000
    .horizontal

theorem ofImage_leapingImage : Cartridge.ofImage leapingImage = .ok leaping := by
  have parsed : Header.parse leapingImage = .ok leaping.header := by
    rw [leapingImage, Header.parse_append rfl]
    rfl
  have size : leapingImage.size = 16400 := by
    simp only [leapingImage, leapingProgram, Array.size_append, Array.size_replicate]
    rfl
  have long : ¬ leapingImage.size < leaping.header.imageSize := by
    rw [size]
    decide
  rw [Cartridge.ofImage, parsed]
  dsimp only
  rw [if_neg long, if_neg (by decide)]
  rfl

theorem rom_of_index {a : UInt16} {i : Nat} (index : a.toNat = 0xC000 + i) : 0x8000 ≤ a :=
  UInt16.le_iff_toNat_le.mpr (index ▸ Nat.le_add_right_of_le (by decide))

theorem peek_leaping {a : UInt16} {i : Nat} (index : a.toNat = 0xC000 + i) {byte : UInt8}
    (there : leapingProgram[i]? = some byte) : leaping.board.peek a = byte := by
  have high := a.toNat_lt
  have lead (i : Nat) (h : i < 16) : leapingImage.getD i 0 = leapingHeader.getD i 0 := by
    rw [Array.getD_eq_getD_getElem?, Array.getD_eq_getD_getElem?, leapingImage,
      Array.getElem?_append_left h]
  have place : Cartridge.romIndex leapingImage a = 16 + i := by
    rw [Cartridge.romIndex, lead 4 (by omega), lead 6 (by omega), index]
    show 16 + 0 + (0xC000 + i - 0x8000) % 0x4000 = _
    omega
  have shown := Cartridge.rom_of_ofImage ofImage_leapingImage (rom_of_index index)
  have past : 16 + i - leapingHeader.size = i := Nat.add_sub_cancel_left ..
  rw [place, leapingImage, Array.getElem?_append_right (Nat.le_add_right 16 _), past,
    there] at shown
  exact (Option.some.inj shown).symm

def leapingSettings : Settings := { Settings.ofImage leapingImage with strictMemory := false }

theorem leaps_switchedOn :
    Leaps ((Console.switchedOn leapingSettings leaping).jump 0xC000) := by
  have shown {a : UInt16} {i : Nat} (index : a.toNat = 0xC000 + i) {byte : UInt8}
      (there : leapingProgram[i]? = some byte) :
      ((Console.switchedOn leapingSettings leaping).jump 0xC000).peek a = byte := by
    have still (c : Console) : (c.jump 0xC000).machine.bus = c.machine.bus := rfl
    have fitted := ConsoleBus.fitted_powerOn ofImage_leapingImage leapingSettings.strictMemory
    rw [Console.peek, still, Console.bus_switchedOn,
      ConsoleBus.peek_rom fitted (rom_of_index index), peek_leaping index there]
  have lead {i : Nat} (small : i < 3) :
      leapingProgram[i]? = (#[0x4C, 0x6E, 0xC6] : Array UInt8)[i]? :=
    Array.getElem?_append_left small
  have jam : leapingProgram[0x66E]? = some 0x02 := by
    rw [leapingProgram, Array.getElem?_append_right (by decide), Array.getElem?_replicate]
    exact if_pos (by decide)
  exact {
    running := rfl
    pc := rfl
    opcode := shown (i := 0) (by decide) (lead (by decide))
    low := shown (i := 1) (by decide) (lead (by decide))
    high := shown (i := 2) (by decide) (lead (by decide))
    jam := shown (i := 0x66E) (by decide) jam }

/-- The console that it runs on has nothing but zeros below its ROM. -/
theorem powerOn_leapingSettings : ∃ c, Console.powerOn leapingSettings = .ok c ∧
    Leaps (c.jump 0xC000) ∧ (c.jump 0xC000).cycles = 7 ∧
    ∀ a < 0x8000, (c.jump 0xC000).peek a = 0 := by
  refine ⟨_, Console.powerOn_of_ofImage ofImage_leapingImage, leaps_switchedOn, rfl, ?_⟩
  intro a ram
  have still (c : Console) : (c.jump 0xC000).peek a = c.machine.bus.peek a := rfl
  rw [still, Console.bus_switchedOn, ConsoleBus.peek_powerOn ofImage_leapingImage _ ram]

/-- The program is still run to its end if it comes to the address `finish` when the budget is
already used up. It fails then, as it has come there too early. -/
theorem verdict_of_completes_leaping :
    ∃ c, Console.powerOn leapingSettings = .ok c ∧ leapingSettings.strictMemory = false ∧
      Completes (c.jump 0xC000) 1 1 0 ∧ (run c 1).1.passed = false ∧
      ∃ result, (run c 1).1 = .ok result ∧ result.code = 0 := by
  obtain ⟨c, on, leaps, cycles, blank⟩ := powerOn_leapingSettings
  obtain ⟨-, passes, -, given⟩ := verdict_of_completes on rfl 1
  have completes := leaps.completes
  obtain ⟨-, spent, -, -, kept⟩ := leaps.stepped
  refine ⟨c, on, rfl, completes, ?_, ?_⟩
  · rw [Bool.eq_false_iff]
    intro passed
    obtain ⟨k, m, completes', exactly, -⟩ := passes.mp passed
    rw [← completes.finishes.unique completes'.finishes, spent, cycles] at exactly
    omega
  · obtain ⟨result, given, code, -⟩ := given 1 0 completes
    have zero {a : UInt16} (ram : a < 0x8000) : ((c.jump 0xC000).stepped (1 + 0 + 1)).peek a = 0 :=
      (congrFun kept a).trans (blank a ram)
    rw [zero (by decide), zero (by decide)] at code
    exact ⟨result, given, code⟩

end NesMachine.Runner.Nestest
