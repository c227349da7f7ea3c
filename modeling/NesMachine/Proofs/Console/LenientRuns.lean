import NesMachine.Proofs.Console.BoundedRuns
import NesMachine.Proofs.Console.FaultReports

/-!
# How runs of a lenient console end

A run ends at one boundary only and in one way only, so that its end says what the run gives.
No step of a lenient console faults. Its runs are therefore stopped by the host, jammed, or out
of cycles, and which of these it is can be told from the boundaries that the program comes to.
-/
namespace NesMachine.Console

section Unique

variable {deadline limit : Nat} {stop : Console → Bool} {c d : Console}
  {report report' : Except ConsoleError RunOutcome}

theorem EndsAt.not_runsOn {more : Nat} (ends : c.EndsAt deadline stop more report) :
    ¬ c.RunsOn deadline stop := by
  rintro ⟨unasked, early, steps⟩
  cases ends with
  | stopped asked => exact Bool.false_ne_true (unasked.symm.trans asked)
  | limitReached _ late _ => exact Nat.not_le.mpr early late
  | fault _ _ step | halted _ _ step => cases steps.symm.trans step

theorem EndsAt.unique {more more' : Nat} (ends : c.EndsAt deadline stop more report)
    (ends' : c.EndsAt deadline stop more' report') : more = more' ∧ report = report' := by
  cases ends with
  | stopped asked =>
    cases ends' with
    | stopped => exact ⟨rfl, rfl⟩
    | limitReached unasked | fault unasked | halted unasked => cases asked.symm.trans unasked
  | limitReached unasked late near =>
    cases ends' with
    | stopped asked => cases asked.symm.trans unasked
    | limitReached => exact ⟨rfl, rfl⟩
    | fault _ early | halted _ early => exact absurd late (Nat.not_le.mpr early)
  | fault unasked early step =>
    cases ends' with
    | stopped asked => cases asked.symm.trans unasked
    | limitReached _ late => exact absurd late (Nat.not_le.mpr early)
    | fault _ _ step' =>
      cases step.symm.trans step'
      exact ⟨rfl, rfl⟩
    | halted _ _ step' => cases step.symm.trans step'
  | halted unasked early step =>
    cases ends' with
    | stopped asked => cases asked.symm.trans unasked
    | limitReached _ late => exact absurd late (Nat.not_le.mpr early)
    | fault _ _ step' => cases step.symm.trans step'
    | halted => exact ⟨rfl, rfl⟩

/-- A run gives what its end says. -/
theorem runUntil_eq_iff : c.runUntil limit stop = (report, d) ↔
    ∃ k more, (∀ j < k, (c.stepped j).RunsOn (c.cycles + limit) stop) ∧
      (c.stepped k).EndsAt (c.cycles + limit) stop more report ∧ d = c.stepped (k + more) := by
  obtain ⟨k, more, -, before, ends, moved⟩ := @exists_endsAt c.cycles limit stop c (limit + 1)
    (Nat.le_refl _) (by omega) (by omega)
  change (c.runUntil limit stop).2 = _ at moved
  constructor
  · intro ran
    refine ⟨k, more, before, ?_, ?_⟩
    · have ends : (c.stepped k).EndsAt _ stop more (c.runUntil limit stop).1 := ends
      rwa [ran] at ends
    · rw [← moved, ran]
  · rintro ⟨k', more', before', ends', rfl⟩
    have same : k = k' := by
      rcases Nat.lt_trichotomy k k' with earlier | same | later
      · exact absurd (before' k earlier) ends.not_runsOn
      · exact same
      · exact absurd (before k' later) ends'.not_runsOn
    subst same
    obtain ⟨rfl, reported⟩ := ends.unique ends'
    exact Prod.ext reported moved

end Unique

/-- Nothing has ended a run of `limit` cycles before the boundary `k`: no instruction before it
jams, and each begins while there are cycles left. -/
structure GetsTo (c : Console) (limit k : Nat) : Prop where
  unjammed : ∀ j < k, (c.stepped (j + 1)).cpu.halted = false
  within : ∀ j < k, (c.stepped j).cycles - c.cycles < limit

/-- No fault is ever reported by a console that is lenient and has its RAM. -/
structure Faultless (rom : Array UInt8) (c : Console) : Prop where
  lenient : c.Lenient
  fitted : c.core.bus.Fitted rom

namespace Faultless

variable {rom : Array UInt8} {c d : Console}

theorem after (faultless : c.Faultless rom) (commands : List Command) :
    (c.after commands).Faultless rom := by
  induction commands generalizing c with
  | nil => exact faultless
  | cons command rest ih =>
    exact ih ⟨faultless.lenient.obey faultless.fitted command, keeps_obey faultless.fitted command⟩

theorem stepped (faultless : c.Faultless rom) (k : Nat) : (c.stepped k).Faultless rom :=
  faultless.after _

theorem report_stepped (faultless : c.Faultless rom) (k : Nat) :
    (c.stepped k).step.1 = .ok (c.stepped (k + 1)).cpu.halted := by
  obtain ⟨lenient, fitted⟩ := faultless.stepped k
  rw [lenient.report_step fitted, ← halted_step, step_stepped]

theorem runsOn_iff (faultless : c.Faultless rom) {limit : Nat} {stop : Console → Bool} {k : Nat} :
    (∀ j < k, (c.stepped j).RunsOn (c.cycles + limit) stop) ↔
      c.GetsTo limit k ∧ ∀ j < k, stop (c.stepped j) = false := by
  constructor
  · intro before
    refine ⟨⟨?_, ?_⟩, fun j small => (before j small).unasked⟩
    · intro j small
      have goesOn := (before j small).steps
      rw [faultless.report_stepped j] at goesOn
      exact Except.ok.inj goesOn
    · intro j small
      have past := cycles_stepped fun i smaller => before i (Nat.lt_trans smaller small)
      have early := (before j small).early
      omega
  · rintro ⟨⟨unjammed, within⟩, unasked⟩ j small
    have early := within j small
    refine ⟨unasked j small, by omega, ?_⟩
    rw [faultless.report_stepped j, unjammed j small]

theorem runUntil_ne_error (faultless : c.Faultless rom) (limit : Nat) (stop : Console → Bool)
    (e : ConsoleError) : (c.runUntil limit stop).1 ≠ .error e := by
  intro failed
  obtain ⟨k, more, -, ends, -⟩ := runUntil_eq_iff.mp (Prod.ext failed rfl)
  cases ends with
  | fault _ _ step => cases (faultless.report_stepped k).symm.trans step

/-- The host stops a run at the first boundary where it asks to, if the run gets there. -/
theorem runUntil_eq_stopped_iff (faultless : c.Faultless rom) {limit : Nat}
    {stop : Console → Bool} : c.runUntil limit stop = (.ok .stopped, d) ↔
      ∃ k, c.GetsTo limit k ∧ (∀ j < k, stop (c.stepped j) = false) ∧
        stop (c.stepped k) = true ∧ d = c.stepped k := by
  rw [runUntil_eq_iff]
  constructor
  · rintro ⟨k, more, before, ends, rfl⟩
    obtain ⟨getsTo, unasked⟩ := faultless.runsOn_iff.mp before
    cases ends with
    | stopped asked => exact ⟨k, getsTo, unasked, asked, rfl⟩
  · rintro ⟨k, getsTo, unasked, asked, rfl⟩
    exact ⟨k, 0, faultless.runsOn_iff.mpr ⟨getsTo, unasked⟩, .stopped asked, rfl⟩

/-- A run jams at the first instruction that does, if it still begins that one. -/
theorem run_eq_halted_iff (faultless : c.Faultless rom) {limit : Nat} :
    c.run limit = (.ok .halted, d) ↔
      ∃ k, c.GetsTo limit k ∧ (c.stepped k).cycles - c.cycles < limit ∧
        (c.stepped (k + 1)).cpu.halted = true ∧ d = c.stepped (k + 1) := by
  rw [run, runUntil_eq_iff]
  constructor
  · rintro ⟨k, more, before, ends, rfl⟩
    obtain ⟨getsTo, -⟩ := faultless.runsOn_iff.mp before
    have past := cycles_stepped before
    cases ends with
    | halted _ early step =>
      rw [faultless.report_stepped k] at step
      exact ⟨k, getsTo, by omega, Except.ok.inj step, rfl⟩
  · rintro ⟨k, getsTo, within, jammed, rfl⟩
    refine ⟨k, 1, faultless.runsOn_iff.mpr ⟨getsTo, fun _ _ => rfl⟩, .halted rfl ?_ ?_, rfl⟩
    · omega
    · rw [faultless.report_stepped k, jammed]

end Faultless

theorem faultless_switchedOn {settings : Settings} {cartridge : Cartridge}
    (accepted : Cartridge.ofImage settings.image = .ok cartridge)
    (lenient : settings.strictMemory = false) :
    (switchedOn settings cartridge).Faultless cartridge.board.prgRom := by
  refine ⟨⟨?_, ?_⟩, fitted_switchedOn accepted⟩
  · rw [bus, bus_switchedOn]
    exact lenient
  · rw [bus, bus_switchedOn]
    rfl

end NesMachine.Console
