import NesMachine.Console.Run
import NesMachine.Proofs.Console.StepReports

/-!
# Runs that end at a deadline

A run looks at the console between instructions: whether the host asks it to stop, and then
whether the deadline has passed, which is the limit's cycles after the start. It ends at the
first boundary where one of these holds or from which the step faults or jams, after at most
one instruction for every two cycles of the limit, and no more than seven cycles late. What
a run gives depends on its deadline only, so that a run up to a limit can be taken up again
as if it had not been interrupted.
-/
namespace NesMachine.Console

/-- Nothing ends a run at this boundary, and its next step neither. -/
structure RunsOn (deadline : Nat) (stop : Console → Bool) (c : Console) : Prop where
  unasked : stop c = false
  early : c.cycles < deadline
  steps : c.step.1 = .ok false

/-- How a run ends at a boundary, and how many steps it still takes there. -/
inductive EndsAt (deadline : Nat) (stop : Console → Bool) (c : Console) :
    (more : Nat) → Except ConsoleError RunOutcome → Prop
  | stopped (asked : stop c = true) : EndsAt deadline stop c 0 (.ok .stopped)
  | limitReached (unasked : stop c = false) (late : deadline ≤ c.cycles)
      (near : c.cycles ≤ deadline + 7) : EndsAt deadline stop c 0 (.ok .limitReached)
  | fault (unasked : stop c = false) (early : c.cycles < deadline) {fault : BusFault}
      (step : c.step.1 = .error (.memoryFault fault)) :
      EndsAt deadline stop c 1 (.error (.memoryFault fault))
  | halted (unasked : stop c = false) (early : c.cycles < deadline)
      (step : c.step.1 = .ok true) : EndsAt deadline stop c 1 (.ok .halted)

variable {start limit : Nat} {stop : Console → Bool} {c : Console}

/-- A step is still taken only before the deadline. -/
theorem EndsAt.few {deadline more : Nat} {report : Except ConsoleError RunOutcome}
    (ends : c.EndsAt deadline stop more report) : 2 * more ≤ deadline - c.cycles + 1 := by
  cases ends with
  | stopped | limitReached => omega
  | fault _ early | halted _ early => omega

theorem limit_le_iff (past : start ≤ c.cycles) :
    limit ≤ c.cycles - start ↔ start + limit ≤ c.cycles := by
  omega

theorem runFrom_of_runsOn (runsOn : c.RunsOn (start + limit) stop) (past : start ≤ c.cycles)
    (fuel : Nat) : runFrom start limit stop (fuel + 1) c =
      runFrom start limit stop fuel c.step.2 := by
  have early : ¬ limit ≤ c.cycles - start := by
    rw [limit_le_iff past]
    exact Nat.not_le.mpr runsOn.early
  have stepped : c.step = (.ok false, c.step.2) := Prod.ext runsOn.steps rfl
  rw [runFrom, runsOn.unasked, if_neg Bool.false_ne_true, if_neg early, stepped]

theorem endsAt_of_not_runsOn (last : ¬ c.RunsOn (start + limit) stop) (past : start ≤ c.cycles)
    (near : c.cycles ≤ start + limit + 7) (fuel : Nat) :
    ∃ more, c.EndsAt (start + limit) stop more (runFrom start limit stop (fuel + 1) c).1 ∧
      (runFrom start limit stop (fuel + 1) c).2 = c.stepped more := by
  rw [runFrom]
  cases asked : stop c with
  | true => exact ⟨0, .stopped asked, rfl⟩
  | false =>
    rw [if_neg Bool.false_ne_true]
    by_cases late : start + limit ≤ c.cycles
    · rw [if_pos ((limit_le_iff past).mpr late)]
      exact ⟨0, .limitReached asked late near, rfl⟩
    · rw [if_neg (fun reached => late ((limit_le_iff past).mp reached))]
      have early : c.cycles < start + limit := Nat.lt_of_not_le late
      rcases stepped : c.step with ⟨report, next⟩
      have reported : c.step.1 = report := congrArg Prod.fst stepped
      have moved : next = c.stepped 1 := congrArg Prod.snd stepped.symm
      cases report with
      | error e =>
        obtain ⟨fault, rfl⟩ := fault_of_step reported
        exact ⟨1, .fault asked early reported, moved⟩
      | ok jammed =>
        cases jammed with
        | true => exact ⟨1, .halted asked early reported, moved⟩
        | false => exact absurd ⟨asked, early, reported⟩ last

/-- A run that has fuel for every cycle before its deadline comes to its end. -/
theorem exists_endsAt (fuel : Nat) (past : start ≤ c.cycles)
    (fuelled : 0 < fuel ∧ start + limit < fuel + c.cycles)
    (near : c.cycles ≤ start + limit + 7) :
    ∃ k more, 2 * (k + more) ≤ start + limit - c.cycles + 1 ∧
      (∀ j < k, (c.stepped j).RunsOn (start + limit) stop) ∧
      (c.stepped k).EndsAt (start + limit) stop more (runFrom start limit stop fuel c).1 ∧
      (runFrom start limit stop fuel c).2 = c.stepped (k + more) := by
  -- A step that the run goes on after takes one unit of fuel and two cycles at least.
  induction fuel generalizing c with
  | zero => exact absurd fuelled.1 (Nat.lt_irrefl 0)
  | succ fuel ih =>
    by_cases runsOn : c.RunsOn (start + limit) stop
    · have early := runsOn.early
      have spent := cycles_of_step runsOn.steps
      obtain ⟨k, more, few, before, ends, moved⟩ := @ih c.step.2 (by omega) (by omega) (by omega)
      rw [runFrom_of_runsOn runsOn past]
      refine ⟨k + 1, more, by omega, ?_, ends, ?_⟩
      · intro j small
        cases j with
        | zero => exact runsOn
        | succ j => exact before j (by omega)
      · rw [moved, Nat.add_right_comm, stepped_succ]
    · obtain ⟨more, ends, moved⟩ := endsAt_of_not_runsOn runsOn past near fuel
      have few := ends.few
      exact ⟨0, more, by omega, by omega, ends, by rw [moved, Nat.zero_add]⟩

/-- Where a run began matters only for its deadline. -/
theorem runFrom_of_deadline {start' limit' : Nat} (same : start + limit = start' + limit')
    {fuel fuel' : Nat} (past : start ≤ c.cycles) (past' : start' ≤ c.cycles)
    (fuelled : 0 < fuel ∧ start + limit < fuel + c.cycles)
    (fuelled' : 0 < fuel' ∧ start + limit < fuel' + c.cycles) :
    runFrom start limit stop fuel c = runFrom start' limit' stop fuel' c := by
  induction fuel generalizing fuel' c with
  | zero => exact absurd fuelled.1 (Nat.lt_irrefl 0)
  | succ fuel ih =>
    cases fuel' with
    | zero => exact absurd fuelled'.1 (Nat.lt_irrefl 0)
    | succ fuel' =>
      have late : limit ≤ c.cycles - start ↔ limit' ≤ c.cycles - start' := by
        rw [limit_le_iff past, limit_le_iff past', same]
      rw [runFrom, runFrom]
      simp only [late]
      split
      · rfl
      · split
        · rfl
        · rcases stepped : c.step with ⟨report, next⟩
          cases report with
          | error e => rfl
          | ok jammed =>
            cases jammed with
            | true => rfl
            | false =>
              have spent := cycles_of_step (congrArg Prod.fst stepped)
              simp only [stepped] at spent
              exact ih (by omega) (by omega) (by omega) (by omega)

theorem RunsOn.mono {deadline later : Nat} (runsOn : c.RunsOn deadline stop)
    (below : deadline ≤ later) : c.RunsOn later stop :=
  ⟨runsOn.unasked, Nat.lt_of_lt_of_le runsOn.early below, runsOn.steps⟩

theorem cycles_stepped {deadline k : Nat}
    (before : ∀ j < k, (c.stepped j).RunsOn deadline stop) :
    c.cycles + 2 * k ≤ (c.stepped k).cycles := by
  induction k with
  | zero => exact Nat.le_refl c.cycles
  | succ k ih =>
    have reached := ih fun j small => before j (Nat.lt_succ_of_lt small)
    have spent := cycles_of_step (before k (Nat.lt_succ_self k)).steps
    rw [step_stepped] at spent
    omega

theorem runFrom_stepped {k : Nat} (before : ∀ j < k, (c.stepped j).RunsOn (start + limit) stop)
    (past : start ≤ c.cycles) (fuel : Nat) : runFrom start limit stop (fuel + k) c =
      runFrom start limit stop fuel (c.stepped k) := by
  induction k generalizing fuel with
  | zero => rfl
  | succ k ih =>
    have earlier : ∀ j < k, _ := fun j small => before j (Nat.lt_succ_of_lt small)
    have last := before k (Nat.lt_succ_self k)
    have spent := cycles_stepped earlier
    rw [Nat.add_comm k 1, ← Nat.add_assoc, ih earlier, runFrom_of_runsOn last (by omega),
      step_stepped, Nat.add_comm 1 k]

/-- A run that comes to a boundary goes on from there as one that begins there with what is
left of the limit. -/
theorem runUntil_stepped {k : Nat} (before : ∀ j < k, (c.stepped j).RunsOn (c.cycles + limit) stop)
    (within : (c.stepped k).cycles ≤ c.cycles + limit) : c.runUntil limit stop =
      (c.stepped k).runUntil (c.cycles + limit - (c.stepped k).cycles) stop := by
  have spent := cycles_stepped before
  have fuelled : limit + 1 = limit + 1 - k + k := by omega
  rw [runUntil, fuelled, runFrom_stepped before (Nat.le_refl _), runUntil]
  exact runFrom_of_deadline (by omega) (by omega) (Nat.le_refl _) (by omega) (by omega)

/-- A run ends at the first boundary where it is asked to stop or its limit is reached, or
from which a step faults or jams; and a run that has reached its limit goes on under another
limit as one run would under both. -/
theorem ends_of_runUntil (c : Console) (limit : Nat) :
    (∀ stop, ∃ k more, k + more ≤ (limit + 1) / 2 ∧
      (∀ j < k, (c.stepped j).RunsOn (c.cycles + limit) stop) ∧
      (c.stepped k).EndsAt (c.cycles + limit) stop more (c.runUntil limit stop).1 ∧
      (c.runUntil limit stop).2 = c.stepped (k + more)) ∧
    ∀ further, (c.run limit).1 = .ok .limitReached →
      (c.run limit).2.run further =
        c.run ((c.run limit).2.cycles - c.cycles + further) := by
  have ends (stop : Console → Bool) : ∃ k more, k + more ≤ (limit + 1) / 2 ∧
      (∀ j < k, (c.stepped j).RunsOn (c.cycles + limit) stop) ∧
      (c.stepped k).EndsAt (c.cycles + limit) stop more (c.runUntil limit stop).1 ∧
      (c.runUntil limit stop).2 = c.stepped (k + more) := by
    obtain ⟨k, more, few, before, last, moved⟩ := @exists_endsAt c.cycles limit stop c
      (limit + 1) (Nat.le_refl _) (by omega) (by omega)
    exact ⟨k, more, by omega, before, last, moved⟩
  refine ⟨ends, ?_⟩
  intro further reached
  obtain ⟨k, more, -, before, last, moved⟩ := ends fun _ => false
  have atLimit : (c.run limit).2 = c.stepped k ∧ c.cycles + limit ≤ (c.stepped k).cycles := by
    change (c.runUntil limit fun _ => false).1 = _ at reached
    rw [reached] at last
    cases last with
    | limitReached unasked late near => exact ⟨moved, late⟩
  obtain ⟨same, late⟩ := atLimit
  rw [same]
  have spent : c.cycles + ((c.stepped k).cycles - c.cycles + further) =
      (c.stepped k).cycles + further := by omega
  have later : ∀ j < k, (c.stepped j).RunsOn
      (c.cycles + ((c.stepped k).cycles - c.cycles + further)) fun _ => false :=
    fun j small => (before j small).mono (by omega)
  rw [run, run, runUntil_stepped later (by omega), spent, Nat.add_sub_cancel_left]

/-- A console whose ROM is one no-operation, all over its window. -/
def idling : Console :=
  switchedOn (.ofImage #[]) ⟨⟨1, 0, 0, .horizontal, false, false, 1, false⟩,
    .fitted #[0xEA] #[] 0 .horizontal⟩

theorem ends_of_runUntil_idling :
    (idling.run 3).1 = .ok .limitReached ∧ (idling.run 3).2.cycles = idling.cycles + 4 ∧
      (idling.run 3).2.run 5 = idling.run 9 := by
  have reached : (idling.run 3).1 = .ok .limitReached := rfl
  have spent : (idling.run 3).2.cycles = idling.cycles + 4 := rfl
  have resumed := (ends_of_runUntil idling 3).2 5 reached
  rw [spent, Nat.add_sub_cancel_left] at resumed
  exact ⟨reached, spent, resumed⟩

end NesMachine.Console
