import NesMachine.Console.TestStatus
import NesMachine.Proofs.Console.StepReports

/-!
# Verdicts of the status protocol

A run of a test program goes from head to head: it looks at the status, presses reset if it
is time, and takes a step. Every step takes two to eight cycles, so that after at most half
the budget's steps the run is at its last head, and ends there in one of four ways: with
the result that this head is the first to show, over the budget by fourteen cycles at the
most, or with the first step that reports a fault or a jam.
-/
namespace NesMachine

namespace TestStatus

/-- The signature is there, with a status that is a result. -/
def ShowsResult (c : Console) : Prop :=
  c.peek 0x6001 = 0xDE ∧ c.peek 0x6002 = 0xB0 ∧ c.peek 0x6003 = 0x61 ∧
    c.peek 0x6000 ≠ 0x80 ∧ c.peek 0x6000 ≠ 0x81

theorem started_iff (c : Console) :
    started c = true ↔ c.peek 0x6001 = 0xDE ∧ c.peek 0x6002 = 0xB0 ∧ c.peek 0x6003 = 0x61 := by
  simp [started, signature]

theorem observe_of_result {c : Console} (shows : ShowsResult c) (elapsed : Nat) (w : Watch) :
    observe c elapsed w = .error ⟨c.peek 0x6000, c.textAt 0x6004, elapsed⟩ := by
  obtain ⟨first, second, third, running, request⟩ := shows
  rw [observe, if_pos ((started_iff c).mpr ⟨first, second, third⟩)]
  simp only [statusAddress, TestStatus.running, needsReset, running, request, if_false]
  rfl

/-- What is watched after a look at a console that shows no result. -/
def Watch.look (w : Watch) (c : Console) : Watch := (observe c 0 w).toOption.getD w

theorem observe_of_silent {c : Console} (silent : ¬ ShowsResult c) (elapsed : Nat) (w : Watch) :
    observe c elapsed w = .ok (w.look c) := by
  rw [Watch.look, observe, observe]
  by_cases begun : started c
  · obtain ⟨first, second, third⟩ := (started_iff c).mp begun
    simp only [begun, if_true]
    split
    · rfl
    · next notRunning =>
      split
      · rfl
      · next noRequest => exact absurd ⟨first, second, third, notRunning, noRequest⟩ silent
  · simp only [begun]
    rfl

/-- Where a run looks at the status: the console, and what has been watched before. -/
structure Head where
  console : Console
  watch : Watch

namespace Head

/-- The console and the watch once reset has been pressed, if it was time for it. -/
def press (h : Head) : Console × Watch := pressReset h.console (h.watch.look h.console)

def next (h : Head) : Head := ⟨h.press.1.step.2, h.press.2⟩

/-- The head after several more. -/
def after (h : Head) : Nat → Head
  | 0 => h
  | k + 1 => h.next.after k

theorem after_zero (h : Head) : h.after 0 = h := rfl

theorem after_succ (h : Head) (k : Nat) : h.after (k + 1) = h.next.after k := (rfl)

theorem next_after (h : Head) (k : Nat) : (h.after k).next = h.after (k + 1) := by
  induction k generalizing h with
  | zero => rw [after_succ h 0, after_zero, after_zero]
  | succ k ih => rw [after_succ h k, ih, after_succ h (k + 1)]

theorem press_cases (h : Head) : h.press.1 = h.console ∨ h.press.1 = h.console.reset := by
  unfold press pressReset
  split
  · split
    · exact .inr rfl
    · exact .inl rfl
  · exact .inl rfl

theorem bus_press (h : Head) : h.press.1.machine.bus = h.console.machine.bus := by
  rcases h.press_cases with spared | pressed
  · rw [spared]
  · rw [pressed]
    exact Machine.bus_reset h.console.machine

theorem showsResult_press {h : Head} : ShowsResult h.press.1 ↔ ShowsResult h.console := by
  have same (a : UInt16) : h.press.1.peek a = h.console.peek a := by
    rw [Console.peek, bus_press, Console.peek]
  simp only [ShowsResult, same]

theorem cycles_press (h : Head) :
    h.console.cycles ≤ h.press.1.cycles ∧ h.press.1.cycles ≤ h.console.cycles + 7 := by
  rcases h.press_cases with spared | pressed
  · rw [spared]
    exact ⟨Nat.le_refl _, Nat.le_add_right _ 7⟩
  · rw [pressed, h.console.cycles_reset]
    exact ⟨Nat.le_add_right _ 7, Nat.le_refl _⟩

/-- The run goes on after this head. -/
structure GoesOn (start budget : Nat) (h : Head) : Prop where
  silent : ¬ ShowsResult h.console
  within : h.console.cycles - start < budget
  steps : h.press.1.step.1 = .ok false

/-- How a run that began at cycle `start` ends at its last head. -/
inductive Ends (start budget : Nat) (h : Head) : Except ConsoleError StatusReport × Console → Prop
  | result (shows : ShowsResult h.console) : Ends start budget h
      (.ok ⟨h.console.peek 0x6000, h.console.textAt 0x6004, h.console.cycles - start⟩, h.console)
  | timeout (silent : ¬ ShowsResult h.console) (silent' : ¬ ShowsResult h.press.1)
      (late : budget ≤ h.console.cycles - start) (near : h.console.cycles - start ≤ budget + 14) :
      Ends start budget h (.error (.timeout (h.console.cycles - start)), h.press.1)
  | fault (silent : ¬ ShowsResult h.console) (within : h.console.cycles - start < budget)
      {fault : BusFault} {c : Console} (step : h.press.1.step = (.error (.memoryFault fault), c)) :
      Ends start budget h (.error (.memoryFault fault), c)
  | jam (silent : ¬ ShowsResult h.console) (within : h.console.cycles - start < budget)
      {c : Console} (step : h.press.1.step = (.ok true, c)) :
      Ends start budget h (.error (.jammed (c.pc - 1) (c.peek (c.pc - 1))), c)

theorem cycles_next {start budget : Nat} {h : Head} (goesOn : h.GoesOn start budget) :
    h.console.cycles + 2 ≤ h.next.console.cycles ∧
      h.next.console.cycles ≤ h.console.cycles + 15 := by
  have press := h.cycles_press
  have step := Console.cycles_of_step goesOn.steps
  show h.console.cycles + 2 ≤ h.press.1.step.2.cycles ∧ h.press.1.step.2.cycles ≤ _
  omega

theorem runFrom_of_goesOn {start budget : Nat} {h : Head} (goesOn : h.GoesOn start budget)
    (fuel : Nat) : runFrom start budget (fuel + 1) h.console h.watch =
      runFrom start budget fuel h.next.console h.next.watch := by
  have pressed : pressReset h.console (h.watch.look h.console) = h.press := rfl
  have stepped : h.press.1.step = (.ok false, h.next.console) := Prod.ext goesOn.steps rfl
  rw [runFrom, observe_of_silent goesOn.silent]
  simp only [pressed, if_neg (Nat.not_le.mpr goesOn.within), stepped]
  rfl

theorem ends_of_not_goesOn {start budget : Nat} {h : Head} (last : ¬ h.GoesOn start budget)
    (near : h.console.cycles - start ≤ budget + 14) (fuel : Nat) :
    h.Ends start budget (runFrom start budget (fuel + 1) h.console h.watch) := by
  have pressed : pressReset h.console (h.watch.look h.console) = h.press := rfl
  by_cases shows : ShowsResult h.console
  · rw [runFrom, observe_of_result shows]
    exact .result shows
  · rw [runFrom, observe_of_silent shows]
    simp only [pressed]
    by_cases late : budget ≤ h.console.cycles - start
    · rw [if_pos late]
      exact .timeout shows (fun shown => shows (showsResult_press.mp shown)) late near
    · have within : h.console.cycles - start < budget := Nat.lt_of_not_le late
      rw [if_neg late]
      rcases stepped : h.press.1.step with ⟨outcome, c⟩
      have report : h.press.1.step.1 = outcome := congrArg Prod.fst stepped
      cases outcome with
      | error e =>
        obtain ⟨fault, rfl⟩ := Console.fault_of_step report
        exact .fault shows within stepped
      | ok jammed =>
        cases jammed with
        | true => exact .jam shows within stepped
        | false => exact absurd ⟨shows, within, report⟩ last

/-- A run that has fuel for every cycle left in its budget comes to a last head. -/
theorem exists_ends (start budget fuel : Nat) (h : Head) (past : start ≤ h.console.cycles)
    (fuelled : 0 < fuel ∧ budget < fuel + (h.console.cycles - start))
    (near : h.console.cycles - start ≤ budget + 14) :
    ∃ k, 2 * k ≤ budget - (h.console.cycles - start) + 1 ∧
      (∀ j < k, (h.after j).GoesOn start budget) ∧
      start ≤ (h.after k).console.cycles ∧
      (h.after k).Ends start budget (runFrom start budget fuel h.console h.watch) := by
  -- A round that goes on takes one unit of fuel and two cycles of the budget at least.
  induction fuel generalizing h with
  | zero => exact absurd fuelled.1 (Nat.lt_irrefl 0)
  | succ fuel ih =>
    by_cases goesOn : h.GoesOn start budget
    · have within := goesOn.within
      have spent := cycles_next goesOn
      obtain ⟨k, few, before, past', ends⟩ := ih h.next (by omega) (by omega) (by omega)
      rw [← runFrom_of_goesOn goesOn] at ends
      refine ⟨k + 1, by omega, ?_, past', ends⟩
      intro j small
      cases j with
      | zero => exact goesOn
      | succ j => exact before j (by omega)
    · exact ⟨0, by omega, by omega, past, ends_of_not_goesOn goesOn near fuel⟩

end Head

/-- The heads of a run, counted from where it begins. -/
def headAt (c : Console) (k : Nat) : Head := Head.after ⟨c, none, none⟩ k

theorem headAt_succ (c : Console) (k : Nat) : headAt c (k + 1) = (headAt c k).next :=
  (Head.next_after _ k).symm

/-- The last head of a run, at which it ends. -/
theorem exists_last (c : Console) (budget : Nat) :
    ∃ k, 2 * k ≤ budget + 1 ∧ (∀ j < k, (headAt c j).GoesOn c.cycles budget) ∧
      c.cycles ≤ (headAt c k).console.cycles ∧
      (headAt c k).Ends c.cycles budget (run c budget) := by
  have begun : (headAt c 0).console.cycles - c.cycles = 0 := Nat.sub_self c.cycles
  obtain ⟨k, few, before, past, ends⟩ := (headAt c 0).exists_ends c.cycles budget (budget + 1)
    (Nat.le_refl c.cycles) (by omega) (by omega)
  exact ⟨k, by omega, before, past, ends⟩

/-- A run comes to its last head after at most half the budget's steps, none of which found
a result, a spent budget, a fault or a jam, and it ends there. -/
theorem verdict_of_run (c : Console) (budget : Nat) :
    (∃ k, 2 * k ≤ budget + 1 ∧ (∀ j < k, (headAt c j).GoesOn c.cycles budget) ∧
      c.cycles ≤ (headAt c k).console.cycles ∧
      (headAt c k).Ends c.cycles budget (run c budget)) ∧
    ∀ report, (run c budget).1 = .ok report → (report.passed ↔ report.code = 0) := by
  refine ⟨exists_last c budget, ?_⟩
  intro report _
  exact decide_eq_true_iff

end TestStatus
end NesMachine
