import Mathlib.Data.Nat.Count
import NesMachine.Proofs.Console.StatusProtocol

/-!
# When a run presses reset

A test program asks for reset by a change of its status, and the run presses it a while
later. Of a request the run keeps when reset is due, and of the program the status seen last.
A request that comes while another is waiting takes its place, and a press answers all that
came before it: so reset is pressed exactly when the delay is over since the latest request
and none was answered since, no more often than it was asked for, and at most seven cycles
late, as a step takes no more than eight.
-/
namespace NesMachine

theorem Region.cyclesIn_pos (r : Region) : 0 < r.cyclesIn 100 := by
  cases r <;> decide

theorem Console.ne_reset (c : Console) : c ≠ c.reset := by
  intro same
  have spent := congrArg Console.cycles same
  rw [c.cycles_reset] at spent
  omega

namespace TestStatus

section Look

variable {c : Console} (w : Watch)

theorem look_of_unstarted (unstarted : ¬ started c) : w.look c = w := by
  rw [Watch.look, observe, if_neg unstarted]
  rfl

theorem look_of_running (begun : started c) (status : c.peek 0x6000 = 0x80) :
    w.look c = { w with lastStatus := some 0x80 } := by
  have running : c.peek statusAddress = TestStatus.running := status
  rw [Watch.look, observe, if_pos begun]
  simp only [running, if_true]
  rfl

theorem look_of_request (begun : started c) (status : c.peek 0x6000 = 0x81) : w.look c = {
    resetAt := if w.lastStatus = some 0x81 then w.resetAt
      else some (c.cycles + c.region.cyclesIn 100)
    lastStatus := some 0x81 } := by
  have request : c.peek statusAddress = needsReset := status
  have other : needsReset ≠ running := by decide
  rw [Watch.look, observe, if_pos begun]
  simp only [request, if_neg other, if_true]
  rfl

variable (silent : ¬ ShowsResult c)
include silent

theorem status_of_silent (begun : started c) : c.peek 0x6000 = 0x80 ∨ c.peek 0x6000 = 0x81 := by
  obtain ⟨first, second, third⟩ := (started_iff c).mp begun
  by_cases running : c.peek 0x6000 = 0x80
  · exact .inl running
  · by_cases request : c.peek 0x6000 = 0x81
    · exact .inr request
    · exact absurd ⟨first, second, third, running, request⟩ silent

theorem lastStatus_look :
    (w.look c).lastStatus = if started c then some (c.peek 0x6000) else w.lastStatus := by
  by_cases begun : started c
  · rw [if_pos begun]
    rcases status_of_silent silent begun with running | request
    · rw [look_of_running w begun running, running]
    · rw [look_of_request w begun request, request]
  · rw [look_of_unstarted w begun, if_neg begun]

theorem resetAt_look : (w.look c).resetAt =
    if started c ∧ c.peek 0x6000 = 0x81 ∧ w.lastStatus ≠ some 0x81 then
      some (c.cycles + c.region.cyclesIn 100)
    else w.resetAt := by
  by_cases begun : started c
  · rcases status_of_silent silent begun with running | request
    · rw [look_of_running w begun running, if_neg (by simp [running])]
    · rw [look_of_request w begun request]
      simp [begun, request]
  · rw [look_of_unstarted w begun, if_neg (fun asks => begun asks.1)]

end Look

section Press

/-- Reset is due by now. -/
def Watch.Due (w : Watch) (now : Nat) : Prop := ∃ due ≤ now, w.resetAt = some due

variable {c : Console} {w : Watch}

theorem pressReset_of_due (due : w.Due c.cycles) :
    pressReset c w = (c.reset, { w with resetAt := none }) := by
  obtain ⟨due, late, waits⟩ := due
  rw [pressReset, waits]
  exact if_pos late

theorem pressReset_of_not_due (early : ¬ w.Due c.cycles) : pressReset c w = (c, w) := by
  rw [pressReset]
  cases waits : w.resetAt with
  | none => rfl
  | some due => exact if_neg fun late => early ⟨due, late, waits⟩

namespace Head

/-- What is watched once the run has looked at a head. -/
def looked (h : Head) : Watch := h.watch.look h.console

/-- The console that a run leaves a head with. When the run began goes into a report only. -/
def leaves (h : Head) : Console :=
  match observe h.console 0 h.watch with
  | .error _ => h.console
  | .ok w => (pressReset h.console w).1

variable {h : Head}

theorem press_of_due (due : h.looked.Due h.console.cycles) :
    h.press = (h.console.reset, { h.looked with resetAt := none }) := pressReset_of_due due

theorem press_of_not_due (early : ¬ h.looked.Due h.console.cycles) :
    h.press = (h.console, h.looked) := pressReset_of_not_due early

theorem leaves_of_result (shows : ShowsResult h.console) : h.leaves = h.console := by
  rw [leaves, observe_of_result shows]

theorem leaves_of_silent (silent : ¬ ShowsResult h.console) : h.leaves = h.press.1 := by
  rw [leaves, observe_of_silent silent]
  rfl

theorem leaves_cases (h : Head) : h.leaves = h.console ∨ h.leaves = h.console.reset := by
  by_cases shows : ShowsResult h.console
  · exact .inl (leaves_of_result shows)
  · rw [leaves_of_silent shows]
    exact h.press_cases

theorem region_next (h : Head) : h.next.console.region = h.console.region := by
  have kept : h.press.1.region = h.console.region := by
    rcases h.press_cases with spared | pressed
    · rw [spared]
    · rw [pressed]
      rfl
  exact h.press.1.region_step.trans kept

end Head

theorem region_headAt (c : Console) (k : Nat) : (headAt c k).console.region = c.region := by
  induction k with
  | zero => rfl
  | succ k ih =>
    rw [headAt_succ]
    exact (Head.region_next _).trans ih

end Press

section Protocol

variable (c : Console)

/-- The time at a head of a run, in cycles. -/
def time (k : Nat) : Nat := (headAt c k).console.cycles

/-- The status that was seen last at the first so many heads of a run. -/
def lastSeen : Nat → Option UInt8
  | 0 => none
  | k + 1 =>
    if started (headAt c k).console then some ((headAt c k).console.peek 0x6000)
    else lastSeen k

/-- The program asks for reset at a head: it did not when its status was seen last. -/
def Requests (k : Nat) : Prop :=
  started (headAt c k).console ∧ (headAt c k).console.peek 0x6000 = 0x81 ∧
    lastSeen c k ≠ some 0x81

instance : DecidablePred (Requests c) := fun _ => instDecidableAnd

/-- The latest request at the first so many heads. -/
structure LatestRequest (m r : Nat) : Prop where
  before : r < m
  requests : Requests c r
  latest : ∀ j, r < j → j < m → ¬ Requests c j

/-- The run presses reset at a head. -/
def Presses (k : Nat) : Prop := (headAt c k).leaves = (headAt c k).console.reset

theorem presses_iff (k : Nat) :
    Presses c k ↔ (headAt c k).leaves.cycles = (headAt c k).console.cycles + 7 := by
  rw [Presses]
  rcases (headAt c k).leaves_cases with spared | pressed
  · rw [spared]
    exact ⟨fun same => absurd same (Console.ne_reset _), fun spent => by omega⟩
  · rw [pressed]
    exact ⟨fun _ => Console.cycles_reset _, fun _ => rfl⟩

instance : DecidablePred (Presses c) := fun k => decidable_of_iff' _ (presses_iff c k)

/-- A request at one head has not been answered before another. -/
def Unanswered (r n : Nat) : Prop := ∀ j, r ≤ j → j < n → ¬ Presses c j

/-- What a run has kept once it has looked at the first `m` heads and left the first `n`. -/
structure Tracks (m n : Nat) (w : Watch) : Prop where
  lastStatus : w.lastStatus = lastSeen c m
  answered : w.resetAt = none → ∀ r < m, Requests c r → ¬ Unanswered c r n
  waiting : ∀ due, w.resetAt = some due → ∃ r, LatestRequest c m r ∧ Unanswered c r n ∧
    due = time c r + c.region.cyclesIn 100
  fewer : Nat.count (Presses c) n + (if w.resetAt.isSome then 1 else 0) ≤
    Nat.count (Requests c) m

variable {c}

theorem not_showsResult_of_presses {k : Nat} (presses : Presses c k) :
    ¬ ShowsResult (headAt c k).console := by
  intro shows
  rw [Presses, Head.leaves_of_result shows] at presses
  exact Console.ne_reset _ presses

theorem LatestRequest.unique {m r r' : Nat} (latest : LatestRequest c m r)
    (latest' : LatestRequest c m r') : r = r' := by
  rcases Nat.lt_trichotomy r r' with below | same | above
  · exact absurd latest'.requests (latest.latest r' below latest'.before)
  · exact same
  · exact absurd latest.requests (latest'.latest r above latest.before)

theorem LatestRequest.succ {m r : Nat} (latest : LatestRequest c m r)
    (quiet : ¬ Requests c m) : LatestRequest c (m + 1) r := by
  refine ⟨Nat.lt_succ_of_lt latest.before, latest.requests, ?_⟩
  intro j above below
  rcases Nat.lt_succ_iff_lt_or_eq.mp below with earlier | rfl
  · exact latest.latest j above earlier
  · exact quiet

theorem Unanswered.succ {r n : Nat} (unanswered : Unanswered c r n)
    (spares : ¬ Presses c n) : Unanswered c r (n + 1) := by
  intro j above below
  rcases Nat.lt_succ_iff_lt_or_eq.mp below with earlier | rfl
  · exact unanswered j above earlier
  · exact spares

theorem Unanswered.mono {r n n' : Nat} (unanswered : Unanswered c r n') (sooner : n ≤ n') :
    Unanswered c r n :=
  fun j above below => unanswered j above (Nat.lt_of_lt_of_le below sooner)

theorem tracks_zero : Tracks c 0 0 (headAt c 0).watch := by
  refine ⟨rfl, ?_, ?_, Nat.le_refl 0⟩
  · intro _ r small
    exact absurd small (Nat.not_lt_zero r)
  · intro due waits
    cases waits

section Round

variable {k : Nat} (silent : ¬ ShowsResult (headAt c k).console)
include silent

theorem resetAt_look_headAt (tracks : Tracks c k k (headAt c k).watch) :
    (headAt c k).looked.resetAt =
      if Requests c k then some (time c k + c.region.cyclesIn 100)
      else (headAt c k).watch.resetAt := by
  rw [Head.looked, resetAt_look _ silent, tracks.lastStatus, region_headAt]
  rfl

theorem Tracks.look (tracks : Tracks c k k (headAt c k).watch) :
    Tracks c (k + 1) k (headAt c k).looked := by
  have resetAt := resetAt_look_headAt silent tracks
  have lastStatus : (headAt c k).looked.lastStatus = lastSeen c (k + 1) := by
    rw [Head.looked, lastStatus_look _ silent, tracks.lastStatus]
    rfl
  have fewer := tracks.fewer
  by_cases asks : Requests c k
  · rw [if_pos asks] at resetAt
    refine ⟨lastStatus, ?_, ?_, ?_⟩
    · intro none
      rw [resetAt] at none
      cases none
    · intro due waits
      rw [resetAt] at waits
      have latest : LatestRequest c (k + 1) k := ⟨Nat.lt_succ_self k, asks, by omega⟩
      have unanswered : Unanswered c k k := by
        intro j above below
        omega
      exact ⟨k, latest, unanswered, (Option.some.inj waits).symm⟩
    · rw [resetAt, Nat.count_succ, if_pos asks]
      show Nat.count (Presses c) k + 1 ≤ Nat.count (Requests c) k + 1
      omega
  · rw [if_neg asks] at resetAt
    refine ⟨lastStatus, ?_, ?_, ?_⟩
    · intro none r small requests
      rw [resetAt] at none
      rcases Nat.lt_succ_iff_lt_or_eq.mp small with earlier | rfl
      · exact tracks.answered none r earlier requests
      · exact absurd requests asks
    · intro due waits
      rw [resetAt] at waits
      obtain ⟨r, latest, unanswered, same⟩ := tracks.waiting due waits
      exact ⟨r, latest.succ asks, unanswered, same⟩
    · rw [resetAt, Nat.count_succ, if_neg asks]
      exact fewer

theorem presses_iff_due : Presses c k ↔ (headAt c k).looked.Due (time c k) := by
  rw [Presses, Head.leaves_of_silent silent]
  by_cases due : (headAt c k).looked.Due (time c k)
  · rw [Head.press_of_due due]
    exact ⟨fun _ => due, fun _ => rfl⟩
  · rw [Head.press_of_not_due due]
    exact ⟨fun same => absurd same (Console.ne_reset _), fun late => absurd late due⟩

theorem Tracks.press (tracks : Tracks c (k + 1) k (headAt c k).looked) :
    Tracks c (k + 1) (k + 1) (headAt c k).press.2 := by
  have fewer := tracks.fewer
  by_cases presses : Presses c k
  · have due := (presses_iff_due silent).mp presses
    rw [Head.press_of_due due]
    refine ⟨tracks.lastStatus, ?_, ?_, ?_⟩
    · intro _ r small _ unanswered
      exact unanswered k (Nat.le_of_lt_succ small) (Nat.lt_succ_self k) presses
    · intro due waits
      cases waits
    · obtain ⟨due, -, waits⟩ := due
      rw [Nat.count_succ, if_pos presses]
      rw [waits] at fewer
      exact fewer
  · have early := mt (presses_iff_due silent).mpr presses
    rw [Head.press_of_not_due early]
    refine ⟨tracks.lastStatus, ?_, ?_, ?_⟩
    · intro none r small requests unanswered
      exact tracks.answered none r small requests (unanswered.mono (Nat.le_succ k))
    · intro due waits
      obtain ⟨r, latest, unanswered, same⟩ := tracks.waiting due waits
      exact ⟨r, latest, unanswered.succ presses, same⟩
    · rw [Nat.count_succ, if_neg presses]
      exact fewer

end Round

variable {budget k : Nat}

theorem tracks_headAt (before : ∀ j < k, (headAt c j).GoesOn c.cycles budget) :
    Tracks c k k (headAt c k).watch := by
  induction k with
  | zero => exact tracks_zero
  | succ k ih =>
    have silent := (before k (Nat.lt_succ_self k)).silent
    have tracks := ih fun j small => before j (Nat.lt_succ_of_lt small)
    have kept := (tracks.look silent).press silent
    rw [headAt_succ]
    exact kept

/-- A reset that is still awaited at a head has become due in its last step or not at all. -/
theorem near_headAt (before : ∀ j < k, (headAt c j).GoesOn c.cycles budget) {due : Nat}
    (waits : (headAt c k).watch.resetAt = some due) : time c k ≤ due + 7 := by
  cases k with
  | zero => cases waits
  | succ k =>
    have spent := Console.cycles_of_step (before k (Nat.lt_succ_self k)).steps
    rw [time, headAt_succ, Head.next]
    rw [headAt_succ, Head.next] at waits
    by_cases late : (headAt c k).looked.Due (headAt c k).console.cycles
    · rw [Head.press_of_due late] at waits
      cases waits
    · rw [Head.press_of_not_due late] at waits spent ⊢
      have early : ¬ due ≤ (headAt c k).console.cycles := fun reached =>
        late ⟨due, reached, waits⟩
      dsimp only at spent ⊢
      omega

/-- What a run presses for: the latest request, once its delay is over. -/
theorem request_of_presses (before : ∀ j < k, (headAt c j).GoesOn c.cycles budget)
    (presses : Presses c k) : ∃ r, LatestRequest c (k + 1) r ∧ Unanswered c r k ∧
      time c r + c.region.cyclesIn 100 ≤ time c k ∧
      time c k ≤ time c r + c.region.cyclesIn 100 + 7 := by
  have silent := not_showsResult_of_presses presses
  have tracks := tracks_headAt before
  obtain ⟨due, late, waits⟩ := (presses_iff_due silent).mp presses
  obtain ⟨r, latest, unanswered, rfl⟩ := (tracks.look silent).waiting due waits
  refine ⟨r, latest, unanswered, late, ?_⟩
  rw [resetAt_look_headAt silent tracks] at waits
  by_cases asks : Requests c k
  · rw [if_pos asks] at waits
    have same := Option.some.inj waits
    have delay := c.region.cyclesIn_pos
    omega
  · rw [if_neg asks] at waits
    exact near_headAt before waits

theorem presses_of_request (before : ∀ j < k, (headAt c j).GoesOn c.cycles budget)
    (silent : ¬ ShowsResult (headAt c k).console)
    (asked : ∃ r ≤ k, Requests c r ∧ Unanswered c r k) {r : Nat}
    (latest : LatestRequest c (k + 1) r) (late : time c r + c.region.cyclesIn 100 ≤ time c k) :
    Presses c k := by
  have tracks := (tracks_headAt before).look silent
  obtain ⟨q, small, requests, unanswered⟩ := asked
  rw [presses_iff_due silent]
  cases waits : (headAt c k).looked.resetAt with
  | none =>
    exact absurd unanswered (tracks.answered waits q (Nat.lt_succ_of_le small) requests)
  | some due =>
    obtain ⟨r', latest', -, same⟩ := tracks.waiting due waits
    rw [latest'.unique latest] at same
    exact ⟨due, same ▸ late, waits⟩

theorem presses_le_requests (before : ∀ j < k, (headAt c j).GoesOn c.cycles budget) :
    Nat.count (Presses c) (k + 1) ≤ Nat.count (Requests c) (k + 1) := by
  have tracks := tracks_headAt before
  by_cases shows : ShowsResult (headAt c k).console
  · have spares : ¬ Presses c k := fun presses => not_showsResult_of_presses presses shows
    have more := Nat.count_monotone (Requests c) (Nat.le_add_right k 1)
    have fewer := tracks.fewer
    rw [Nat.count_succ, if_neg spares]
    omega
  · have fewer := ((tracks.look shows).press shows).fewer
    omega

/-- The heads of a run up to its last one, each of which leads on to the next. -/
structure Visits (c : Console) (budget last : Nat) : Prop where
  before : ∀ j < last, (headAt c j).GoesOn c.cycles budget
  next : ∀ j < last, (headAt c (j + 1)).console = (headAt c j).leaves.step.2
  ends : (headAt c last).Ends c.cycles budget (run c budget)
  final : (run c budget).2 = (headAt c last).leaves ∨
    (run c budget).2 = (headAt c last).leaves.step.2

theorem final_of_ends {h : Head} {start : Nat}
    {result : Except ConsoleError StatusReport × Console} (ends : h.Ends start budget result) :
    result.2 = h.leaves ∨ result.2 = h.leaves.step.2 := by
  cases ends with
  | result shows => exact .inl (Head.leaves_of_result shows).symm
  | timeout silent => exact .inl (Head.leaves_of_silent silent).symm
  | fault silent within step | jam silent within step =>
    rw [Head.leaves_of_silent silent]
    exact .inr (congrArg Prod.snd step).symm

theorem exists_visits (c : Console) (budget : Nat) : ∃ last, Visits c budget last := by
  obtain ⟨last, -, before, -, ends⟩ := exists_last c budget
  refine ⟨last, before, ?_, ends, final_of_ends ends⟩
  intro j small
  rw [headAt_succ, Head.leaves_of_silent (before j small).silent]
  rfl

/-- At each of its heads a run presses reset exactly if it does not end there with a result,
reset was asked for since it was pressed last, and the delay is over since the latest request. -/
theorem presses_of_run (c : Console) (budget : Nat) : ∃ last, Visits c budget last ∧
    ∀ k ≤ last,
      (Presses c k ↔ ¬ ShowsResult (headAt c k).console ∧
        (∃ r ≤ k, Requests c r ∧ Unanswered c r k) ∧
        ∃ r, LatestRequest c (k + 1) r ∧ time c r + c.region.cyclesIn 100 ≤ time c k) ∧
      (¬ Presses c k → (headAt c k).leaves = (headAt c k).console) ∧
      Nat.count (Presses c) (k + 1) ≤ Nat.count (Requests c) (k + 1) ∧
      (Presses c k → ∃ r, LatestRequest c (k + 1) r ∧
        time c r + c.region.cyclesIn 100 ≤ time c k ∧
        time c k ≤ time c r + c.region.cyclesIn 100 + 7) := by
  obtain ⟨last, visits⟩ := exists_visits c budget
  refine ⟨last, visits, ?_⟩
  intro k reached
  have before : ∀ j < k, (headAt c j).GoesOn c.cycles budget :=
    fun j small => visits.before j (Nat.lt_of_lt_of_le small reached)
  refine ⟨⟨?_, ?_⟩, ?_, presses_le_requests before, ?_⟩
  · intro presses
    obtain ⟨r, latest, unanswered, late, -⟩ := request_of_presses before presses
    exact ⟨not_showsResult_of_presses presses,
      ⟨r, Nat.le_of_lt_succ latest.before, latest.requests, unanswered⟩, r, latest, late⟩
  · rintro ⟨silent, asked, r, latest, late⟩
    exact presses_of_request before silent asked latest late
  · exact (headAt c k).leaves_cases.resolve_right
  · intro presses
    obtain ⟨r, latest, -, late, near⟩ := request_of_presses before presses
    exact ⟨r, latest, late, near⟩

end Protocol

end TestStatus
end NesMachine
