import RocNet.Analysis.ReasonSteps

/-!
# The reason a wait reports is the reason it ended

In runs of prompt wakers (`Prompt`: a waker stores `TimedOut` or `Cancelled` while the wait it claimed is still the
task's latest) every wait reports the reason it ended.
-/

namespace RocNet.Sched

/-- What `sleep` makes of how its wait ended (sched.rs:1221-1225); `none`: it waits again. -/
def sleepResult : Woke → Option Bool
  | .timedOut => some true
  | .cancelled => some false
  | .ready => none

/-- **Reasons.** In every run of prompt wakers, when `wait_suspended` or `park` returns for a
wait, it returns `TimedOut` only if the wait was given a deadline that had passed when its timer
fired, and `Cancelled` only if the wait was begun as cancellable and the task had been cancelled.
So `sleep` does not return true before its deadline, and a wait begun as not cancellable never
reports `Cancelled`. -/
theorem reported_reason_of_prompt {s : State} (h : Transition.ReachableBy system Prompt s) {t : TaskId} {w : Wait}
    {d : Option Instant} {r : Woke} (hcode : (s.tasks t).code = .reported w d r) :
    (r = .timedOut → ∃ deadline fired, d = some deadline ∧ (s.record w.id).deadline = some deadline ∧
      (s.record w.id).fired = some fired ∧ deadline ≤ fired ∧ fired ≤ s.now) ∧
    (r = .cancelled → w.cancellable = true ∧ (s.tasks t).cancelled = true) ∧
    (sleepResult r = some true → ∃ deadline, d = some deadline ∧ deadline ≤ s.now) ∧
    (w.cancellable = false → r ≠ .cancelled) := by
  have hk := (reasons_of_reachable h).tasks t
  rw [hcode] at hk
  obtain ⟨hlatest, htime, hcancel⟩ := hk
  have htimed : r = .timedOut → ∃ deadline fired, d = some deadline ∧
      (s.record w.id).deadline = some deadline ∧ (s.record w.id).fired = some fired ∧
      deadline ≤ fired ∧ fired ≤ s.now := by
    intro hr
    obtain ⟨⟨deadline, fired, hd, hf, hle, hnow⟩, heq⟩ := htime hr
    rw [hlatest.1]
    exact ⟨deadline, fired, heq ▸ hd, hd, hf, hle, hnow⟩
  refine ⟨htimed, hcancel, fun hsleep => ?_, fun hflag hr => ?_⟩
  · have hr : r = .timedOut := by
      cases r with
      | timedOut => rfl
      | ready | cancelled => cases hsleep
    obtain ⟨deadline, fired, hd, -, -, hle, hnow⟩ := htimed hr
    exact ⟨deadline, hd, hle.trans hnow⟩
  · rw [(hcancel hr).1] at hflag
    cases hflag

/-- `main!` sleeps until 3; its timer fires then, and `sleep` returns true. -/
theorem reported_reason_of_prompt_sleep : ∃ s, Transition.ReachableBy system Prompt s ∧
    (s.tasks 1).code = .reported ⟨1, true⟩ (some 3) .timedOut ∧
    ∃ deadline, some 3 = some deadline ∧ deadline ≤ s.now := by
  obtain ⟨s, hs, hp⟩ := Transition.exists_reachableBy_of_runBy system Prompt (s := initial) rfl
    ([.take (.worker 0) .pop, .loop (.worker 0)] ++ [.begin true, .next, .next, .next, .next, .next,
      .waitSuspended (some 3), .next, .next].map (.code (.worker 0)) ++
      -- the timer fires
      [.loop (.worker 0), .tick, .tick, .tick, .take (.worker 0) (.timers 3), .loop (.worker 0)] ++
      List.replicate 5 (.op (.worker 0) false) ++ [.loop (.worker 0), .take (.worker 0) .pop, .loop (.worker 0),
      .code (.worker 0) (.removeTimer true), .code (.worker 0) .next])
    (fun s => decide ((s.tasks 1).code = .reported ⟨1, true⟩ (some 3) .timedOut)) (by decide)
  have hcode := of_decide_eq_true hp
  exact ⟨s, hs, hcode, (reported_reason_of_prompt hs hcode).2.2.1 rfl⟩

/-- A canceller claims `main!`'s first wait; `park` sees the claim and returns, and the task
begins a wait cancelling must not end; only now does the canceller store its reason, which that
second wait then reports. -/
theorem stale_reason_reported : ∃ s, Transition.Reachable system s ∧
    ∃ w, w.cancellable = false ∧ (s.tasks 1).code = .reported w none .cancelled := by
  obtain ⟨s, hs, hp⟩ := Transition.exists_reachable_of_run system (s := initial) rfl
    [.take (.worker 0) .pop, .loop (.worker 0),
      -- `waker()`: the first wait, cancellable
      .code (.worker 0) (.begin true), .code (.worker 0) .next, .code (.worker 0) .next,
      .code (.worker 0) .next, .code (.worker 0) .next, .code (.worker 0) .next,
      -- a plain thread cancels the task, as far as the compare-exchange of `wake`
      .call (.plain 0) (.cancel 1), .op (.plain 0) false, .op (.plain 0) false,
      .op (.plain 0) false, .op (.plain 0) false,
      -- `park` returns at once, the wait having been claimed
      .code (.worker 0) (.park none), .code (.worker 0) .next, .code (.worker 0) .next,
      .code (.worker 0) .next,
      -- `waker_uncancellable()`: the second wait
      .code (.worker 0) (.begin false), .code (.worker 0) .next, .code (.worker 0) .next,
      .code (.worker 0) .next, .code (.worker 0) .next,
      -- the canceller stores its reason and schedules the task, still running
      .op (.plain 0) false, .op (.plain 0) false, .op (.plain 0) false,
      -- `park` suspends, the worker puts the task back on its queue and resumes it
      .code (.worker 0) (.park none), .code (.worker 0) .next, .code (.worker 0) .next,
      .code (.worker 0) .next, .loop (.worker 0), .loop (.worker 0), .loop (.worker 0),
      .take (.worker 0) .pop, .loop (.worker 0), .code (.worker 0) (.removeTimer true),
      .code (.worker 0) .next]
    (fun s => decide ((s.tasks 1).code = .reported ⟨2, false⟩ none .cancelled)) (by decide)
  exact ⟨s, hs, ⟨2, false⟩, rfl, of_decide_eq_true hp⟩

end RocNet.Sched
