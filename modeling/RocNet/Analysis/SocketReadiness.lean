import RocNet.Analysis.SocketEvents

/-!
# No socket readiness is missed

In runs in which every `add_io` is called after the operation failed with `WouldBlock`, as `wait_io` is, every
waiter's task knows the operation to block (`Attempted`), and so has an event coming.
-/

namespace RocNet.Sockets

open Function List Option Transition State

variable {s s' : State} {t S : ℕ} {d : Bool} {l : Label}

/-! ## Runs in which every operation is tried first -/

/-- `add_io` is called only after the operation failed with `WouldBlock` since the task was last
resumed, as `wait_io` is. -/
def Tried (s : State) : Label → Prop
  | .addIo t S d => (S, d) ∈ s.tried t
  | _ => True

instance (s : State) (l : Label) : Decidable (Tried s l) := by
  cases l with
  | addIo t S d => exact inferInstanceAs (Decidable ((S, d) ∈ s.tried t))
  | _ => exact instDecidableTrue

/-- A task that enters `watch_io` knows the operation to block, and so do the tasks of the waiters. -/
structure Attempted (s : State) : Prop where
  entering : ∀ t k, s.code t = .entering k → (k.socket, k.writable) ∈ s.tried t
  waiters : ∀ S, ∀ x ∈ s.waiters S, (s.code x.task).wait = some x.wait → (S, x.writable) ∈ s.tried x.task

@[simp]
lemma added_ne_entering {k k' : Watch} : k.added ≠ .entering k' := by
  unfold Watch.added
  split <;> exact nofun

@[simp]
lemma refused_ne_entering {k k' : Watch} : k.refused ≠ .entering k' := by
  unfold Watch.refused
  split <;> exact nofun

/-- A task that enters `watch_io` was there already, or just called it. -/
theorem Step.entering_back {k : Watch} (h : Step s l s') (hok : Tried s l) (hcode : s'.code t = .entering k) :
    s.code t = .entering k ∨ (k.socket, k.writable) ∈ s.tried t := by
  cases h with
  | @task u a l s' hon h =>
    obtain rfl | ht := eq_or_ne t u
    · cases h with
      | yield _ | succeed _ _ | block _ _ => exact .inl hcode
      | waitIo _ htried =>
        simp only [setCode_code, update_self] at hcode
        cases hcode
        exact .inr htried
      | addIo _ =>
        simp only [setCode_code, update_self] at hcode
        cases hcode
        exact .inr hok
      | _ => simp [State.begin] at hcode
    · obtain ⟨c, hupdate, -⟩ := h.nextCode
      rw [hupdate, update_of_ne ht] at hcode
      exact .inl hcode
  | @resume u a hact hon =>
    obtain rfl | ht := eq_or_ne t u
    · simp only [setAct_code, setOn_code, setCode_code, update_self] at hcode
      revert hcode
      cases s.code t with
      | asleep w io => exact fun hcode => by cases hcode
      | _ => exact fun hcode => .inl hcode
    · exact .inl (by simpa [ht] using hcode)
  | _ => exact .inl hcode

lemma Attempted.step (h : Attempted s) (hw : Watched s) (hok : Tried s l) (hstep : Step s l s') : Attempted s' := by
  refine ⟨fun t k hcode => ?_, fun S x hx hwait => ?_⟩
  · refine hstep.tried_subset hw (by rw [hcode]; rfl) ?_
    exact (hstep.entering_back hok hcode).elim (h.entering t k) id
  · refine hstep.tried_subset hw hwait ?_
    rcases hstep.waiters_back hx with hmem | ⟨k, hcode, rfl, hself⟩
    · rcases hstep.wait_back hwait with hold | hnew
      · exact h.waiters S x hmem hold
      · exact absurd (hw.fresh S x hmem) (hnew ▸ Nat.lt_irrefl _)
    · rw [hself]
      exact h.entering x.task k hcode

lemma attempted_of_reachable (h : ReachableBy system Tried s) : Reachable system s ∧ Attempted s := by
  induction h with
  | start hinit =>
    cases hinit
    refine ⟨.start rfl, ⟨fun t k hcode => ?_, fun S x hx => ?_⟩⟩
    · cases hcode
    · cases hx
  | next _ hok hstep ih =>
    refine ⟨.next ih.1 trivial hstep, ?_⟩
    exact ih.2.step (readiness_of_reachable ih.1).watched hok (step_cases hstep)

/-- **No readiness is missed.** In every run in which `add_io`, as `wait_io`, is called after the
operation failed with `WouldBlock` since the task was resumed: if a task sleeps unclaimed on a
direction of a socket that is ready, an event for it is pending at the socket's owner, or collected
by a worker that has not finished waking the waiters. -/
theorem sleeper_pending_or_handled (h : Transition.ReachableBy system Tried s) (hsleeps : Sleeps s t S d)
    (hready : s.ready S d = true) : PendingAtOwner s S d ∨ Handling s S d := by
  obtain ⟨hreach, hattempted⟩ := attempted_of_reachable h
  obtain ⟨w, io, hcode⟩ := hsleeps.suspended
  have hwait : (s.code t).wait = some (s.wait t) := by
    rw [hcode, hsleeps.unclaimed w io hcode]
    rfl
  have htried := hattempted.waiters S _ hsleeps.registered hwait
  exact (readiness_of_reachable hreach).sleeper hsleeps htried hready

/-- Task 2 tries socket 5, waits, and is suspended; then the socket becomes readable. -/
def sleeper : List Label :=
  [.resume 2 0, .attempt 2 5 false false, .waitIo 2 5 false, .watch 2 true, .watch 2 true,
    .watch 2 true, .suspend 2, .rise 5 false]

/-- After `sleeper` task 2 sleeps on a ready socket, whose event is pending. -/
theorem sleeper_pending_or_handled_pending : ∃ s, Transition.ReachableBy system Tried s ∧
    Sleeps s 2 5 false ∧ s.ready 5 false = true ∧ (PendingAtOwner s 5 false ∨ Handling s 5 false) := by
  have hrun : (runBy system Tried initial sleeper).isSome := by decide
  have hreach := ReachableBy.of_runBy (.start rfl) (some_get hrun).symm
  have hsleeps : Sleeps ((runBy system Tried initial sleeper).get hrun) 2 5 false := by
    refine ⟨⟨1, [5], rfl⟩, mem_singleton.mpr rfl, fun w io hcode => ?_⟩
    cases hcode
    rfl
  exact ⟨_, hreach, hsleeps, rfl, sleeper_pending_or_handled hreach hsleeps rfl⟩

/-- The worker handles that event and wakes task 2, then runs task 1, which adds socket 5 to a
`MultiWait` without having tried it, and sleeps: the worker is the socket's owner, so nothing is
re-armed. -/
def untried : List Label :=
  sleeper ++ [.collect 0 [⟨5, true, false⟩], .handle 0, .wake 0, .wake 0, .handle 0, .resume 1 0,
    .beginMultiWait 1, .addIo 1 5 false, .watch 1 true, .suspend 1]

/-- After `untried` task 1 sleeps on a ready socket, with no event pending or being handled. -/
theorem untried_waiter_missed : ∃ s, Transition.Reachable system s ∧ Sleeps s 1 5 false ∧
    s.ready 5 false = true ∧ ¬ PendingAtOwner s 5 false ∧ ¬ Handling s 5 false := by
  have hrun : (run system initial untried).isSome := by decide
  have hreach := Reachable.of_run (.start rfl) (some_get hrun).symm
  refine ⟨_, hreach, ⟨⟨2, [5], rfl⟩, mem_singleton.mpr rfl, fun w io hcode => ?_⟩, rfl, ?_, ?_⟩
  · cases hcode
    rfl
  · rintro ⟨a, -, hp⟩
    cases a <;> cases hp
  · rintro (⟨a, e, he, -⟩ | ⟨a, woken, todo, hact⟩)
    · cases a <;> cases he
    · cases a <;> cases hact

/-- Task 2 waits on socket 5 from worker 1, whose slot is not set yet; task 1's registration of the
socket with worker 0 fails, and leaves no owner recorded. -/
def ownerLost : List Label :=
  [.resume 2 1, .attempt 2 5 false false, .waitIo 2 5 false, .watch 2 true, .watch 2 true,
    .watch 2 true, .suspend 2, .resume 1 0, .attempt 1 5 false false, .waitIo 1 5 false,
    .watch 1 true, .watch 1 false, .watch 1 true, .rise 5 false]

lemma owner_lost_event_elsewhere : ∃ s, ReachableBy system Tried s ∧
    Sleeps s 2 5 false ∧ s.ready 5 false ∧ s.owner 5 = none ∧ s.pending 1 5 false := by
  have hrun : (runBy system Tried initial ownerLost).isSome := by decide
  have hreach := ReachableBy.of_runBy (.start rfl) (some_get hrun).symm
  refine ⟨_, hreach, ⟨⟨1, [5], rfl⟩, mem_singleton.mpr rfl, fun w io hcode => ?_⟩, rfl, rfl, rfl⟩
  cases hcode
  rfl

end RocNet.Sockets
