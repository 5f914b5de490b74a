import RocNet.Analysis.SelectEntries

/-!
# Nothing of a wait survives it

Every entry registered under a wait id (with a socket, a timer, or a list of wakers) belongs to a wait whose task is
still in it or cleaning up after it, unless a socket could not be re-armed or a timer not found.
-/

namespace RocNet.Select

open Function List Option State
open Sockets (Watched Owned Listed)
open Transition

variable {kind : ℕ → Kind} {s s' : State} {l : Label} {t u w : ℕ} {k : Sockets.Label}
  {x : Sockets.State}

/-! ## Wait ids -/

/-- Every task is in a wait of its own. -/
structure Sole (s : State) : Prop where
  issued : ∀ t w, s.current t = some w → w < s.sock.nextWait
  distinct : ∀ t u w, s.current t = some w → s.current u = some w → t = u

/-- A task's wait was its own before, or it has just begun. -/
theorem current_back (h : Tidy s) (hcode : Sockets.Step s.sock k x) (hw : s'.current u = some w) (hsock : s'.sock = x)
    (hcall : (s'.call u).map Call.wait = (s.call u).map Call.wait) :
    s.current u = some w ∨ (x.code u).own = some w ∧ w = s.sock.nextWait ∧ x.nextWait = s.sock.nextWait + 1 := by
  unfold State.current at hw
  rw [hsock] at hw
  cases hown : (x.code u).own with
  | some v =>
    rw [hown] at hw
    obtain rfl : v = w := Option.some.inj hw
    rcases hcode.own_back hown with hold | ⟨hv, hnext⟩
    · exact .inl (current_of_own hold)
    · exact .inr ⟨rfl, hv, hnext⟩
  | none =>
    rw [hown, none_or, hcall] at hw
    obtain ⟨q, hq, rfl⟩ := map_eq_some_iff.mp hw
    exact .inl (h.current_of_call hq)

lemma map_wait_setCall (hcall : s.call t = some q) (hwait : q'.wait = q.wait) :
    (update s.call t (some q') u).map Call.wait = (s.call u).map Call.wait := by
  obtain rfl | hut := eq_or_ne u t
  · rw [update_self, hcall]
    exact congrArg some hwait
  · rw [update_of_ne hut]

/-- **The rule for wait ids.** -/
theorem Sole.of_back (h : Sole s) (ho : Owned s.sock) (hcode : Sockets.Step s.sock k x) (hsock : s'.sock = x)
    (hback : ∀ u w, s'.current u = some w → s.current u = some w ∨
      (x.code u).own = some w ∧ w = s.sock.nextWait ∧ x.nextWait = s.sock.nextWait + 1) : Sole s' := by
  obtain ⟨v, hv⟩ := hcode.code_of_ne
  have hle := hcode.nextWait_le
  -- only the task that took the step can be in a wait that has just begun
  have hself : ∀ y, (x.code y).own = some s.sock.nextWait → y = v := by
    intro y hy
    by_contra hne
    rw [hv y hne] at hy
    exact lt_irrefl _ (ho.issued y _ hy).2
  refine ⟨fun t w ht => ?_, fun t u w ht hu => ?_⟩
  · rw [hsock]
    rcases hback t w ht with hold | ⟨-, rfl, hnext⟩
    · exact lt_of_lt_of_le (h.issued t w hold) hle
    · omega
  · rcases hback t w ht with hold | ⟨hown, rfl, -⟩
    · rcases hback u w hu with hold' | ⟨-, rfl, -⟩
      · exact h.distinct t u w hold hold'
      · exact absurd (h.issued t _ hold) (lt_irrefl _)
    · rcases hback u _ hu with hold' | ⟨hown', -, -⟩
      · exact absurd (h.issued u _ hold') (lt_irrefl _)
      · rw [hself t hown, hself u hown']

lemma Sole.of_current (h : Sole s) (hsock : s'.sock = s.sock)
    (hcurrent : ∀ u w, s'.current u = some w → s.current u = some w) : Sole s' := by
  refine ⟨fun t w ht => ?_, fun t u w ht hu => ?_⟩
  · rw [hsock]
    exact h.issued t w (hcurrent t w ht)
  · exact h.distinct t u w (hcurrent t w ht) (hcurrent u w hu)

lemma Sole.of_calls (h : Sole s) (hsock : s'.sock = s.sock)
    (hcalls : ∀ u, (s'.call u).map Call.wait = (s.call u).map Call.wait) : Sole s' := by
  refine h.of_current hsock fun u w hw => ?_
  unfold State.current at hw ⊢
  rwa [hsock, hcalls u] at hw

lemma Sole.step (h : Sole s) (hg : Tidy s) (ho : Owned s.sock) (hstep : Step s l s') : Sole s' := by
  cases hstep with
  | sock hpasses hx =>
    have hcode := Sockets.step_cases hx
    exact h.of_back ho hcode rfl fun u w hw => current_back hg hcode hw rfl rfl
  | @waitAny t sources x hcall hx =>
    have hcode := Sockets.step_cases hx
    refine h.of_back ho hcode rfl fun u w hw => ?_
    obtain rfl | hut := eq_or_ne u t
    · -- the new call has the wait that has just begun
      have hopened := (code_of_beginMultiWait hx).2
      have hown : (x.code u).own = some s.sock.nextWait := by rw [hopened]; rfl
      rw [current_of_own hown] at hw
      cases hw
      rcases hcode.own_back hown with hold | ⟨-, hnext⟩
      · exact absurd (ho.issued u _ hold).2 (lt_irrefl _)
      · exact .inr ⟨hown, rfl, hnext⟩
    · refine current_back hg hcode hw rfl ?_
      rw [setCall_call, update_of_ne hut]
      rfl
  | goOn hcall htiming hwait hregistered | enlist hcall htiming hwait hregistered
  | remove hcall htiming hwait hregistered =>
    exact h.of_calls rfl fun u => map_wait_setCall hcall hwait
  | multi hcall htiming hwait hregistered hx hk =>
    have hcode := Sockets.step_cases hx
    refine h.of_back ho hcode rfl fun u w hw => ?_
    exact current_back hg hcode hw rfl (map_wait_setCall hcall hwait)
  | @suspend t w x hsuspending hx =>
    have hcode := Sockets.step_cases hx
    refine h.of_back ho hcode rfl fun u w hw => current_back hg hcode hw rfl ?_
    rw [setCall_call]
    obtain rfl | hut := eq_or_ne u t
    · rw [update_self, Option.map_map]
      rfl
    · rw [update_of_ne hut]
      rfl
  | @returned t q hcall hcode hregistered =>
    refine h.of_current rfl fun u w hw => ?_
    unfold State.current at hw ⊢
    obtain rfl | hut := eq_or_ne u t
    · rw [setCall_call, update_self, setCall_sock, hcode] at hw
      cases hw
    · rwa [setCall_call, update_of_ne hut] at hw
  | setTimer _ _ | fire | wakeFrom => exact h.of_current rfl fun _ _ hw => hw
  | clearTimer htimer => exact h.of_calls (by simp) fun u => by simp

/-! ## The result -/

/-- Something is registered under a wait id. -/
def Left (s : State) (w : ℕ) : Prop :=
  (∃ S, ∃ e ∈ s.sock.waiters S, e.wait = w) ∨ (∃ a, ∃ e ∈ s.timers a, e.wait = w) ∨
    ∃ p, ∃ e ∈ (s.lists p).list, e.2.2 = w

lemma Step.sockets (hstep : Step s l s') : s'.sock = s.sock ∨ ∃ k, Sockets.Step s.sock k s'.sock ∧
      (Undoes s l → Sockets.Rearms s.sock k) := by
  cases hstep with
  | sock hpasses hx => exact .inr ⟨_, Sockets.step_cases hx, fun hr => hr⟩
  | waitAny hcall hx | suspend hsuspending hx => exact .inr ⟨_, Sockets.step_cases hx, fun _ => rfl⟩
  | multi hcall htiming hwait hregistered hx hk =>
    refine .inr ⟨_, Sockets.step_cases hx, fun _ => ?_⟩
    rcases hk with ⟨S, d, rfl⟩ | rfl
    · rfl
    · rfl
  | clearTimer htimer => exact .inl (by simp)
  | _ => exact .inl rfl

/-- What holds of every state reached by waits that undo what they should. -/
structure Kept (s : State) : Prop where
  watched : Watched s.sock
  owned : Owned s.sock
  listed : Listed s.sock
  tidy : Tidy s
  sole : Sole s

lemma Kept.step (h : Kept s) (hundoes : Undoes s l) (hstep : Step s l s') : Kept s' := by
  have htidy := h.tidy.step hundoes hstep
  have hsole := h.sole.step h.tidy h.owned hstep
  rcases hstep.sockets with heq | ⟨k, hk, hkrearms⟩
  · exact ⟨heq ▸ h.watched, heq ▸ h.owned, heq ▸ h.listed, htidy, hsole⟩
  · exact ⟨h.watched.step hk, h.owned.step hk, h.listed.step h.watched (hkrearms hundoes) hk, htidy, hsole⟩

lemma kept_of_reachable (h : ReachableBy (system kind) Undoes s) : Kept s := by
  apply ReachableBy.invariant (I := Kept) _ _ h
  · intro r hr
    obtain rfl : r = initial := hr
    refine ⟨Sockets.watched_initial, Sockets.owned_initial, Sockets.listed_initial, tidy_initial, ?_⟩
    refine ⟨fun _ _ hw => ?_, fun _ _ _ hw => ?_⟩
    · cases hw
    · cases hw
  · intro r l r' hundoes hr hstep
    exact hr.step hundoes (step_cases hstep)

lemma Kept.current_of_left (h : Kept s) (hleft : Left s w) : ∃ t, s.current t = some w := by
  rcases hleft with ⟨S, e, he, rfl⟩ | ⟨a, e, he, rfl⟩ | ⟨p, e, he, rfl⟩
  · exact ⟨e.task, current_of_own (Sockets.own_of_covers (h.listed.entries S e he))⟩
  · have htimer := h.tidy.timers a e he
    exact ⟨e.task, current_of_own (own_of_timing (h.tidy.timed _ _ _ _ htimer))⟩
  · obtain ⟨q, hq, hwait, -⟩ := h.tidy.lists p e he
    exact ⟨e.2.1, hwait ▸ h.tidy.current_of_call hq⟩

/-- **Nothing of a wait survives it.** In every run of tasks in `wait_io` and `wait_any` in which re-arming a
socket does not fail and no task comes out of its suspension on a worker that is not entered yet, with its timer
still set there: a wait id is that of one task's operation, and once that has returned, however it ended, no
socket, timer or list of wakers has an entry under it. -/
theorem wait_leaves_nothing (h : Transition.ReachableBy (system kind) Undoes s) (w : ℕ) :
    (∀ t u, s.current t = some w → s.current u = some w → t = u) ∧ ((∀ t, s.current t ≠ some w) → ¬ Left s w) := by
  have hkept := kept_of_reachable h
  refine ⟨fun t u => hkept.sole.distinct t u w, fun hover hleft => ?_⟩
  obtain ⟨t, ht⟩ := hkept.current_of_left hleft
  exact hover t ht

/-- The sockets of the runs below are TLS streams. -/
def onlyTls : ℕ → Kind := fun _ => .tls

/-- A `Select` of task 1 on standard input and a TLS stream that also wants to write: it registers with
both, sets a timer, sleeps, is woken by the timer and cleans up. -/
def timedOutSelect : List Label :=
  [.sock (.resume 1 0), .waitAny 1 [.stdinLine, .readable 5], .watch 1 false, .watch 1 false,
    .check 1 false true, .addIo 1, .sock (.watch 1 true), .sock (.watch 1 true),
    .sock (.watch 1 true), .addIo 1, .sock (.watch 1 true), .setTimer 1 9, .suspend 1, .fire 0 10,
    .sock (.claim 1), .sock (.resume 1 0), .clearTimer 1, .sock (.forget 1), .sock (.forget 1),
    .sock (.forget 1), .unwatch 1, .unwatch 1, .unwatch 1]

/-- A `select!` that times out leaves nothing of its wait. -/
theorem wait_leaves_nothing_timedOut : ∃ s, Transition.ReachableBy (system onlyTls) Undoes s ∧
    s.sock.nextWait = 2 ∧ ¬ Left s 1 := by
  have hrun : (runBy (system onlyTls) Undoes initial timedOutSelect).isSome := by
    decide
  have hreach := ReachableBy.of_runBy (.start rfl) (some_get hrun).symm
  refine ⟨_, hreach, rfl, (wait_leaves_nothing hreach 1).2 ?_⟩
  exact fun
    | 0 | 1 | _ + 2 => nofun

/-- A failed re-arm: task 1 waits on socket 5 from worker 0; task 2 waits on it from worker 1, whose
`watch_io` adds its waiter and then fails to re-arm the socket in worker 0's queue. Its `wait_io`
returns the error, and its waiter stays. -/
def failedRearm : List Label :=
  [.sock (.publish 1), .sock (.resume 1 0), .sock (.attempt 1 5 false false),
    .sock (.waitIo 1 5 false), .sock (.watch 1 true), .sock (.watch 1 true), .sock (.watch 1 true),
    .suspend 1, .sock (.resume 2 1), .sock (.attempt 2 5 false false), .sock (.waitIo 2 5 false),
    .sock (.watch 2 true), .sock (.watch 2 false)]

/-- After `failedRearm` task 2 is in no wait, and its waiter is still on socket 5. -/
theorem failed_rearm_leaves_waiter : ∃ s, Transition.Reachable (system onlyTls) s ∧
    (∀ t, s.current t ≠ some 2) ∧ ⟨2, 2, false⟩ ∈ s.sock.waiters 5 ∧ Left s 2 := by
  have hrun : (run (system onlyTls) initial failedRearm).isSome := by decide
  have hreach := Reachable.of_run (.start rfl) (some_get hrun).symm
  refine ⟨_, hreach, ?_, mem_cons_of_mem _ mem_cons_self, .inl ⟨5, _, mem_cons_of_mem _ mem_cons_self, rfl⟩⟩
  exact fun
    | 0 | 1 | 2 | _ + 3 => nofun

/-- Task 1 runs on worker 1, which its starter has yet to enter, and sets a timer there; woken by a line of standard
input, it comes out of `wait_suspended` before the timer fires. -/
def unenteredWorker : List Label :=
  [.sock (.resume 1 1), .waitAny 1 [.stdinLine], .watch 1 false, .setTimer 1 9, .suspend 1, .wakeFrom .stdin 0,
    .sock (.claim 1), .sock (.resume 1 0), .clearTimer 1, .sock (.forget 1), .unwatch 1, .unwatch 1]

/-- The timer stays although the wait is over: it is not looked for on a worker that is not entered yet. -/
theorem unentered_worker_leaves_timer : ∃ s, Transition.Reachable (system onlyTls) s ∧
    (∀ t, s.current t ≠ some 1) ∧ ⟨9, 1, 1⟩ ∈ s.timers 1 ∧ Left s 1 := by
  have hrun : (run (system onlyTls) initial unenteredWorker).isSome := by decide
  have hreach := Reachable.of_run (.start rfl) (some_get hrun).symm
  refine ⟨_, hreach, ?_, mem_cons_self, .inr (.inl ⟨1, _, mem_cons_self, rfl⟩)⟩
  exact fun
    | 0 | 1 | _ + 2 => nofun

end RocNet.Select
