import RocNet.Model.Handles

/-!
# What becomes of a failed task's error

A failed task decides once, in `task_finish`, whether it will log its error: if it has a handle then, it leaves the
error to whoever joins. A handle dropped unjoined later takes the error with it.
-/

namespace RocNet.Handles

open Function Option Transition State

variable {s s' : State} {t u c e : ℕ} {l : Label} {k : Code}

/-! ## The condition -/

def State.error (s : State) (t : ℕ) : Option ℕ :=
  match s.code t with
  | .storing (.err e) _ | .reporting (.err e) _ | .logging e => some e
  | .returned | .finished =>
    match s.result t with
    | some (.err e) => some e
    | _ => none
  | _ => none

/-- The last handle of a failed task is not dropped after `task_finish` has counted it, unless the
task was cancelled or a join has returned the error. -/
def Kept (s : State) : Label → Prop
  | .dropHandle t => s.error t = none ∨ s.cancelled t = true ∨ s.joined t = true
  | _ => True

instance (s : State) (l : Label) : Decidable (Kept s l) := by
  cases l <;> unfold Kept <;> infer_instance

/-! ## The invariant -/

/-- Nobody has to log the error of `t`: it can still be joined, or was, or the task was cancelled. -/
def Awaited (s : State) (t : ℕ) : Prop :=
  s.handles t ≠ 0 ∨ s.cancelled t = true ∨ s.joined t = true

/-- What the decision amounts to, by where the task's code stands. -/
def Accounts (s : State) (t : ℕ) : Code → Prop
  | .storing r watched => watched = true → r.isErr = true → Awaited s t
  | .reporting r watched =>
    s.result t = some r ∧ (watched = true → r.isErr = true → Awaited s t)
  | .logging e => s.result t = some (.err e)
  | .returned | .finished => ∀ e, s.result t = some (.err e) → failure t e ∈ s.log ∨ Awaited s t
  | .unborn | .body | .finishing _ => True

/-- A task whose result did not change, nor its way to be heard of. -/
theorem Accounts.mono (h : Accounts s t k) (hresult : s'.result t = s.result t)
    (hlog : ∀ x ∈ s.log, x ∈ s'.log) (hawaited : Awaited s t → Awaited s' t) : Accounts s' t k := by
  cases k with
  | storing r watched => exact fun hw hr => hawaited (h hw hr)
  | reporting r watched => exact ⟨hresult.trans h.1, fun hw hr => hawaited (h.2 hw hr)⟩
  | logging e => exact hresult.trans h
  | returned | finished =>
    intro e he
    rw [hresult] at he
    exact (h e he).imp (hlog _) hawaited
  | unborn | body | finishing r => trivial

section

variable (h : ∀ u, Accounts s u (s.code u))

include h

/-- **The rule for a step of a task's own code.** Nothing changes for the other tasks. -/
theorem accounts_setCode (hk : Accounts s t k) : ∀ u, Accounts (s.setCode t k) u ((s.setCode t k).code u) := by
  intro u
  have hsame : ∀ {j : Code}, Accounts s u j → Accounts (s.setCode t k) u j :=
    fun hj => hj.mono rfl (fun _ hx => hx) fun hw => hw
  obtain rfl | hu := eq_or_ne u t
  · rw [setCode_code, update_self]
    exact hsame hk
  · rw [setCode_code, update_of_ne hu]
    exact hsame (h u)

/-- **The rule for everything else.** No task's code changes. -/
theorem accounts_of_code_eq (hcode : s'.code = s.code) (hresult : s'.result = s.result) (hlog : s'.log = s.log)
    (hawaited : ∀ u, Awaited s u → Awaited s' u) : ∀ u, Accounts s' u (s'.code u) := by
  intro u
  rw [hcode]
  apply (h u).mono
  · rw [hresult]
  · rw [hlog]
    exact fun _ hx => hx
  · exact hawaited u

/-! ## The steps -/

lemma accounts_setResult (hcode : s.code t = .storing r watched) :
    ∀ u, Accounts (s.setResult t r) u ((s.setResult t r).code u) := by
  intro u
  have hu := h u
  rw [setResult_code]
  obtain rfl | hut := eq_or_ne u t
  · rw [hcode] at hu ⊢
    exact hu
  · apply hu.mono
    · rw [setResult_result, update_of_ne hut]
    · exact fun _ hx => hx
    · exact fun hw => hw

lemma accounts_run (hrun : run s t = some s') : ∀ u, Accounts s' u (s'.code u) := by
  have ht := h t
  unfold run at hrun
  split at hrun
  · next r hcode =>
    -- the count is read: with no handle left, the task will not count on anyone
    cases hrun
    apply accounts_setCode h
    intro hwatched _
    unfold State.hasHandles at hwatched
    exact .inl (by simpa [Nat.pos_iff_ne_zero] using hwatched)
  · next r watched hcode =>
    cases hrun
    rw [hcode] at ht
    apply accounts_setCode (accounts_setResult h hcode)
    exact ⟨by simp, ht⟩
  · next r watched hcode =>
    rw [hcode] at ht
    split at hrun
    · next hreport =>
      split at hrun
      · cases hrun
        apply accounts_setCode h
        intro e he
        rw [ht.1] at he
        cases he
      · next e =>
        cases hrun
        exact accounts_setCode h ht.1
    · next hquiet =>
      cases hrun
      apply accounts_setCode h
      intro e he
      right
      by_cases hwatched : watched = true
      · apply ht.2 hwatched
        rw [ht.1] at he
        cases he
        rfl
      · -- not logged although nobody watched: the task was cancelled
        right
        left
        by_contra hcancelled
        exact hquiet (by simp [hwatched, hcancelled])
  · next e hcode =>
    cases hrun
    rw [hcode] at ht
    have hwrite : ∀ u, Accounts (s.write (failure t e)) u ((s.write (failure t e)).code u) := by
      intro u
      exact (h u).mono rfl (fun _ hx => List.mem_append_left _ hx) fun hw => hw
    apply accounts_setCode hwrite
    intro e' he'
    have hee : s.result t = some (.err e') := he'
    rw [ht] at hee
    cases hee
    left
    simp
  · cases hrun

lemma accounts_dropHandle (hkept : Kept s (.dropHandle t)) :
    ∀ u, Accounts (s.dropHandle t) u ((s.dropHandle t).code u) := by
  intro u
  have hu := h u
  rw [dropHandle_code]
  obtain rfl | hut := eq_or_ne u t
  · unfold Kept State.error at hkept
    rcases hkept with hnone | hawaited
    · -- a task without an error has nothing to account for
      cases hcode : s.code u with
      | storing r watched =>
        rw [hcode] at hnone
        cases r with
        | ok => exact fun _ hr => nomatch hr
        | err e => cases hnone
      | reporting r watched =>
        rw [hcode] at hnone hu
        cases r with
        | ok => exact ⟨hu.1, fun _ hr => nomatch hr⟩
        | err e => cases hnone
      | logging e =>
        rw [hcode] at hnone
        cases hnone
      | returned | finished =>
        rw [hcode] at hnone
        intro e he
        rw [dropHandle_result] at he
        simp [he] at hnone
      | unborn | body | finishing r => trivial
    · exact hu.mono rfl (fun _ hx => hx) fun _ => .inr hawaited
  · refine hu.mono rfl (fun _ hx => hx) ?_
    intro hw
    unfold Awaited
    rw [dropHandle_handles, update_of_ne hut]
    exact hw

lemma accounts_step (hkept : Kept s l) (hstep : step s l = some s') : ∀ u, Accounts s' u (s'.code u) := by
  cases l with
  | spawn t =>
    obtain ⟨hcode, rfl⟩ := of_guard hstep
    intro u
    obtain rfl | hut := eq_or_ne u t
    · rw [spawn_code, update_self]
      trivial
    · rw [spawn_code, update_of_ne hut]
      refine (h u).mono rfl (fun _ hx => hx) ?_
      intro hw
      unfold Awaited
      rw [spawn_handles, update_of_ne hut]
      exact hw
  | copy t | release t =>
    obtain ⟨-, rfl⟩ := of_guard hstep
    exact accounts_of_code_eq h rfl rfl rfl fun _ hw => hw
  | dropHandle t =>
    obtain ⟨-, rfl⟩ := of_guard hstep
    exact accounts_dropHandle h hkept
  | cancel t =>
    cases hstep
    refine accounts_of_code_eq h rfl rfl rfl ?_
    intro u hw
    obtain rfl | hut := eq_or_ne u t
    · exact .inr (.inl (by simp))
    · unfold Awaited
      rw [setCancelled_cancelled, update_of_ne hut]
      exact hw
  | finish t r =>
    obtain ⟨-, rfl⟩ := of_guard hstep
    exact accounts_setCode h trivial
  | run t => exact accounts_run h hstep
  | mark t =>
    obtain ⟨hcode, rfl⟩ := of_guard hstep
    have ht := h t
    rw [hcode] at ht
    exact accounts_setCode h ht
  | join c t | leave c =>
    simp only [step] at hstep
    split at hstep
    · cases hstep
      exact accounts_of_code_eq h rfl rfl rfl fun _ hw => hw
    · cases hstep
  | wait c b =>
    simp only [step] at hstep
    split at hstep
    · split at hstep
      · cases hstep
        exact accounts_of_code_eq h rfl rfl rfl fun _ hw => hw
      · obtain ⟨-, rfl⟩ := of_guard hstep
        exact accounts_of_code_eq h rfl rfl rfl fun _ hw => hw
    · cases hstep
  | read c =>
    simp only [step] at hstep
    split at hstep
    · next t _ =>
      cases hstep
      split
      · refine accounts_of_code_eq h rfl rfl rfl ?_
        intro u hw
        obtain rfl | hut := eq_or_ne u t
        · exact .inr (.inr (by simp))
        · unfold Awaited
          rw [setJoin_joined, setJoined_joined, update_of_ne hut]
          exact hw
      · exact accounts_of_code_eq h rfl rfl rfl fun _ hw => hw
    · cases hstep

end

lemma accounts_of_reachable (h : ReachableBy system Kept s) : ∀ u, Accounts s u (s.code u) := by
  apply ReachableBy.invariant (I := fun r => ∀ u, Accounts r u (r.code u)) _ _ h
  · intro r hr u
    obtain rfl : r = initial := hr
    trivial
  · intro r l r' hkept hr hstep
    exact accounts_step hr hkept hstep

/-! ## The result -/

/-- **No error is lost while handles are kept.** In every run in which the last handle of a failed
task is not dropped unjoined after `task_finish` counted it: once a task that was not cancelled has
ended with an error and all its handles are gone, either a join has returned the error or it is in
the log. -/
theorem error_logged_unless_joined (h : Transition.ReachableBy system Kept s)
    (hended : s.code t = .returned ∨ s.code t = .finished) (herror : s.result t = some (.err e))
    (hcancelled : s.cancelled t = false) (hreleased : s.handles t = 0)
    (hjoined : s.joined t = false) : failure t e ∈ s.log := by
  have hacc := accounts_of_reachable h t
  have hout : failure t e ∈ s.log ∨ Awaited s t := by
    rcases hended with hcode | hcode
    · rw [hcode] at hacc
      exact hacc e herror
    · rw [hcode] at hacc
      exact hacc e herror
  rcases hout with hlogged | hkept | hflag | hflag
  · exact hlogged
  · exact absurd hreleased hkept
  · rw [hcancelled] at hflag
    cases hflag
  · rw [hjoined] at hflag
    cases hflag

/-- A task whose handle is released first: it logs its error. -/
theorem error_logged_unless_joined_detached : ∃ s, Transition.ReachableBy system Kept s ∧
    s.code 1 = .finished ∧ s.handles 1 = 0 ∧ s.joined 1 = false ∧ failure 1 7 ∈ s.log := by
  have hrun : (runBy system Kept initial [.spawn 1, .release 1, .dropHandle 1,
      .finish 1 (.err 7), .run 1, .run 1, .run 1, .run 1, .mark 1]).isSome = true := by decide
  have hreach := ReachableBy.of_runBy (.start rfl) (some_get hrun).symm
  refine ⟨_, hreach, rfl, rfl, rfl, ?_⟩
  exact error_logged_unless_joined hreach (.inr rfl) rfl rfl rfl rfl

/-- A handle that is kept past the task's end and then released unjoined: task 1 fails with error 7
while its handle exists, so it does not log; then the handle goes, and with it the error. -/
theorem error_lost_with_late_handle : ∃ s, Transition.Reachable system s ∧
    s.code 1 = .finished ∧ s.result 1 = some (.err 7) ∧ s.cancelled 1 = false ∧ s.handles 1 = 0 ∧
    s.joined 1 = false ∧ s.log = [] := by
  have hrun : (Transition.run system initial [.spawn 1, .finish 1 (.err 7), .run 1, .run 1, .run 1,
      .mark 1, .release 1, .dropHandle 1]).isSome = true := by decide
  exact ⟨_, Reachable.of_run (.start rfl) (some_get hrun).symm, rfl, rfl, rfl, rfl, rfl, rfl⟩

end RocNet.Handles
