import RocNet.Analysis.SocketWaits

/-!
# Whose entries a socket's waiters are

Every entry of a socket's waiters belongs to a wait that its task is still in or has yet to clean up after, and the
task knows the socket (`Listed`). The exception is a failed re-arm, so the result is about runs in which re-arming
succeeds (`Rearms`).
-/

namespace RocNet.Sockets

open Function List

variable {s s' : State} {t a S w : ℕ} {c : Code} {l : Label} {x : IoWaiter}

/-- A call of `watch_io` fails to re-arm a socket in its owner's queue. -/
def failsToRearm (s : State) : Label → Bool
  | .watch t ok =>
    match s.code t with
    | .watching _ (.rearm _) => !ok
    | _ => false
  | _ => false

/-- No call of `watch_io` fails to re-arm. -/
def Rearms (s : State) (l : Label) : Prop := failsToRearm s l = false

instance (s : State) (l : Label) : Decidable (Rearms s l) := inferInstanceAs (Decidable (_ = _))

/-- The sockets whose waiters may have an entry of the wait `w` of a task with this code. -/
def Code.covers (c : Code) (S w : ℕ) : Prop :=
  match c with
  | .opened v io | .armed v io | .asleep v io | .failed v io | .forgetting v io => v = w ∧ S ∈ io
  | .entering k => k.wait = w ∧ S ∈ k.io
  | .watching k _ => k.wait = w ∧ (S ∈ k.io ∨ S = k.socket)
  | .free => False

/-- A call of `watch_io` for `wait_io` has no earlier sockets. -/
def Code.single : Code → Prop
  | .entering k | .watching k _ => k.multi = false → k.io = []
  | _ => True

structure Listed (s : State) : Prop where
  entries : ∀ S, ∀ x ∈ s.waiters S, (s.code x.task).covers S x.wait
  single : ∀ t, (s.code t).single

lemma own_of_covers (h : c.covers S w) : c.own = some w := by
  cases c with
  | free => exact h.elim
  | _ => exact congrArg some h.1

/-! ## What `watch_io` makes of the code -/

variable {k : Watch}

/-- `watch_io` succeeded: the socket is among those of the wait. -/
theorem covers_added (hsingle : k.multi = false → k.io = [])
    (h : S ∈ k.io ∨ S = k.socket) : k.added.covers S k.wait := by
  unfold Watch.added
  split
  · refine ⟨rfl, ?_⟩
    rcases h with h | h
    · exact mem_append_left _ h
    · exact mem_append_right _ (mem_singleton.mpr h)
  · next hmulti =>
    refine ⟨rfl, ?_⟩
    rcases h with h | h
    · rw [hsingle (Bool.eq_false_iff.mpr hmulti)] at h
      cases h
    · exact mem_singleton.mpr h

lemma covers_refused (hsingle : k.multi = false → k.io = []) (h : S ∈ k.io) : k.refused.covers S k.wait := by
  unfold Watch.refused
  split
  · exact ⟨rfl, h⟩
  · next hmulti =>
    rw [hsingle (Bool.eq_false_iff.mpr hmulti)] at h
    cases h

lemma single_added : k.added.single := by
  unfold Watch.added
  split <;> trivial

lemma single_refused : k.refused.single := by
  unfold Watch.refused
  split <;> trivial

/-! ## The steps -/

section Steps

variable (h : Listed s)
include h

/-- **The rule for a task's step.** The code of one task changes; each entry was there, or is its own;
and what its old code covered of the entries that are left its new code covers. -/
theorem Listed.updated (hcode : s'.code = update s.code t c) (hsingle : c.single)
    (hold : ∀ S, ∀ x ∈ s'.waiters S, x.task ≠ t → x ∈ s.waiters S)
    (hown : ∀ S, ∀ x ∈ s'.waiters S, x.task = t → c.covers S x.wait) : Listed s' := by
  refine ⟨fun S x hx => ?_, fun u => ?_⟩
  · rw [hcode]
    by_cases hxt : x.task = t
    · rw [hxt, update_self]
      exact hown S x hx hxt
    · rw [update_of_ne hxt]
      exact h.entries S x (hold S x hx hxt)
  · rw [hcode]
    by_cases hut : u = t
    · rw [hut, update_self]
      exact hsingle
    · rw [update_of_ne hut]
      exact h.single u

lemma Listed.recode (hcode : s'.code = update s.code t c) (hsingle : c.single)
    (hwaiters : s'.waiters = s.waiters) (hcovers : ∀ S w, (s.code t).covers S w → c.covers S w) : Listed s' := by
  refine h.updated hcode hsingle (fun S x hx _ => hwaiters ▸ hx) fun S x hx hxt => ?_
  rw [hwaiters] at hx
  have hcov := h.entries S x hx
  rw [hxt] at hcov
  exact hcovers S x.wait hcov

lemma Listed.shrink (hcode : s'.code = s.code) (hsub : ∀ S, ∀ x ∈ s'.waiters S, x ∈ s.waiters S) : Listed s' := by
  refine ⟨fun S x hx => ?_, fun u => ?_⟩
  · rw [hcode]
    exact h.entries S x (hsub S x hx)
  · rw [hcode]
    exact h.single u

lemma Listed.push (hk : s.code t = .entering k) (hcode : s'.code = update s.code t c)
    (hsingle : c.single) (hwaiters : s'.waiters = (s.setWaiters k.socket (s.waiters k.socket ++ [k.waiter t])).waiters)
    (hcovers : ∀ S, S ∈ k.io ∨ S = k.socket → c.covers S k.wait) : Listed s' := by
  have hmem : ∀ S, ∀ x ∈ s'.waiters S, x ∈ s.waiters S ∨ S = k.socket ∧ x = k.waiter t := by
    intro S x hx
    rw [hwaiters] at hx
    rcases mem_setWaiters hx with ⟨rfl, hx'⟩ | ⟨-, hx'⟩
    · rcases mem_append.mp hx' with hx' | hx'
      · exact .inl hx'
      · exact .inr ⟨rfl, mem_singleton.mp hx'⟩
    · exact .inl hx'
  refine h.updated hcode hsingle (fun S x hx hxt => ?_) fun S x hx hxt => ?_
  · rcases hmem S x hx with hx | ⟨-, rfl⟩
    · exact hx
    · exact absurd rfl hxt
  · rcases hmem S x hx with hx | ⟨hS, rfl⟩
    · have hcov := h.entries S x hx
      rw [hxt, hk] at hcov
      rw [← hcov.1]
      exact hcovers S (.inl hcov.2)
    · exact hcovers S (.inr hS)

/-- A socket's waiters lose those of the wait of task `t`, and with them its need to know the
socket. -/
theorem Listed.forget (hcode : s'.code = update s.code t c) (hsingle : c.single)
    (hwaiters : s'.waiters = (s.forget T w).waiters)
    (hcovers : ∀ S v, (s.code t).covers S v → v = w ∧ (S ≠ T → c.covers S w)) : Listed s' := by
  refine h.updated hcode hsingle (fun S x hx _ => ?_) fun S x hx hxt => ?_
  · rw [hwaiters] at hx
    exact mem_of_mem_forget hx
  · rw [hwaiters] at hx
    have hcov := h.entries S x (mem_of_mem_forget hx)
    rw [hxt] at hcov
    obtain ⟨hw, hrest⟩ := hcovers S x.wait hcov
    rw [hw]
    apply hrest
    rintro rfl
    rcases mem_setWaiters hx with ⟨-, hx⟩ | ⟨hne, -⟩
    · simpa [hw] using (mem_filter.mp hx).2
    · exact hne rfl

lemma Listed.taskStep (hw : Watched s) (hrearm : Rearms s l) (hstep : TaskStep s t a l s') : Listed s' := by
  have hsame : s.code = update s.code t (s.code t) := (update_eq_self t s.code).symm
  have ht := h.single t
  have hgo : ∀ {r : State} {k : Watch} {x y : WatchStep}, s.code t = .watching k x →
      r.code = update s.code t (.watching k y) → r.waiters = s.waiters → Listed r := by
    intro r k x y hcode hr hwaiters
    rw [hcode] at ht
    refine h.recode hr ht hwaiters fun S v hc => ?_
    rw [hcode] at hc
    exact hc
  cases hstep with
  | yield | succeed | block => exact h.recode hsame ht rfl fun _ _ hc => hc
  | suspend hcode | abandon hcode =>
    refine h.recode rfl trivial rfl fun S v hc => ?_
    rcases hcode with hcode | hcode
    · rw [hcode] at hc
      exact hc
    · rw [hcode] at hc
      exact hc
  | waitIo hcode htried =>
    refine h.recode rfl (fun _ => rfl) rfl fun S v hc => ?_
    rw [hcode] at hc
    exact hc.elim
  | beginMultiWait hcode =>
    refine h.recode rfl trivial rfl fun S v hc => ?_
    rw [hcode] at hc
    exact hc.elim
  | addIo hcode =>
    refine h.recode rfl (fun hmulti => nomatch hmulti) rfl fun S v hc => ?_
    rw [hcode] at hc
    exact hc
  | closedWait hcode hmulti =>
    rw [hcode] at ht
    refine h.recode rfl trivial rfl fun S v hc => ?_
    rw [hcode] at hc
    have hS := hc.2
    rw [ht hmulti] at hS
    cases hS
  | closedAdd hcode hmulti =>
    rw [hcode] at ht
    refine h.recode rfl single_refused rfl fun S v hc => ?_
    rw [hcode] at hc
    rw [← hc.1]
    exact covers_refused ht hc.2
  | mine hcode hlock howner =>
    rw [hcode] at ht
    exact h.push hcode rfl single_added rfl fun S hS => covers_added ht hS
  | shared hcode | alone hcode | unowned hcode =>
    rw [hcode] at ht
    exact h.push hcode rfl ht rfl fun S hS => ⟨rfl, hS⟩
  | rearmed hcode | store hcode =>
    rw [hcode] at ht
    refine h.recode rfl single_added rfl fun S v hc => ?_
    rw [hcode] at hc
    rw [← hc.1]
    exact covers_added ht hc.2
  | @notRearmed k b ok hcode hfails =>
    -- the socket is registered with its owner's queue, so only the call itself could fail
    have hk := hw.code t
    rw [hcode] at hk
    obtain ⟨-, -, a', -, -, hreg⟩ := hk
    have hok : ok := by simpa [Rearms, failsToRearm, hcode] using hrearm
    exact absurd (by rw [hok, hreg]; rfl) hfails
  | deregistered hcode | notDeregistered hcode | alreadyExists hcode | registered hcode | reregistered hcode =>
    exact hgo hcode rfl rfl
  | notRegistered hcode =>
    rcases hcode with hcode | hcode
    · exact hgo hcode rfl rfl
    · exact hgo hcode rfl rfl
  | giveUp hcode =>
    rw [hcode] at ht
    refine h.forget rfl single_refused rfl fun S v hc => ?_
    rw [hcode] at hc
    refine ⟨hc.1.symm, fun hS => ?_⟩
    exact covers_refused ht (hc.2.resolve_right hS)
  | forgotten hcode =>
    refine h.recode rfl trivial rfl fun S v hc => ?_
    rw [hcode] at hc
    cases hc.2
  | forget hcode hlock =>
    refine h.forget rfl trivial rfl fun S v hc => ?_
    rw [hcode] at hc
    refine ⟨hc.1.symm, fun hS => ⟨rfl, ?_⟩⟩
    exact (mem_cons.mp hc.2).resolve_left hS

lemma Listed.step (hw : Watched s) (hrearm : Rearms s l) (hstep : Step s l s') : Listed s' := by
  cases hstep with
  | task hon hstep => exact h.taskStep hw hrearm hstep
  | @resume t a hact hon =>
    refine h.recode (t := t) rfl ?_ rfl fun S v hc => ?_
    · have ht := h.single t
      cases hcode : s.code t with
      | asleep v io => trivial
      | _ =>
        rw [hcode] at ht
        exact ht
    · cases hcode : s.code t with
      | asleep v io =>
        rw [hcode] at hc
        exact hc
      | _ =>
        rw [hcode] at hc
        exact hc
  | handle hact hlock =>
    refine h.shrink rfl fun S x hx => ?_
    rcases mem_setWaiters hx with ⟨rfl, hx'⟩ | ⟨-, hx'⟩
    · exact (mem_filter.mp hx').1
    · exact hx'
  | @close T hlock =>
    refine h.shrink rfl fun S x hx => ?_
    obtain rfl | hS := eq_or_ne S T
    · simp at hx
    · simpa [hS] using hx
  | _ => exact h.shrink rfl fun _ _ hx => hx

end Steps

lemma listed_initial : Listed initial := by
  refine ⟨fun S x hx => ?_, fun t => trivial⟩
  cases hx

end RocNet.Sockets
