import RocNet.Analysis.SocketEntries
import RocNet.Model.SelectSteps

/-!
# Whose entries the timers and the lists of wakers have

A task's timer is in its worker's timers while the task is about to suspend, suspended, or not past removing it; a
waker is in a list while the call of `wait_any` that added it has it recorded (`Tidy`).
-/

namespace RocNet.Select

open Function List Option State

variable {s s' : State} {l : Label} {t u w : ℕ} {k : Sockets.Label} {x : Sockets.State}

/-! ## Who is in a wait -/

/-- The wait of the operation a task is in. -/
def State.current (s : State) (t : ℕ) : Option ℕ :=
  (s.sock.code t).own.or ((s.call t).map Call.wait)

lemma current_of_own (h : (s.sock.code t).own = some w) : s.current t = some w := by
  unfold State.current
  rw [h]
  rfl

/-! ## What the steps of the sockets do -/

lemma own_of_step (h : Sockets.Step s.sock k x) (hwaitIo : ∀ S d, k ≠ .waitIo u S d)
    (hbegin : k ≠ .beginMultiWait u) : (x.code u).own = none ∨ (x.code u).own = (s.sock.code u).own := by
  cases h.nextCode u with
  | stay hwait hown => exact .inr hown
  | leave hwait hown => exact hown
  | begin hown hnext =>
    cases h with
    | @task t a k x hon h =>
      cases h with
      | waitIo hcode htried =>
        obtain rfl | hut := eq_or_ne u t
        · exact absurd rfl (hwaitIo _ _)
        · simp [hut]
      | beginMultiWait hcode =>
        obtain rfl | hut := eq_or_ne u t
        · exact absurd rfl hbegin
        · simp [hut]
      | _ => exact absurd hnext.symm (Nat.succ_ne_self _)
    | _ => exact absurd hnext.symm (Nat.succ_ne_self _)

lemma code_of_ne (h : Sockets.Step s.sock k x) (hk : k.task = some t) (hu : u ≠ t) : x.code u = s.sock.code u := by
  cases h with
  | @task t' a k x hon h =>
    have ht : t' = t := by
      cases h <;> exact some.inj hk
    obtain ⟨c, hcode, -⟩ := h.nextCode
    rw [hcode, ht, update_of_ne hu]
  | _ => cases hk

lemma code_of_beginMultiWait (h : Sockets.step s.sock (.beginMultiWait t) = some x) :
    s.sock.code t = .free ∧ x.code t = .opened s.sock.nextWait [] := by
  cases Sockets.step_cases h with
  | task hon h =>
    cases h with
    | beginMultiWait hcode => exact ⟨hcode, by simp⟩

lemma code_of_suspend (h : Sockets.step s.sock (.suspend t) = some x) :
    ∃ v io, (s.sock.code t = .opened v io ∨ s.sock.code t = .armed v io) ∧ x.code t = .asleep v io := by
  cases Sockets.step_cases h with
  | task hon h =>
    cases h with
    | @suspend v io hcode => exact ⟨v, io, hcode, by simp⟩

lemma timing_congr (hcode : s'.sock.code u = s.sock.code u) (hcall : s'.call u = s.call u) :
    s'.timing u = s.timing u := by
  unfold State.timing
  rw [hcode, hcall]

lemma own_of_timing (h : s.timing t = some w) : (s.sock.code t).own = some w := by
  unfold State.timing at h
  split at h
  · next hcode => rw [hcode]; exact h
  · next hcode => rw [hcode]; exact h
  · next hcode => rw [hcode]; exact h
  · next hcode =>
    rw [hcode]
    split at h
    · exact h
    · cases h
  · cases h

lemma timing_of_suspending (h : s.suspending t = some w) : s.timing t = some w := by
  unfold State.suspending at h
  unfold State.timing
  split at h
  · next hcall hcode =>
    rw [hcode]
    exact h
  · next hcall hcode =>
    rw [hcode, hcall]
    exact h
  · cases h

lemma timing_setSock (h : Sockets.Step s.sock k x) (hpasses : s.passes k)
    (htimer : s.timer u ≠ none) (hw : s.timing u = some w) : (s.setSock x).timing u = some w := by
  have hsame : x.code u = s.sock.code u → (s.setSock x).timing u = some w := by
    intro hcode
    rw [← hw]
    exact timing_congr hcode rfl
  have hnone : ∀ {c : Sockets.Code}, s.sock.code u = c → (∀ r : State, r.sock.code u = c →
      r.timing u = none) → (s.setSock x).timing u = some w := by
    intro c hcode hc
    rw [hc s hcode] at hw
    cases hw
  cases h with
  | @task t a k x hon h =>
    obtain rfl | hut := eq_or_ne u t
    · cases h with
      | suspend _ | beginMultiWait _ | addIo _ | abandon _ => cases hpasses
      | forgotten _ | forget _ _ => exact absurd (isNone_iff_eq_none.mp hpasses) htimer
      | yield hcode | succeed hcode | block hcode | waitIo hcode | closedWait hcode
      | closedAdd hcode | mine hcode | shared hcode | alone hcode | unowned hcode | rearmed hcode
      | notRearmed hcode | deregistered hcode | notDeregistered hcode | alreadyExists hcode
      | registered hcode | reregistered hcode | store hcode | giveUp hcode =>
        exact hnone hcode fun r hr => by unfold State.timing; rw [hr]
      | notRegistered hcode =>
        rcases hcode with hcode | hcode
        · exact hnone hcode fun r hr => by unfold State.timing; rw [hr]
        · exact hnone hcode fun r hr => by unfold State.timing; rw [hr]
    · obtain ⟨c, hcode, -⟩ := h.nextCode
      exact hsame (by rw [hcode, update_of_ne hut])
  | @resume t a hact hon =>
    obtain rfl | hut := eq_or_ne u t
    · have hcases : (∃ v io, s.sock.code u = .asleep v io) ∨ (s.sock.code u).resumed = s.sock.code u := by
        cases s.sock.code u with
        | asleep v io => exact .inl ⟨v, io, rfl⟩
        | _ => exact .inr rfl
      rcases hcases with ⟨v, io, hcode⟩ | hcode
      · unfold State.timing at hw ⊢
        rw [hcode] at hw
        simpa [hcode, Sockets.Code.resumed] using hw
      · exact hsame (by simp [hcode])
    · exact hsame (by simp [hut])
  | _ => exact hsame rfl

/-! ## What is left behind -/

/-- A task comes out of `wait_suspended` with its timer still set on a worker that it does not find. -/
def State.keepsTimer (s : State) (t : ℕ) : Bool :=
  match s.timer t with
  | some (a, due, w) => !s.sock.slot a && (s.timers a).any fun x => decide (x.due = due ∧ x.wait = w)
  | none => false

/-- Nothing that a wait should undo is left: `watch_io` does not fail to re-arm a socket, and `wait_suspended`
does not keep a timer. -/
def Undoes (s : State) : Label → Prop
  | .sock l => Sockets.Rearms s.sock l
  | .clearTimer t => s.keepsTimer t = false
  | _ => True

instance (s : State) (l : Label) : Decidable (Undoes s l) := by
  cases l <;> unfold Undoes <;> infer_instance

@[simp] lemma removeTimer_sock (s : State) (a due w : ℕ) : (s.removeTimer a due w).sock = s.sock := by
  unfold State.removeTimer
  split <;> rfl

@[simp] lemma removeTimer_call (s : State) (a due w : ℕ) : (s.removeTimer a due w).call = s.call := by
  unfold State.removeTimer
  split <;> rfl

/-- What a task's own timer leaves of the timers of all workers, if it is not kept. -/
theorem mem_removeTimer {a due : ℕ} {e : Timer} (htimer : s.timer t = some (a, due, w))
    (hundoes : s.keepsTimer t = false) (he : e ∈ (s.removeTimer a due w).timers b) :
    e ∈ s.timers b ∧ (b = a → ¬ (e.due = due ∧ e.wait = w)) := by
  unfold State.removeTimer at he
  split at he
  · rw [setTimers_timers] at he
    obtain rfl | hba := eq_or_ne b a
    · rw [update_self] at he
      obtain ⟨he, hkey⟩ := mem_filter.mp he
      exact ⟨he, fun _ => of_decide_eq_true hkey⟩
    · rw [update_of_ne hba] at he
      exact ⟨he, fun hb => absurd hb hba⟩
  · next hslot =>
    refine ⟨he, ?_⟩
    rintro rfl hkey
    simp only [State.keepsTimer, htimer, Bool.and_eq_false_iff, Bool.not_eq_eq_eq_not] at hundoes
    rcases hundoes with hfound | hgone
    · exact hslot hfound
    · exact of_decide_eq_false (any_eq_false.mp hgone e he |> Bool.eq_false_iff.mpr) hkey

/-! ## The invariant -/

/-- What is registered belongs to a wait that its task is in. -/
structure Tidy (s : State) : Prop where
  agrees : ∀ t q, s.call t = some q → (s.sock.code t).own = none ∨ (s.sock.code t).own = some q.wait
  timed : ∀ t a due w, s.timer t = some (a, due, w) → s.timing t = some w
  timers : ∀ a, ∀ e ∈ s.timers a, s.timer e.task = some (a, e.due, e.wait)
  lists : ∀ p, ∀ e ∈ (s.lists p).list, ∃ q, s.call e.2.1 = some q ∧ q.wait = e.2.2 ∧ (p, e.1) ∈ q.registered

section Steps

variable (h : Tidy s)
include h

variable {q q' : Call} {L : Place → Waiters (ℕ × ℕ)}

lemma Tidy.current_of_call (hcall : s.call t = some q) : s.current t = some q.wait := by
  unfold State.current
  rcases h.agrees t q hcall with hown | hown
  · rw [hown, hcall]
    rfl
  · rw [hown]
    rfl

lemma Tidy.timer_none (htiming : s.timing t = none) : s.timer t = none := by
  cases htimer : s.timer t with
  | none => rfl
  | some y =>
    obtain ⟨a, due, w⟩ := y
    have hw := h.timed t a due w htimer
    rw [htiming] at hw
    cases hw

/-- **The rule for `wait_any`.** The call of one task changes, under the same wait; every entry of a
list was there or is the call's own, and what the old call had registered of the entries that are left
the new one has. -/
theorem Tidy.lists_setCall (hcall : s.call t = some q) (hwait : q'.wait = q.wait)
    (hmem : ∀ p, ∀ e ∈ (L p).list, e ∈ (s.lists p).list ∨ e.2 = (t, q.wait) ∧ (p, e.1) ∈ q'.registered)
    (hkeeps : ∀ p, ∀ e ∈ (L p).list, (p, e.1) ∈ q.registered → (p, e.1) ∈ q'.registered) :
    ∀ p, ∀ e ∈ (L p).list, ∃ r, update s.call t (some q') e.2.1 = some r ∧
      r.wait = e.2.2 ∧ (p, e.1) ∈ r.registered := by
  intro p e he
  rcases hmem p e he with hold | ⟨heq, hreg⟩
  · obtain ⟨r, hr, hrw, hreg⟩ := h.lists p e hold
    by_cases het : e.2.1 = t
    · rw [het, hcall] at hr
      cases hr
      exact ⟨q', by rw [het, update_self], hwait.trans hrw, hkeeps p e he hreg⟩
    · exact ⟨r, by rw [update_of_ne het, hr], hrw, hreg⟩
  · refine ⟨q', ?_, ?_, hreg⟩
    · rw [heq, update_self]
    · rw [heq]
      exact hwait

lemma Tidy.lists_recall (hcall : s.call t = some q) (hwait : q'.wait = q.wait)
    (hregistered : q'.registered = q.registered) :
    ∀ p, ∀ e ∈ (s.lists p).list, ∃ r, update s.call t (some q') e.2.1 = some r ∧
      r.wait = e.2.2 ∧ (p, e.1) ∈ r.registered :=
  h.lists_setCall hcall hwait (fun _ _ he => .inl he) fun _ _ _ hreg => hregistered ▸ hreg

lemma Tidy.timed_setCall (htiming : s.timing t = none) (hcode : ∀ u ≠ t, x.code u = s.sock.code u) :
    ∀ u a due w, s.timer u = some (a, due, w) →
      State.timing { s with sock := x, lists := L, call := update s.call t o } u = some w := by
  intro u a due w htimer
  have hut : u ≠ t := by
    rintro rfl
    rw [h.timer_none htiming] at htimer
    cases htimer
  rw [← h.timed u a due w htimer]
  apply timing_congr
  · exact hcode u hut
  · exact update_of_ne hut _ _

/-- Agreement is kept where no call begins, nor any wait of a task with a call. -/
theorem Tidy.agrees_of (hcalls : ∀ v r, s'.call v = some r → ∃ q, s.call v = some q ∧ q.wait = r.wait)
    (hown : ∀ v, s.call v ≠ none →
      (s'.sock.code v).own = none ∨ (s'.sock.code v).own = (s.sock.code v).own) : ∀ v r, s'.call v = some r →
      (s'.sock.code v).own = none ∨ (s'.sock.code v).own = some r.wait := by
  intro v r hr
  obtain ⟨q, hq, hwait⟩ := hcalls v r hr
  rcases hown v (by rw [hq]; nofun) with hnone | hsame
  · exact .inl hnone
  · rw [hsame, ← hwait]
    exact h.agrees v q hq

omit h in
lemma call_of_setCall (hcall : s.call t = some q) (hwait : q'.wait = q.wait) :
    ∀ v r, update s.call t (some q') v = some r → ∃ q, s.call v = some q ∧ q.wait = r.wait := by
  intro v r hr
  obtain rfl | hvt := eq_or_ne v t
  · rw [update_self] at hr
    cases hr
    exact ⟨q, hcall, hwait.symm⟩
  · rw [update_of_ne hvt] at hr
    exact ⟨r, hr, rfl⟩

lemma Tidy.setCall (hcall : s.call t = some q)
    (htiming : s.timing t = none) (hwait : q'.wait = q.wait)
    (hlists : ∀ p, ∀ e ∈ (L p).list, ∃ r, update s.call t (some q') e.2.1 = some r ∧
      r.wait = e.2.2 ∧ (p, e.1) ∈ r.registered) :
    Tidy { s with lists := L, call := update s.call t (some q') } where
  agrees := h.agrees_of (call_of_setCall hcall hwait) fun _ _ => .inr rfl
  timed := h.timed_setCall htiming fun _ _ => rfl
  timers := h.timers
  lists := hlists

lemma Tidy.sock (hpasses : s.passes k) (hstep : Sockets.Step s.sock k x) :
    Tidy (s.setSock x) where
  agrees := by
    refine h.agrees_of (fun v r hr => ⟨r, hr, rfl⟩) fun v hv => ?_
    refine own_of_step hstep ?_ ?_
    · rintro S d rfl
      exact hv (isNone_iff_eq_none.mp hpasses)
    · rintro rfl
      cases hpasses
  timed := by
    intro u a due w htimer
    refine timing_setSock hstep hpasses (fun hnone => ?_) (h.timed u a due w htimer)
    cases hnone.symm.trans htimer
  timers := h.timers
  lists := h.lists

lemma Tidy.waitAny (hcall : s.call t = none) (hstep : Sockets.step s.sock (.beginMultiWait t) = some x) :
    Tidy ((s.setSock x).setCall t (some ⟨s.sock.nextWait, [], .polling sources⟩)) := by
  obtain ⟨hfree, hopened⟩ := code_of_beginMultiWait hstep
  have hothers : ∀ u ≠ t, x.code u = s.sock.code u := fun u hu => code_of_ne (Sockets.step_cases hstep) rfl hu
  refine ⟨fun u q hq => ?_, ?_, h.timers, fun p e he => ?_⟩
  · obtain rfl | hut := eq_or_ne u t
    · rw [setCall_call, update_self] at hq
      cases hq
      exact .inr (by simp [hopened, Sockets.Code.own, Sockets.Code.wait])
    · rw [setCall_call, update_of_ne hut] at hq
      simp only [setCall_sock, setSock_sock]
      rw [hothers u hut]
      exact h.agrees u q hq
  · refine h.timed_setCall ?_ hothers
    unfold State.timing
    rw [hfree]
  · obtain ⟨q, hq, hrest⟩ := h.lists p e he
    have het : e.2.1 ≠ t := by
      intro het
      rw [het, hcall] at hq
      cases hq
    exact ⟨q, by rw [setCall_call, update_of_ne het]; exact hq, hrest⟩

section

variable (hcall : s.call t = some q) (htiming : s.timing t = none) (hwait : q'.wait = q.wait)

include hcall htiming hwait

lemma Tidy.enlist (hregistered : q'.registered = q.registered ++ [(p, (s.lists p).nextId)]) :
    Tidy ((s.enlist t p q.wait).setCall t (some q')) := by
  refine h.setCall hcall htiming hwait (h.lists_setCall hcall hwait (fun p' e he => ?_) ?_)
  · obtain rfl | hp := eq_or_ne p' p
    · rw [State.enlist, setList_lists, update_self] at he
      rcases Waiters.mem_addWaker.mp he with he | rfl
      · exact .inl he
      · exact .inr ⟨rfl, by rw [hregistered]; exact mem_append_right _ mem_cons_self⟩
    · rw [State.enlist, setList_lists, update_of_ne hp] at he
      exact .inl he
  · intro p' e _ hreg
    rw [hregistered]
    exact mem_append_left _ hreg

lemma Tidy.remove {id : ℕ} (hregistered : ∀ e ∈ q.registered, e = (p, id) ∨ e ∈ q'.registered) :
    Tidy ((s.setList p ((s.lists p).remove id)).setCall t (some q')) := by
  have hmem : ∀ p', ∀ e ∈ ((s.setList p ((s.lists p).remove id)).lists p').list,
      e ∈ (s.lists p').list ∧ (p', e.1) ≠ (p, id) := by
    intro p' e he
    obtain rfl | hp := eq_or_ne p' p
    · rw [setList_lists, update_self] at he
      obtain ⟨he, hid⟩ := Waiters.mem_remove.mp he
      exact ⟨he, fun heq => hid (congrArg Prod.snd heq)⟩
    · rw [setList_lists, update_of_ne hp] at he
      exact ⟨he, fun heq => hp (congrArg Prod.fst heq)⟩
  refine h.setCall hcall htiming hwait (h.lists_setCall hcall hwait (fun p' e he => ?_) ?_)
  · exact .inl (hmem p' e he).1
  · intro p' e he hreg
    exact (hregistered _ hreg).resolve_left (hmem p' e he).2

lemma Tidy.multi (hregistered : q'.registered = q.registered) (hstep : Sockets.step s.sock k = some x)
    (hk : (∃ S d, k = .addIo t S d) ∨ k = .abandon t) : Tidy ((s.setSock x).setCall t (some q')) := by
  have htask : k.task = some t := by
    rcases hk with ⟨S, d, rfl⟩ | rfl
    · rfl
    · rfl
  have hcode := Sockets.step_cases hstep
  refine ⟨h.agrees_of (call_of_setCall hcall hwait) fun v _ => ?_, ?_, h.timers, ?_⟩
  · refine own_of_step hcode ?_ ?_
    · rintro S d rfl
      rcases hk with ⟨_, _, hk⟩ | hk
      · cases hk
      · cases hk
    · rintro rfl
      rcases hk with ⟨_, _, hk⟩ | hk
      · cases hk
      · cases hk
  · exact h.timed_setCall htiming fun u hu => code_of_ne hcode htask hu
  · exact h.lists_recall hcall hwait hregistered

end

lemma Tidy.suspend (hsuspending : s.suspending t = some w)
    (hstep : Sockets.step s.sock (.suspend t) = some x) :
    Tidy ((s.setSock x).setCall t ((s.call t).map fun q => { q with phase := .leaving })) := by
  have hcode := Sockets.step_cases hstep
  have htiming := timing_of_suspending hsuspending
  obtain ⟨v, io, hbefore, hasleep⟩ := code_of_suspend hstep
  have hcalls : ∀ u q, s.call u = some q → ∃ r, update s.call t
      ((s.call t).map fun q => { q with phase := .leaving }) u = some r ∧ r.wait = q.wait ∧
      r.registered = q.registered := by
    intro u q hq
    obtain rfl | hut := eq_or_ne u t
    · refine ⟨{ q with phase := .leaving }, by rw [update_self, hq]; rfl, rfl, ?_⟩
      obtain ⟨wait, watching, phase⟩ := q
      unfold State.suspending at hsuspending
      rw [hq] at hsuspending
      cases phase with
      | checking p id S todo =>
        rcases hbefore with hbefore | hbefore
        · rw [hbefore] at hsuspending
          cases hsuspending
        · rw [hbefore] at hsuspending
          cases hsuspending
      | _ => rfl
    · exact ⟨q, by rw [update_of_ne hut, hq], rfl, rfl⟩
  refine ⟨h.agrees_of (fun u r hr => ?_) fun v _ => ?_, fun u a due w' htimer => ?_, h.timers, ?_⟩
  · obtain rfl | hut := eq_or_ne u t
    · rw [setCall_call, update_self] at hr
      obtain ⟨q, hq, rfl⟩ := map_eq_some_iff.mp hr
      exact ⟨q, hq, rfl⟩
    · rw [setCall_call, update_of_ne hut] at hr
      exact ⟨r, hr, rfl⟩
  · exact own_of_step hcode nofun nofun
  · have hold := h.timed u a due w' htimer
    obtain rfl | hut := eq_or_ne u t
    · have hown := own_of_timing hold
      have hv : v = w' := by
        rcases hbefore with hbefore | hbefore
        · rw [hbefore] at hown
          exact some.inj hown
        · rw [hbefore] at hown
          exact some.inj hown
      unfold State.timing
      simp only [setCall_sock, setSock_sock, hasleep, hv]
    · rw [← hold]
      apply timing_congr
      · exact code_of_ne hcode rfl hut
      · exact update_of_ne hut _ _
  · intro p e he
    obtain ⟨q, hq, hwait, hreg⟩ := h.lists p e he
    obtain ⟨r, hr, hrw, hrreg⟩ := hcalls e.2.1 q hq
    exact ⟨r, hr, hrw.trans hwait, hrreg ▸ hreg⟩

lemma Tidy.returned (hcall : s.call t = some q) (hcode : s.sock.code t = .free)
    (hregistered : q.registered = []) : Tidy (s.setCall t none) := by
  refine ⟨fun u r hr => ?_, ?_, h.timers, fun p e he => ?_⟩
  · obtain rfl | hut := eq_or_ne u t
    · rw [setCall_call, update_self] at hr
      cases hr
    · rw [setCall_call, update_of_ne hut] at hr
      exact h.agrees u r hr
  · refine h.timed_setCall ?_ fun _ _ => rfl
    unfold State.timing
    rw [hcode]
  · obtain ⟨r, hr, hwait, hreg⟩ := h.lists p e he
    have het : e.2.1 ≠ t := by
      intro het
      rw [het, hcall] at hr
      cases hr
      rw [hregistered] at hreg
      cases hreg
    exact ⟨r, by rw [setCall_call, update_of_ne het]; exact hr, hwait, hreg⟩

lemma Tidy.setTimer (hsuspending : s.suspending t = some w) (htimer : s.timer t = none) :
    Tidy ((s.setTimers a (⟨due, w, t⟩ :: (s.timers a).filter fun x =>
      decide (¬ (x.due = due ∧ x.wait = w)))).setTimer t (some (a, due, w))) := by
  have hold : ∀ b, ∀ e ∈ s.timers b, update s.timer t (some (a, due, w)) e.task = some (b, e.due, e.wait) := by
    intro b e he
    have hb := h.timers b e he
    have het : e.task ≠ t := by
      intro het
      rw [het, htimer] at hb
      cases hb
    rw [update_of_ne het, hb]
  refine ⟨h.agrees, fun u b d v hu => ?_, fun b e he => ?_, h.lists⟩
  · obtain rfl | hut := eq_or_ne u t
    · rw [setTimer_timer, update_self] at hu
      cases hu
      exact timing_of_suspending hsuspending
    · rw [setTimer_timer, update_of_ne hut] at hu
      exact h.timed u b d v hu
  · obtain rfl | hba := eq_or_ne b a
    · rw [setTimer_timers, setTimers_timers, update_self] at he
      rcases mem_cons.mp he with rfl | he
      · rw [setTimer_timer, update_self]
      · exact hold b e (mem_filter.mp he).1
    · rw [setTimer_timers, setTimers_timers, update_of_ne hba] at he
      exact hold b e he

lemma Tidy.clearTimer (htimer : s.timer t = some (a, due, w)) (hundoes : s.keepsTimer t = false) :
    Tidy ((s.removeTimer a due w).setTimer t none) := by
  have hsame : s.removeTimer a due w = { s with timers := (s.removeTimer a due w).timers } := by
    unfold State.removeTimer
    split <;> rfl
  refine ⟨fun u q hq => ?_, fun u b d v hu => ?_, fun b e he => ?_, fun p e he => ?_⟩
  · rw [hsame] at hq ⊢
    exact h.agrees u q hq
  · rw [hsame] at hu ⊢
    obtain rfl | hut := eq_or_ne u t
    · rw [setTimer_timer, update_self] at hu
      cases hu
    · rw [setTimer_timer, update_of_ne hut] at hu
      exact h.timed u b d v hu
  · -- the task's own timer is the one that was removed
    have hmem := mem_removeTimer htimer hundoes he
    have hb := h.timers b e hmem.1
    have het : e.task ≠ t := by
      intro het
      rw [het, htimer] at hb
      cases hb
      exact hmem.2 rfl ⟨rfl, rfl⟩
    rw [hsame, setTimer_timer, update_of_ne het]
    exact hb
  · rw [hsame] at he ⊢
    exact h.lists p e he

lemma Tidy.step (hundoes : Undoes s l) (hstep : Step s l s') : Tidy s' := by
  cases hstep with
  | sock hpasses hx => exact h.sock hpasses (Sockets.step_cases hx)
  | waitAny hcall hx => exact h.waitAny hcall hx
  | goOn hcall htiming hwait hregistered =>
    exact h.setCall hcall htiming hwait (h.lists_recall hcall hwait hregistered)
  | enlist hcall htiming hwait hregistered => exact h.enlist hcall htiming hwait hregistered
  | remove hcall htiming hwait hregistered => exact h.remove hcall htiming hwait hregistered
  | multi hcall htiming hwait hregistered hx hk => exact h.multi hcall htiming hwait hregistered hx hk
  | suspend hsuspending hx => exact h.suspend hsuspending hx
  | returned hcall hcode hregistered => exact h.returned hcall hcode hregistered
  | setTimer hsuspending htimer => exact h.setTimer hsuspending htimer
  | clearTimer htimer => exact h.clearTimer htimer hundoes
  | @fire a now =>
    refine ⟨h.agrees, h.timed, fun b e he => ?_, h.lists⟩
    rw [setTimers_timers] at he
    obtain rfl | hba := eq_or_ne b a
    · rw [update_self] at he
      exact h.timers b e (mem_filter.mp he).1
    · rw [update_of_ne hba] at he
      exact h.timers b e he
  | @wakeFrom p first =>
    refine ⟨h.agrees, h.timed, h.timers, fun p' e he => ?_⟩
    rw [setList_lists] at he
    obtain rfl | hp := eq_or_ne p' p
    · rw [update_self] at he
      exact h.lists p' e (Waiters.mem_before.mp he).1
    · rw [update_of_ne hp] at he
      exact h.lists p' e he

end Steps

lemma tidy_initial : Tidy initial := by
  refine ⟨fun _ _ hq => ?_, fun _ _ _ _ htimer => ?_, fun _ _ he => ?_, fun _ _ he => ?_⟩
  · cases hq
  · cases htimer
  · cases he
  · cases he

end RocNet.Select
