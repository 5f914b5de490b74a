import RocNet.Model.Select

/-!
# What each step of waiting on several sources can do

The inversion of the step function of `Model.Select`. Of `wait_any` it keeps what its cleaning up
depends on: the wait, what is registered under it, and whether the task's timer can be set at the time.
-/

namespace RocNet.Select

open List Option

/-- The wakers a call has in lists. -/
def Call.registered (q : Call) : List (Place × ℕ) :=
  match q.phase with
  | .checking p id _ _ => q.watching ++ [(p, id)]
  | _ => q.watching

/-- The wait for which a task's timer may be set. -/
def State.timing (s : State) (t : ℕ) : Option ℕ :=
  match s.sock.code t with
  | .armed w _ | .asleep w _ | .forgetting w _ => some w
  | .opened w _ =>
    match s.call t with
    | some ⟨_, _, .polling []⟩ => some w
    | _ => none
  | _ => none

inductive Step (s : State) : Label → State → Prop
  | sock (hpasses : s.passes l = true) (h : Sockets.step s.sock l = some x) : Step s (.sock l) (s.setSock x)
  | waitAny {x : Sockets.State} (hcall : s.call t = none) (h : Sockets.step s.sock (.beginMultiWait t) = some x) :
      Step s (.waitAny t sources) ((s.setSock x).setCall t (some ⟨s.sock.nextWait, [], .polling sources⟩))
  -- `wait_any` goes on with what it has registered; adds a waker to a list; takes one off
  | goOn {q' : Call} {l : Label} (hcall : s.call t = some q) (htiming : s.timing t = none) (hwait : q'.wait = q.wait)
      (hregistered : q'.registered = q.registered) : Step s l (s.setCall t (some q'))
  | enlist {q' : Call} {p : Place} {l : Label} (hcall : s.call t = some q) (htiming : s.timing t = none)
      (hwait : q'.wait = q.wait) (hregistered : q'.registered = q.registered ++ [(p, (s.lists p).nextId)]) :
      Step s l ((s.enlist t p q.wait).setCall t (some q'))
  | remove {id : ℕ} {q q' : Call} {p : Place} {l : Label} (hcall : s.call t = some q) (htiming : s.timing t = none)
      (hwait : q'.wait = q.wait) (hregistered : ∀ e ∈ q.registered, e = (p, id) ∨ e ∈ q'.registered) :
      Step s l ((s.setList p ((s.lists p).remove id)).setCall t (some q'))
  | multi {q' : Call} {k : Sockets.Label} {x : Sockets.State} {l : Label} (hcall : s.call t = some q)
      (htiming : s.timing t = none) (hwait : q'.wait = q.wait) (hregistered : q'.registered = q.registered)
      (h : Sockets.step s.sock k = some x) (hk : (∃ S d, k = .addIo t S d) ∨ k = .abandon t) :
      Step s l ((s.setSock x).setCall t (some q'))
  | suspend (hsuspending : s.suspending t = some w) (h : Sockets.step s.sock (.suspend t) = some x) :
      Step s (.suspend t) ((s.setSock x).setCall t ((s.call t).map fun q => { q with phase := .leaving }))
  | returned (hcall : s.call t = some q) (hcode : s.sock.code t = .free) (hregistered : q.registered = []) :
      Step s (.unwatch t) (s.setCall t none)
  | setTimer {t due w a : ℕ} (hsuspending : s.suspending t = some w) (htimer : s.timer t = none) : Step s
      (.setTimer t due) ((s.setTimers a (⟨due, w, t⟩ :: (s.timers a).filter fun x => decide
      (¬ (x.due = due ∧ x.wait = w)))).setTimer t (some (a, due, w)))
  | clearTimer {t due w a : ℕ} (htimer : s.timer t = some (a, due, w)) :
      Step s (.clearTimer t) ((s.removeTimer a due w).setTimer t none)
  | fire : Step s (.fire a now) (s.setTimers a ((s.timers a).filter fun x => decide (now < x.due)))
  | wakeFrom : Step s (.wakeFrom p first) (s.setList p ((s.lists p).before first))

variable {kind : ℕ → Kind} {s s' : State} {l : Label} {t : ℕ}

variable {q : Call}

/-- A task that is registering with its sources has no timer. -/
theorem timing_of_opened (hcall : s.call t = some q) (hcode : s.sock.code t = .opened w io)
    (hphase : q.phase ≠ .polling []) : s.timing t = none := by
  obtain ⟨v, watching, phase⟩ := q
  unfold State.timing
  rw [hcode, hcall]
  cases phase with
  | polling todo =>
    cases todo with
    | nil => exact absurd rfl hphase
    | cons x todo => rfl
  | _ => rfl

variable {p : Place} {todo : List Source} {ready : Bool} {S : ℕ}

section

variable (hcall : s.call t = some q) (htiming : s.timing t = none) (hregistered : q.registered = q.watching)

include hcall htiming hregistered

lemma watchList_cases : Step s l (watchList s t q p todo ready) := by
  unfold watchList
  split
  · exact .goOn hcall htiming rfl hregistered.symm
  · refine .enlist hcall htiming rfl ?_
    rw [hregistered]
    rfl

lemma watchStream_cases : Step s l (watchStream s t q p S todo) := by
  unfold watchStream
  refine .enlist hcall htiming rfl ?_
  rw [hregistered]
  rfl

lemma watchSource_cases : Step s l (watchSource kind s t q todo ready x) := by
  cases x with
  | signalCaught | stdinLine | joinable u | receivable c | sendable c => exact watchList_cases hcall htiming hregistered
  | writable S =>
    simp only [watchSource]
    split
    · exact .goOn hcall htiming rfl hregistered.symm
    · exact .goOn hcall htiming rfl hregistered.symm
  | readable S =>
    simp only [watchSource]
    split
    · exact .goOn hcall htiming rfl hregistered.symm
    · exact .goOn hcall htiming rfl hregistered.symm
    · exact watchStream_cases hcall htiming hregistered
    · exact watchStream_cases hcall htiming hregistered

end

lemma checkStream_cases {id : ℕ} (hcall : s.call t = some q) (htiming : s.timing t = none)
    (hregistered : q.registered = q.watching ++ [(p, id)]) :
    Step s l (checkStream s t q p id S todo ready wantsWrite) := by
  unfold checkStream
  split
  · refine .remove hcall htiming rfl fun e he => ?_
    rw [hregistered] at he
    rcases mem_append.mp he with he | he
    · exact .inr he
    · exact .inl (mem_singleton.mp he)
  · exact .goOn hcall htiming rfl hregistered.symm

lemma registered_added : (⟨w, watching, .added S dirs todo⟩ : Call).registered = watching := by
  cases dirs <;> rfl

lemma gaveUp_cases (hcall : s.call t = some q) (hgave : gaveUp q (s.sock.code t)) :
    s.timing t = none ∧ q.registered = q.watching := by
  obtain ⟨w, watching, phase⟩ := q
  have hfailed : ∀ {v : ℕ} {io : List ℕ}, s.sock.code t = .failed v io → s.timing t = none := by
    intro v io hcode
    unfold State.timing
    rw [hcode]
  unfold gaveUp at hgave
  split at hgave
  · next hphase hcode =>
    cases hphase
    exact ⟨timing_of_opened hcall hcode nofun, rfl⟩
  · next hphase hcode =>
    cases hphase
    exact ⟨hfailed hcode, rfl⟩
  · next hphase hcode =>
    cases hphase
    exact ⟨hfailed hcode, rfl⟩
  · cases hgave

lemma step_cases (h : step kind s l = some s') : Step s l s' := by
  cases l <;> simp only [step] at h
  case sock k =>
    split at h
    · next hpasses =>
      obtain ⟨x, hx, rfl⟩ := map_eq_some_iff.mp h
      exact .sock hpasses hx
    · cases h
  case waitAny t sources =>
    split at h
    · next hcall =>
      obtain ⟨x, hx, rfl⟩ := map_eq_some_iff.mp h
      exact .waitAny hcall hx
    · cases h
  case watch t ready =>
    split at h
    · next hcall hcode =>
      cases h
      exact watchSource_cases hcall (timing_of_opened hcall hcode nofun) rfl
    · cases h
  case check t ready wantsWrite =>
    split at h
    · next hcall hcode =>
      cases h
      exact checkStream_cases hcall (timing_of_opened hcall hcode nofun) rfl
    · cases h
  case addIo t =>
    split at h
    · next S d dirs todo hcall =>
      obtain ⟨x, hx, rfl⟩ := map_eq_some_iff.mp h
      -- `add_io` starts from an open wait
      have hopened : ∃ w io, s.sock.code t = .opened w io := by
        obtain ⟨a, -, hstep⟩ := bind_eq_some_iff.mp hx
        simp only [Sockets.stepTask] at hstep
        split at hstep
        · next hcode => exact ⟨_, _, hcode⟩
        · cases hstep
      obtain ⟨w, io, hcode⟩ := hopened
      exact .multi hcall (timing_of_opened hcall hcode nofun) rfl registered_added hx (.inl ⟨S, d, rfl⟩)
    · cases h
  case abandon t =>
    split at h
    · next q hcall =>
      split at h
      · next hgave =>
        obtain ⟨x, hx, rfl⟩ := map_eq_some_iff.mp h
        obtain ⟨htiming, hregistered⟩ := gaveUp_cases hcall hgave
        exact .multi hcall htiming rfl hregistered.symm hx (.inr rfl)
      · cases h
    · cases h
  case unwatch t =>
    split at h
    · next w watching hcall hcode =>
      split at h
      · cases h
        exact .returned hcall hcode rfl
      · cases h
        refine .remove hcall ?_ rfl fun e he => mem_cons.mp he
        unfold State.timing
        rw [hcode]
    · cases h
  case setTimer t due =>
    split at h
    · next hsuspending _ =>
      split at h
      · next htimer =>
        cases h
        exact .setTimer hsuspending htimer
      · cases h
    · cases h
  case suspend t =>
    split at h
    · next hsome =>
      obtain ⟨w, hw⟩ := isSome_iff_exists.mp hsome
      obtain ⟨x, hx, rfl⟩ := map_eq_some_iff.mp h
      exact .suspend hw hx
    · cases h
  case clearTimer t =>
    split at h
    · next htimer _ =>
      cases h
      exact .clearTimer htimer
    · cases h
  case fire a now =>
    cases h
    exact .fire
  case wakeFrom p first =>
    cases h
    exact .wakeFrom

end RocNet.Select
