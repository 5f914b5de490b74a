import RocNet.Analysis.ListenerClosing
import RocNet.Analysis.SocketEntries

/-!
# Waiting on a socket that is replaced

What is known of the tasks that wait on a socket whichever event queues have it: `dup2` takes it out of them.
-/

namespace RocNet.Sockets

open Function State

variable {s s' : State} {t u a S w : ℕ} {l : Label}

/-! ## Who runs, and who holds the lock of the waiters -/

lemma Runs.step (h : Runs s) (hstep : Step s l s') : Runs s' := by
  intro u b hu
  have hleave : ∀ {t a : ℕ}, s.on t = some a → update s.on t none u = some b → update s.act a .idle b = .running u := by
    intro t a hon hu
    by_cases hut : u = t
    · simp [hut] at hu
    · rw [update_of_ne hut] at hu
      have hrun := h u b hu
      obtain rfl | hba := eq_or_ne b a
      · rw [h t b hon] at hrun
        exact absurd (Act.running.inj hrun).symm hut
      · rwa [update_of_ne hba]
  have hother : ∀ {a : ℕ} {y : Act}, (∀ t, s.act a ≠ .running t) → s.on u = some b →
      update s.act a y b = .running u := by
    intro a y hidle hu
    have hrun := h u b hu
    obtain rfl | hba := eq_or_ne b a
    · exact absurd hrun (hidle u)
    · rwa [update_of_ne hba]
  cases hstep with
  | task hon htask =>
    cases htask with
    | yield | suspend => exact hleave hon hu
    | _ => exact h u b hu
  | @resume t a hact hon =>
    obtain rfl | hut := eq_or_ne u t
    · obtain rfl : a = b := by simpa using hu
      simp
    · exact hother (by simp [hact]) (by simpa [hut] using hu)
  | collect hact | done hact | handle hact | wokeAll hact | wake hact => exact hother (by simp [hact]) hu
  | _ => exact h u b hu

/-- A task in `watch_io` holds the lock of the socket's waiters. -/
def Locked (s : State) : Prop := ∀ t k x, s.code t = .watching k x → s.lock k.socket = some t

variable {k k' : Watch} {x : WatchStep} {c : Code}

lemma added_ne_watching : k.added ≠ .watching k' x := by
  unfold Watch.added
  split <;> exact nofun

lemma refused_ne_watching : k.refused ≠ .watching k' x := by
  unfold Watch.refused
  split <;> exact nofun

/-- A task's step that leaves the locks alone, and does not begin to hold one. -/
theorem Locked.updated (h : Locked s) (hcode : s'.code = update s.code t c)
    (hlock : s'.lock = s.lock) (hc : ∀ k x, c = .watching k x → ∃ x', s.code t = .watching k x') : Locked s' := by
  unfold Locked
  rw [hcode, hlock, forall_update_iff s.code fun u c =>
    ∀ k x, c = .watching k x → s.lock k.socket = some u]
  refine ⟨?_, fun u _ => h u⟩
  intro k x hk
  obtain ⟨x', hx'⟩ := hc k x hk
  exact h t k x' hx'

lemma Locked.touch (h : Locked s) (hcode : s'.code = update s.code t c) (hlock : s'.lock = update s.lock T o)
    (hT : s.lock T = none ∨ s.lock T = some t) (hc : ∀ k x, c = .watching k x → k.socket = T ∧ o = some t) :
    Locked s' := by
  unfold Locked
  rw [hcode, hlock, forall_update_iff s.code fun u c =>
    ∀ k x, c = .watching k x → update s.lock T o k.socket = some u]
  constructor
  · intro k x hk
    obtain ⟨rfl, rfl⟩ := hc k x hk
    exact update_self _ _ _
  · intro u hut k x hu
    have hheld := h u k x hu
    have hne : k.socket ≠ T := by
      rintro rfl
      rw [hheld] at hT
      rcases hT with hT | hT
      · cases hT
      · exact hut (Option.some.inj hT)
    rwa [update_of_ne hne]

lemma Locked.step (h : Locked s) (hstep : Step s l s') : Locked s' := by
  cases hstep with
  | @task t a l s' hon htask =>
    cases htask with
    | yield | succeed | block => exact h
    | suspend | waitIo | beginMultiWait | addIo | abandon | closedWait | forgotten | forget =>
      exact h.updated rfl rfl nofun
    | closedAdd => exact h.updated rfl rfl fun k x hk => absurd hk refused_ne_watching
    | mine => exact h.updated rfl rfl fun k x hk => absurd hk added_ne_watching
    | shared hcode hlock | alone hcode hlock | unowned hcode hlock =>
      refine h.touch rfl rfl (.inl hlock) ?_
      rintro k x hk
      cases hk
      exact ⟨rfl, rfl⟩
    | rearmed hcode | store hcode =>
      exact h.touch rfl rfl (.inr (h t _ _ hcode)) fun k x hk => absurd hk added_ne_watching
    | notRearmed hcode | giveUp hcode =>
      exact h.touch rfl rfl (.inr (h t _ _ hcode)) fun k x hk => absurd hk refused_ne_watching
    | deregistered hcode | notDeregistered hcode | alreadyExists hcode | registered hcode | reregistered hcode =>
      refine h.updated rfl rfl ?_
      rintro k x hk
      cases hk
      exact ⟨_, hcode⟩
    | notRegistered hcode =>
      refine h.updated rfl rfl ?_
      rintro k x hk
      cases hk
      exact hcode.elim (fun hcode => ⟨_, hcode⟩) fun hcode => ⟨_, hcode⟩
  | @resume t a hact hon =>
    refine h.updated (t := t) (c := (s.code t).resumed) rfl rfl ?_
    intro k x hk
    cases hcode : s.code t with
    | watching k' x' =>
      rw [hcode] at hk
      cases hk
      exact ⟨_, rfl⟩
    | _ =>
      rw [hcode] at hk
      cases hk
  | _ => exact h

/-! ## Waits that have the socket -/

/-- A wait that is open, and has the socket, is listed with it or being woken. -/
def Joins (S : ℕ) (s : State) : Prop :=
  ∀ t w, Open s t w → (s.code t).covers S w → ∃ d, Enlisted s S ⟨t, w, d⟩

lemma covers_of_added (h : k.added.covers S w) : k.wait = w ∧ (S ∈ k.io ∨ S = k.socket) := by
  unfold Watch.added at h
  split at h
  · obtain ⟨hw, hS⟩ := h
    exact ⟨hw, by simpa using hS⟩
  · obtain ⟨hw, hS⟩ := h
    exact ⟨hw, .inr (by simpa using hS)⟩

/-- A wait in which a task is has the sockets it had, or one that `watch_io` was called for. -/
theorem TaskStep.covers_back (h : TaskStep s t a l s') (hwait : (s'.code t).wait = some w)
    (hcovers : (s'.code t).covers S w) :
    (s.code t).covers S w ∨ ∃ k, s.code t = .entering k ∧ k.socket = S ∧ k.wait = w ∧ s'.code t ≠ .entering k := by
  cases h with
  | yield | succeed | block => exact .inl hcovers
  | suspend hcode =>
    simp only [setAct_code, setOn_code, setCode_code, update_self] at hcovers
    rcases hcode with hcode | hcode <;> exact .inl (by rwa [hcode])
  | waitIo | beginMultiWait => simp [Code.covers] at hcovers
  | addIo hcode =>
    simp only [setCode_code, update_self] at hcovers
    exact .inl (by rwa [hcode])
  | abandon | closedWait | forgotten | forget => simp [Code.wait] at hwait
  | closedAdd => simp at hwait
  | @mine k ok hcode =>
    simp only [setCode_code, update_self] at hcovers
    obtain ⟨hw, hS | hS⟩ := covers_of_added hcovers
    · exact .inl (by rw [hcode]; exact ⟨hw, hS⟩)
    · refine .inr ⟨k, hcode, hS.symm, hw, ?_⟩
      simp only [setCode_code, update_self]
      unfold Watch.added
      split <;> simp
  | @shared k _ _ hcode | @alone k _ _ hcode | @unowned k _ hcode =>
    simp only [State.begin, setCode_code, update_self] at hcovers
    obtain ⟨hw, hS | hS⟩ := hcovers
    · exact .inl (by rw [hcode]; exact ⟨hw, hS⟩)
    · exact .inr ⟨k, hcode, hS.symm, hw, by simp [State.begin]⟩
  | rearmed hcode | store hcode =>
    simp only [setCode_code, update_self] at hcovers
    exact .inl (by rw [hcode]; exact covers_of_added hcovers)
  | notRearmed | giveUp => simp at hwait
  | deregistered hcode | notDeregistered hcode | alreadyExists hcode | registered hcode | reregistered hcode =>
    simp only [setCode_code, update_self] at hcovers
    exact .inl (by rw [hcode]; exact hcovers)
  | notRegistered hcode =>
    simp only [setCode_code, update_self] at hcovers
    rcases hcode with hcode | hcode <;> exact .inl (by rw [hcode]; exact hcovers)

lemma Step.covers_back (h : Step s l s') (hwait : (s'.code t).wait = some w) (hcovers : (s'.code t).covers S w) :
    (s.code t).covers S w ∨ ∃ k, s.code t = .entering k ∧ k.socket = S ∧ k.wait = w ∧ s'.code t ≠ .entering k := by
  cases h with
  | @task u a l s' hon htask =>
    obtain rfl | htu := eq_or_ne t u
    · exact htask.covers_back hwait hcovers
    · obtain ⟨c, hcode, -⟩ := htask.nextCode
      rw [hcode, update_of_ne htu] at hcovers
      exact .inl hcovers
  | @resume u a hact hon =>
    obtain rfl | htu := eq_or_ne t u
    · simp only [setAct_code, setOn_code, setCode_code, update_self] at hwait hcovers
      cases hcode : s.code t with
      | asleep v io =>
        rw [hcode] at hwait
        cases hwait
      | _ =>
        rw [hcode] at hcovers
        exact .inl hcovers
    · exact .inl (by simpa [htu] using hcovers)
  | _ => exact .inl hcovers

lemma Joins.step (h : Joins S s) (hruns : Runs s) (ho : Owned s) (hstep : Step s l s') : Joins S s' := by
  intro t w hopen hcovers
  rcases hstep.covers_back hopen.wait hcovers with hbefore | ⟨k, hcode, rfl, rfl, hleft⟩
  · have hlt := (ho.issued t w (own_of_covers hbefore)).2
    have hopen' := (hopen.back ho hstep).resolve_right (Nat.ne_of_lt hlt)
    obtain ⟨d, henlisted⟩ := h t w hopen' hbefore
    exact ⟨d, henlisted.step hruns ho hstep hopen⟩
  · exact ⟨k.writable, (hstep.entering_next hcode hopen).resolve_left hleft⟩

/-! ## Closed sockets -/

lemma enter_of_closed (hclosed : s.closed S) :
    (enter s t a k).waiters S = s.waiters S ∧ (enter s t a k).lock S = s.lock S := by
  unfold enter
  split
  · split <;> exact ⟨rfl, rfl⟩
  · next hopen =>
    have hne : S ≠ k.socket := by
      rintro rfl
      exact hopen hclosed
    dsimp only
    split
    · simp [hne]
    · split
      · split
        · split <;> simp [hne]
        · simp [hne]
      · simp [hne]

lemma watchStep_waiters (hwaiters : s.waiters S = []) (hlock : s.lock S = none) :
    (watchStep s t a k ok x).waiters S = [] ∧ (watchStep s t a k ok x).lock S = none := by
  have hnone : update s.lock k.socket none S = none := by
    by_cases hS : S = k.socket
    · simp [hS]
    · simpa [hS] using hlock
  cases x with
  | rearm b =>
    simp only [watchStep]
    split
    · exact ⟨hwaiters, hnone⟩
    · exact ⟨hwaiters, hnone⟩
  | deregister b => cases ok <;> exact ⟨hwaiters, hlock⟩
  | register =>
    simp only [watchStep]
    split
    · exact ⟨hwaiters, hlock⟩
    · split <;> exact ⟨hwaiters, hlock⟩
  | reregister =>
    simp only [watchStep]
    split <;> exact ⟨hwaiters, hlock⟩
  | store => exact ⟨hwaiters, hnone⟩
  | giveUp =>
    refine ⟨?_, hnone⟩
    simp only [watchStep, State.forget, setCode_waiters, setLock_waiters, setWaiters_waiters,
      setOwner_waiters]
    obtain rfl | hS := eq_or_ne S k.socket
    · simp [hwaiters]
    · simpa [hS] using hwaiters

lemma emptied_step (hclosed : s.closed S) (hwaiters : s.waiters S = []) (hlock : s.lock S = none)
    (hstep : step s l = some s') : s'.waiters S = [] ∧ s'.lock S = none := by
  by_cases hwatch : ∃ t ok, l = .watch t ok
  · obtain ⟨t, ok, rfl⟩ := hwatch
    obtain ⟨a, hon, htask⟩ := Option.bind_eq_some_iff.mp hstep
    simp only [stepTask] at htask
    split at htask
    · obtain ⟨-, rfl⟩ := Transition.of_guard htask
      rw [(enter_of_closed hclosed).1, (enter_of_closed hclosed).2]
      exact ⟨hwaiters, hlock⟩
    · cases htask
      exact watchStep_waiters hwaiters hlock
    · cases htask
  · cases step_cases hstep with
    | task hon htask =>
      cases htask with
      | @forget w T io hcode _ =>
        refine ⟨?_, hlock⟩
        obtain rfl | hS := eq_or_ne S T
        · simp [State.forget, hwaiters]
        · simpa [State.forget, hS] using hwaiters
      | yield | suspend | succeed | block | waitIo | beginMultiWait | addIo | abandon | forgotten =>
        exact ⟨hwaiters, hlock⟩
      | _ => exact absurd ⟨_, _, rfl⟩ hwatch
    | @handle a e todo hact _ =>
      refine ⟨?_, hlock⟩
      obtain rfl | hS := eq_or_ne S e.socket
      · simp [hwaiters]
      · simpa [hS] using hwaiters
    | @close T _ =>
      refine ⟨?_, hlock⟩
      by_cases hS : S = T
      · simp [hS]
      · simpa [hS] using hwaiters
    | _ => exact ⟨hwaiters, hlock⟩

/-- What is known of a socket, wherever it is registered. -/
structure Awaited (S : ℕ) (s : State) : Prop where
  runs : Runs s
  suspended : Suspended s
  owned : Owned s
  locked : Locked s
  joins : Joins S s
  emptied : s.closed S = true → s.waiters S = [] ∧ s.lock S = none

lemma closed_back (hstep : step s l = some s') (hclosed : s'.closed S) :
    s.closed S ∨ (s'.waiters S = [] ∧ s'.lock S = none) := by
  cases step_cases hstep with
  | task hon htask => cases htask <;> exact .inl hclosed
  | @close T hlock =>
    obtain rfl | hS := eq_or_ne S T
    · exact .inr ⟨by simp, hlock⟩
    · exact .inl (by simpa [hS] using hclosed)
  | _ => exact .inl hclosed

lemma Awaited.step (h : Awaited S s) (hstep : step s l = some s') : Awaited S s' where
  runs := h.runs.step (step_cases hstep)
  suspended := h.suspended.step (step_cases hstep)
  owned := h.owned.step (step_cases hstep)
  locked := h.locked.step (step_cases hstep)
  joins := h.joins.step h.runs h.owned (step_cases hstep)
  emptied := by
    intro hclosed
    rcases closed_back hstep hclosed with hbefore | hnow
    · obtain ⟨hwaiters, hlock⟩ := h.emptied hbefore
      exact emptied_step hbefore hwaiters hlock hstep
    · exact hnow

lemma Awaited.replace (h : Awaited S s) : Awaited S (s.replace S) :=
  ⟨h.runs, h.suspended, ⟨h.owned.pos, h.owned.issued, h.owned.distinct⟩, h.locked,
    fun t w hopen => h.joins t w ⟨hopen.wait, hopen.unclaimed⟩, h.emptied⟩

lemma awaited_initial : Awaited S initial where
  runs := nofun
  suspended := nofun
  owned := owned_initial
  locked := nofun
  joins := fun _ _ hopen => nomatch hopen.wait
  emptied := nofun

/-- **A closed socket has no sleepers.** A task suspended in a wait on it that nobody has claimed is being
woken. -/
theorem Awaited.sleeper (h : Awaited S s) (hclosed : s.closed S) (hcode : s.code t = .asleep w io) (hmem : S ∈ io)
    (hwait : s.wait t = w) : ∃ a woken todo, s.act a = .waking S woken todo ∧ (t, w) ∈ woken := by
  have hopen : Open s t w := ⟨by rw [hcode]; rfl, hwait⟩
  obtain ⟨d, hmem | hwoken⟩ := h.joins t w hopen (by rw [hcode]; exact ⟨rfl, hmem⟩)
  · rw [(h.emptied hclosed).1] at hmem
    cases hmem
  · exact hwoken

end RocNet.Sockets
