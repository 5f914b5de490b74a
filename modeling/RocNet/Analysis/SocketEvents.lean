import RocNet.Analysis.SocketWaits

/-!
# Events for the tasks that wait on sockets

A task that sleeps on a socket has an event coming whenever the socket is ready: one is pending in the queue of the
socket's owner, or collected by a worker that has not handled it yet (`Armed`). Where `watch_io` neither registers nor
re-arms, because the socket's owner is the very worker that runs the task, the operation that failed before answers
for it (`Noticed`). So a wait is sure of its event once its task knows the operation to block (`tried`).
-/

namespace RocNet.Sockets

open Function List State

variable {s s' : State} {t a b S : ℕ} {d : Bool} {c : Code} {l : Label}

/-! ## Events for operations that failed -/

/-- For a socket registered with the queue of the worker that runs a task, an event is pending if the
socket became ready after the task's operation on it failed. -/
def Noticed (s : State) : Prop :=
  ∀ t a S d, s.on t = some a → (S, d) ∈ s.tried t → s.registered a S = true →
    s.ready S d = true → s.pending a S d = true

lemma Noticed.mono (h : Noticed s) (hon : ∀ t a, s'.on t = some a → s.on t = some a) (htried : s'.tried = s.tried)
    (hevents : ∀ t a S d, s.on t = some a → s'.registered a S → s'.ready S d →
      (s.registered a S → s.ready S d → s.pending a S d) →
      s'.pending a S d) : Noticed s' := by
  intro t a S d ht hmem hreg hready
  rw [htried] at hmem
  have hta := hon t a ht
  exact hevents t a S d hta hreg hready fun hr hd => h t a S d hta hmem hr hd

lemma pending_arm (h : s.pending a T e) : (s.arm b S).pending a T e := by
  obtain rfl | hab := eq_or_ne a b
  · by_cases hT : T = S
    · subst hT
      simp [State.arm, h]
    · simp [State.arm, hT, h]
  · simp [State.arm, hab, h]

lemma pending_arm_of_ready (h : s.ready S d) : (s.arm b S).pending b S d := by
  simp [State.arm, h]

/-- Taking a socket out of a queue loses events of that queue and socket only. -/
theorem pending_disarm (hreg : (s.disarm b S).registered a T) (h : s.registered a T → s.pending a T e) :
    (s.disarm b S).pending a T e := by
  obtain rfl | hab := eq_or_ne a b
  · by_cases hT : T = S
    · subst hT
      simp [State.disarm] at hreg
    · simpa [State.disarm, hT] using h (by simpa [State.disarm, hT] using hreg)
  · simpa [State.disarm, hab] using h (by simpa [State.disarm, hab] using hreg)

lemma Noticed.taskStep (h : Noticed s) (hstep : TaskStep s t a l s') : Noticed s' := by
  have hrelease : ∀ u b, update s.on t none u = some b → s.on u = some b := by
    intro u b hu
    by_cases hut : u = t
    · simp [hut] at hu
    · simpa [hut] using hu
  cases hstep with
  | yield hcode | suspend hcode =>
    exact h.mono hrelease rfl fun _ _ _ _ _ hreg hready hold => hold hreg hready
  | succeed hcode hready =>
    refine h.mono (fun _ _ hu => hu) rfl fun _ _ _ _ _ hreg hd hold => ?_
    exact hold hreg (ready_of_setReady (fun _ => hready) hd)
  | @block S d drain hcode hready =>
    intro u b T e hu hmem hreg hd
    obtain rfl | hut := eq_or_ne u t
    · simp only [setTried_tried, update_self, mem_cons, Prod.mk.injEq] at hmem
      rcases hmem with ⟨rfl, rfl⟩ | hmem
      · rw [show s.ready T e from hd] at hready
        cases hready
      · exact h u b T e hu hmem hreg hd
    · simp only [setTried_tried, update_of_ne hut] at hmem
      exact h u b T e hu hmem hreg hd
  | rearmed hcode hreg | reregistered hcode =>
    refine h.mono (fun _ _ hu => hu) rfl fun _ _ _ _ _ hreg hd hold => ?_
    exact pending_arm (hold hreg hd)
  | deregistered hcode =>
    refine h.mono (fun _ _ hu => hu) rfl fun _ _ _ _ _ hreg hd hold => ?_
    exact pending_disarm hreg fun hr => hold hr hd
  | @registered k ok hcode =>
    refine h.mono (fun _ _ hu => hu) rfl fun u b T e _ hreg hd hold => ?_
    by_cases hnew : b = a ∧ T = k.socket
    · obtain ⟨rfl, rfl⟩ := hnew
      exact pending_arm_of_ready hd
    · refine pending_arm (hold ?_ hd)
      obtain rfl | hba := eq_or_ne b a
      · simpa [State.arm, show T ≠ k.socket from fun hT => hnew ⟨rfl, hT⟩] using hreg
      · simpa [State.arm, hba] using hreg
  | _ => exact h

lemma Noticed.step (h : Noticed s) (hw : Watched s) (hstep : Step s l s') : Noticed s' := by
  cases hstep with
  | task hon hstep => exact h.taskStep hstep
  | @resume t a hact hon =>
    intro u b T e hu hmem hreg hd
    obtain rfl | hut := eq_or_ne u t
    · simp at hmem
    · simp only [setAct_tried, setOn_tried, setCode_tried, setTried_tried,
        update_of_ne hut] at hmem
      exact h u b T e (by simpa [hut] using hu) hmem hreg hd
  | @rise S d =>
    refine h.mono (fun _ _ hu => hu) rfl fun u b T e _ hreg hd hold => ?_
    have hreg' : s.registered b T := hreg
    obtain rfl | hT := eq_or_ne T S
    · by_cases he : e = d
      · simp [State.rise, he, hreg']
      · simpa [State.rise, he] using hold hreg' (by simpa [State.rise, he] using hd)
    · simpa [State.rise, hT] using hold hreg' (by simpa [State.rise, hT] using hd)
  | fall =>
    refine h.mono (fun _ _ hu => hu) rfl fun _ _ _ _ _ hreg hd hold => ?_
    exact hold hreg (ready_of_setReady (by simp) hd)
  | @observe S d hready =>
    intro u b T e hu hmem hreg hd
    rcases mem_cons.mp hmem with heq | hmem
    · cases heq
      rw [show s.ready S d from hd] at hready
      cases hready
    · exact h u b T e hu hmem hreg hd
  | @collect a events hact hreports =>
    refine h.mono (fun _ _ hu => hu) rfl fun u b T e hu hreg hd hold => ?_
    have hba : b ≠ a := by
      rintro rfl
      have hrun := hw.running u b hu
      rw [hact] at hrun
      cases hrun
    simpa [hba] using hold hreg hd
  | _ => exact h

/-! ## Armed waiters -/

/-- The events a worker has collected and not handled. -/
def Act.todo : Act → List Event
  | .handling todo | .waking _ _ todo => todo
  | .idle | .running _ => []

/-- A worker has collected an event for a direction of a socket and not handled it. -/
def Collected (s : State) (S : ℕ) (d : Bool) : Prop :=
  ∃ a, ∃ e ∈ (s.act a).todo, e.socket = S ∧ e.hits d = true

/-- The socket is registered with a queue, its recorded owner's if there is one, and given `p`, if it
is ready an event is pending there or collected. -/
def Armed (s : State) (S : ℕ) (d : Bool) (p : Prop) : Prop :=
  ∃ a, s.registered a S = true ∧ (s.owner S = some a ∨ s.owner S = none) ∧
    (p → s.ready S d = true → s.pending a S d = true ∨ Collected s S d)

/-- Whether a task's wait is that of a waiter of `S`, but for one that is being added. -/
def Code.holds (S : ℕ) (x : IoWaiter) : Code → Prop
  | .opened w _ | .armed w _ | .asleep w _ => x.wait = w
  | .entering k => x.wait = k.wait
  | .watching k _ => x.wait = k.wait ∧ ¬ (k.socket = S ∧ k.writable = x.writable)
  | .free | .failed _ _ | .forgetting _ _ => False

/-- The waiters of waits that are open are armed, once their tasks know the operation to block. -/
def Waits (s : State) : Prop :=
  ∀ S, ∀ x ∈ s.waiters S, (s.code x.task).holds S x → Armed s S x.writable ((S, x.writable) ∈ s.tried x.task)

/-- Registrations stay, and so does every event. -/
theorem Armed.mono {p q : Prop} (h : Armed s S d p) (hreg : ∀ a, s.registered a S → s'.registered a S)
    (howner : s'.owner S = s.owner S ∨ s'.owner S = none) (hpq : q → p) (hevents : ∀ a, s.registered a S →
      (s.ready S d → s.pending a S d ∨ Collected s S d) →
      s'.ready S d → s'.pending a S d ∨ Collected s' S d) : Armed s' S d q := by
  obtain ⟨a, ha, hown, hold⟩ := h
  refine ⟨a, hreg a ha, ?_, fun hq => hevents a ha (hold (hpq hq))⟩
  rcases howner with howner | howner
  · rwa [howner]
  · exact .inr howner

lemma Collected.mono (h : Collected s S d)
    (hact : ∀ a, ∀ e ∈ (s.act a).todo, e.hits d → e.socket = S → e ∈ (s'.act a).todo) : Collected s' S d := by
  obtain ⟨a, e, he, hS, hd⟩ := h
  exact ⟨a, e, hact a e he hd hS, hS, hd⟩

lemma collected_setAct (h : Collected s S d) (hx : (s.act a).todo ⊆ x.todo) : Collected (s.setAct a x) S d := by
  refine h.mono fun b e he _ _ => ?_
  obtain rfl | hba := eq_or_ne b a
  · simpa using hx he
  · simpa [hba] using he

variable {x : IoWaiter} {k : Watch}

lemma holds_update (hc : x.task = t → c.holds S x → (s.code t).holds S x)
    (h : (update s.code t c x.task).holds S x) : (s.code x.task).holds S x := by
  by_cases hx : x.task = t
  · rw [hx, update_self] at h
    rw [hx]
    exact hc hx h
  · rwa [update_of_ne hx] at h

/-- **The rule for steps that leave events alone.** -/
theorem Waits.quiet (h : Waits s) (hwaiters : ∀ S, ∀ x ∈ s'.waiters S, x ∈ s.waiters S)
    (hcode : ∀ S, ∀ x ∈ s.waiters S, (s'.code x.task).holds S x → (s.code x.task).holds S x)
    (hreg : s'.registered = s.registered) (howner : s'.owner = s.owner) (hpend : s'.pending = s.pending)
    (htried : s'.tried = s.tried) (hready : ∀ S d, s'.ready S d → s.ready S d)
    (hact : ∀ S d, Collected s S d → Collected s' S d) : Waits s' := by
  intro S x hx hholds
  have hmem := hwaiters S x hx
  refine (h S x hmem (hcode S x hmem hholds)).mono (by simp [hreg]) (.inl (by rw [howner]))
    (by simp [htried]) fun a _ hold hd => ?_
  rw [hpend]
  exact (hold (hready _ _ hd)).imp_right (hact S x.writable)

lemma holds_added (h : k.added.holds S x) : x.wait = k.wait := by
  unfold Watch.added at h
  split at h <;> exact h

lemma not_holds_refused : ¬ k.refused.holds S x := by
  unfold Watch.refused
  split <;> exact id

lemma Waits.added (h : Waits s) {x : WatchStep} (hcode : s.code t = .watching k x)
    (hnew : s'.code = update s.code t k.added) (hwaiters : s'.waiters = s.waiters) (htried : s'.tried = s.tried)
    (harmed : ∀ p, Armed s' k.socket k.writable p) (hmono : ∀ S d p, Armed s S d p → Armed s' S d p) : Waits s' := by
  intro S y hy hholds
  rw [hwaiters] at hy
  rw [hnew] at hholds
  rw [htried]
  by_cases hyt : y.task = t
  · rw [hyt, update_self] at hholds
    by_cases hself : k.socket = S ∧ k.writable = y.writable
    · obtain ⟨rfl, hd⟩ := hself
      rw [← hd]
      exact harmed _
    · refine hmono S y.writable _ (h S y hy ?_)
      rw [hyt, hcode]
      exact ⟨holds_added hholds, hself⟩
  · rw [update_of_ne hyt] at hholds
    exact hmono S y.writable _ (h S y hy hholds)

lemma Armed.arm {p : Prop} (h : Armed s S d p) : Armed (s.arm b a) S d p :=
  h.mono (fun _ hr => hr) (.inl rfl) id fun _ _ hold hd => (hold hd).imp_left pending_arm

lemma Waits.push (h : Waits s) (hcode : s.code t = .entering k)
    (hwaiters : s'.waiters = update s.waiters k.socket (s.waiters k.socket ++ [k.waiter t]))
    (hnew : s'.code = update s.code t c) (htried : s'.tried = s.tried)
    (hc : ∀ S y, c.holds S y → y.wait = k.wait) (hself : c.holds k.socket (k.waiter t) →
      Armed s' k.socket k.writable ((k.socket, k.writable) ∈ s.tried t))
    (hmono : ∀ S d p, Armed s S d p → Armed s' S d p) : Waits s' := by
  intro S y hy hholds
  rw [hnew] at hholds
  rw [htried]
  have hold : y ∈ s.waiters S → Armed s' S y.writable ((S, y.writable) ∈ s.tried y.task) := by
    intro hmem
    refine hmono S y.writable _ (h S y hmem (holds_update (fun _ hh => ?_) hholds))
    rw [hcode]
    exact hc S y hh
  rw [hwaiters] at hy
  obtain rfl | hS := eq_or_ne S k.socket
  · simp only [update_self, mem_append, mem_singleton] at hy
    rcases hy with hmem | rfl
    · exact hold hmem
    · refine hself ?_
      simpa [Watch.waiter] using hholds
  · rw [update_of_ne hS] at hy
    exact hold hy

lemma Waits.begin (h : Waits s) {x : WatchStep} (hcode : s.code t = .entering k) : Waits (s.begin t k x) :=
  h.push hcode rfl rfl rfl (fun _ _ hh => hh.1) (fun hh => absurd ⟨rfl, rfl⟩ hh.2) fun _ _ _ ha => ha

lemma Waits.taskStep (h : Waits s) (hw : Watched s) (hn : Noticed s) (hon : s.on t = some a)
    (hstep : TaskStep s t a l s') : Waits s' := by
  have hok := hw.code t
  have hrun := hw.running t a hon
  have hall : ∀ S, ∀ x ∈ s.waiters S, x ∈ s.waiters S := fun _ _ hx => hx
  have hready : ∀ S d, s.ready S d → s.ready S d := fun _ _ hd => hd
  have hact : ∀ S d, Collected s S d → Collected s S d := fun _ _ hd => hd
  have hcont : ∀ {c : Code}, (∀ S x, c.holds S x → (s.code t).holds S x) →
      ∀ S, ∀ x ∈ s.waiters S, (update s.code t c x.task).holds S x → (s.code x.task).holds S x :=
    fun hc S x _ hh => holds_update (fun _ => hc S x) hh
  have hidle : ∀ S d, Collected s S d → Collected (s.setAct a .idle) S d :=
    fun S d hcol => collected_setAct hcol (by simp [hrun, Act.todo])
  cases hstep with
  | yield hcode => exact h.quiet hall (fun _ _ _ hh => hh) rfl rfl rfl rfl hready hidle
  | suspend hcode =>
    refine h.quiet hall (hcont fun S x hh => ?_) rfl rfl rfl rfl hready hidle
    rcases hcode with hcode | hcode
    · rw [hcode]
      exact hh
    · rw [hcode]
      exact hh
  | succeed hcode hd =>
    exact h.quiet hall (fun _ _ _ hh => hh) rfl rfl rfl rfl (fun _ _ => ready_of_setReady fun _ => hd) hact
  | @block S d drain hcode hd =>
    intro T x hx hholds
    have htask : x.task ≠ t := by
      rintro rfl
      rw [setTried_code, hcode] at hholds
      exact hholds
    rw [setTried_tried, update_of_ne htask]
    exact h T x hx hholds
  | waitIo | beginMultiWait =>
    refine h.quiet hall (fun S x hx hh => holds_update (fun _ hnew => ?_) hh) rfl rfl rfl rfl hready hact
    exact absurd (hw.fresh S x hx) (hnew ▸ Nat.lt_irrefl _)
  | addIo hcode | notDeregistered hcode | alreadyExists hcode =>
    exact h.quiet hall (hcont fun S x hh => hcode ▸ hh) rfl rfl rfl rfl hready hact
  | abandon | closedWait | forgotten =>
    exact h.quiet hall (hcont fun S x hh => hh.elim) rfl rfl rfl rfl hready hact
  | closedAdd | notRearmed =>
    exact h.quiet hall (hcont fun S x hh => (not_holds_refused hh).elim) rfl rfl rfl rfl hready hact
  | @mine k ok hcode hlock howner =>
    rw [hcode] at hok
    refine h.push hcode rfl rfl rfl (fun _ _ hh => holds_added hh) (fun _ => ?_) fun _ _ _ ha => ha
    -- this worker has collected no event since the operation failed
    have hreg := hw.owner _ _ hlock howner
    exact ⟨a, hreg, .inl howner, fun htr hd => .inl (hn t a _ _ hon htr hreg hd)⟩
  | shared hcode | alone hcode | unowned hcode => exact h.begin hcode
  | @rearmed k b ok hcode hreg =>
    rw [hcode] at hok
    obtain ⟨-, -, e, -, howner, -⟩ := hok
    refine h.added hcode rfl rfl rfl (fun _ => ?_) fun _ _ _ ha => ha.arm
    exact ⟨b, hreg, .inl howner, fun _ hd => .inl (pending_arm_of_ready hd)⟩
  | @deregistered k b ok hcode =>
    rw [hcode] at hok
    obtain ⟨-, -, e, -, hself⟩ := hok
    intro S x hx hholds
    have hold : (s.code x.task).holds S x := holds_update (fun _ hh => hcode ▸ hh) hholds
    by_cases hS : S = k.socket
    · -- the only waiter is the one being added
      subst hS
      rw [hself x hx, show (k.waiter t).task = t from rfl, hcode] at hold
      exact absurd ⟨rfl, rfl⟩ hold.2
    · have hsame : SameSocket s (s.disarm b k.socket) S := (SameSocket.refl.setRegistered hS).setPending hS
      refine (h S x hx hold).mono (fun c hc => (hsame.registered c).trans hc) (.inl rfl) id
        fun c _ hev hd => (hev hd).imp_left fun hp => (hsame.pending c _).trans hp
  | @registered k ok hcode =>
    intro S x hx hholds
    have hold := holds_update (fun _ hh => hcode ▸ hh) hholds
    have hreg : ∀ c, s.registered c S → (s.setRegistered a k.socket true).registered c S := by
      intro c hc
      obtain rfl | hca := eq_or_ne c a
      · by_cases hS : S = k.socket
        · simp [hS]
        · simpa [hS] using hc
      · simpa [hca] using hc
    exact (h S x hx hold).mono hreg (.inl rfl) id fun c _ hev hd => (hev hd).imp_left pending_arm
  | reregistered hcode =>
    intro S x hx hholds
    have hold := holds_update (fun _ hh => hcode ▸ hh) hholds
    exact (h S x hx hold).arm
  | notRegistered hcode =>
    refine h.quiet hall (hcont fun S x hh => ?_) rfl rfl rfl rfl hready hact
    rcases hcode with hcode | hcode
    · rw [hcode]
      exact hh
    · rw [hcode]
      exact hh
  | @store k ok hcode =>
    rw [hcode] at hok
    obtain ⟨-, -, e, he, hreg, hpend⟩ := hok
    cases hon.symm.trans he
    have harmed : ∀ d p, Armed ((s.setOwner k.socket (some a)).setLock k.socket none) k.socket d p :=
      fun d p => ⟨a, hreg, .inl (by simp), fun _ hd => .inl (hpend d hd)⟩
    refine h.added hcode rfl rfl rfl (harmed _) fun S d p ha => ?_
    obtain rfl | hS := eq_or_ne S k.socket
    · exact harmed d p
    · exact ha.mono (fun _ hr => hr) (.inl (by simp [hS])) id fun _ _ hev hd => hev hd
  | @giveUp k ok hcode =>
    intro S x hx hholds
    have hold := holds_update (fun _ hh => (not_holds_refused hh).elim) hholds
    have hmem : x ∈ s.waiters S := mem_of_mem_forget (s := s.setOwner k.socket none) hx
    refine (h S x hmem hold).mono (fun _ hr => hr) ?_ id fun _ _ hev hd => hev hd
    by_cases hS : S = k.socket
    · exact .inr (by simp [State.forget, hS])
    · exact .inl (by simp [State.forget, hS])
  | @forget w T io hcode hlock =>
    exact h.quiet (fun S x hx => mem_of_mem_forget (s := s) hx) (hcont fun S x hh => hh.elim) rfl rfl rfl
      rfl hready hact

lemma Waits.step (h : Waits s) (hw : Watched s) (hn : Noticed s) (hstep : Step s l s') : Waits s' := by
  have hall : ∀ S, ∀ x ∈ s.waiters S, x ∈ s.waiters S := fun _ _ hx => hx
  have hcodes : ∀ S, ∀ x ∈ s.waiters S, (s.code x.task).holds S x → (s.code x.task).holds S x := fun _ _ _ hh => hh
  have hready : ∀ S d, s.ready S d → s.ready S d := fun _ _ hd => hd
  cases hstep with
  | task hon hstep => exact h.taskStep hw hn hon hstep
  | @resume t a hact hon =>
    intro S x hx hholds
    have hold : (s.code x.task).holds S x := by
      refine holds_update (fun _ hnew => ?_) hholds
      revert hnew
      cases s.code t with
      | asleep w io => exact fun hnew => hnew.elim
      | _ => exact fun hnew => hnew
    have htried : (S, x.writable) ∈ update s.tried t [] x.task → (S, x.writable) ∈ s.tried x.task := by
      by_cases hxt : x.task = t
      · simp [hxt]
      · simp [hxt]
    refine (h S x hx hold).mono (fun _ hr => hr) (.inl rfl) htried fun c _ hev hd => ?_
    exact (hev hd).imp_right fun hcol => collected_setAct hcol (by simp [hact, Act.todo])
  | claim | publish => exact h
  | @rise S d =>
    intro T x hx hholds
    refine (h T x hx hholds).mono (fun _ hr => hr) (.inl rfl) id fun c hreg hev hd => ?_
    obtain rfl | hT := eq_or_ne T S
    · by_cases he : x.writable = d
      · exact .inl (by simp [State.rise, he, hreg])
      · refine (hev (by simpa [State.rise, he] using hd)).imp_left fun hp => ?_
        simpa [State.rise, he] using hp
    · refine (hev (by simpa [State.rise, hT] using hd)).imp_left fun hp => ?_
      simpa [State.rise, hT] using hp
  | fall =>
    exact h.quiet hall hcodes rfl rfl rfl rfl (fun _ _ => ready_of_setReady (by simp)) fun _ _ hc => hc
  | @observe S d hd =>
    intro T x hx hholds
    obtain ⟨c, hreg, howner, hev⟩ := h T x hx hholds
    refine ⟨c, hreg, howner, fun htr hready => ?_⟩
    rcases mem_cons.mp htr with heq | htr
    · cases heq
      rw [show s.ready _ x.writable from hready] at hd
      cases hd
    · exact hev htr hready
  | @collect a events hact hreports =>
    intro T x hx hholds
    refine (h T x hx hholds).mono (fun _ hr => hr) (.inl rfl) id fun c hreg hev hd => ?_
    rcases hev hd with hp | hcol
    · obtain rfl | hca := eq_or_ne c a
      · cases hany : events.any (·.socket == T) with
        | false => exact .inl (by simpa [hany] using hp)
        | true =>
          obtain ⟨e, he, heq⟩ := List.any_eq_true.mp hany
          have hT : e.socket = T := by simpa using heq
          subst hT
          exact .inr ⟨c, e, by simpa [Act.todo] using he, rfl, hreports e he _ hp hd⟩
      · exact .inl (by simpa [hca] using hp)
    · exact .inr (collected_setAct hcol (by simp [hact, Act.todo]))
  | done hact | wokeAll hact | wake hact =>
    exact h.quiet hall hcodes rfl rfl rfl rfl hready fun S d hcol => collected_setAct hcol (by simp [hact, Act.todo])
  | @handle a e todo hact hlock =>
    intro T x hx hholds
    -- a waiter that is still there was not what the event is for
    have hmem : x ∈ s.waiters T ∧ (e.socket = T → e.hits x.writable = false) := by
      obtain rfl | hT := eq_or_ne T e.socket
      · simp only [setAct_waiters, setWaiters_waiters, update_self] at hx
        obtain ⟨hx, hmiss⟩ := mem_filter.mp hx
        exact ⟨hx, fun _ => by simpa using hmiss⟩
      · exact ⟨by simpa [hT] using hx, fun hT' => absurd hT'.symm hT⟩
    refine (h T x hmem.1 hholds).mono (fun _ hr => hr) (.inl rfl) id fun c hreg hev hd => ?_
    refine (hev hd).imp_right fun hcol => hcol.mono fun b e' he' hhit hsock => ?_
    obtain rfl | hba := eq_or_ne b a
    · rw [hact] at he'
      simp only [Act.todo, mem_cons] at he'
      rcases he' with rfl | he'
      · rw [hmem.2 hsock] at hhit
        cases hhit
      · simpa [Act.todo] using he'
    · simpa [hba] using he'
  | @close S hlock =>
    refine h.quiet (fun T x hx => ?_) hcodes rfl rfl rfl rfl hready fun _ _ hc => hc
    obtain rfl | hT := eq_or_ne T S
    · simp at hx
    · simpa [hT] using hx

/-! ## Runs -/

structure Readiness (s : State) : Prop where
  watched : Watched s
  owned : Owned s
  noticed : Noticed s
  waits : Waits s

lemma readiness_of_reachable (h : Transition.Reachable system s) : Readiness s := by
  refine Transition.Reachable.invariant (fun r hr => ?_) (fun r l r' hr hs => ?_) h
  · cases hr
    refine ⟨watched_initial, owned_initial, fun t a S d hon => ?_, fun S x hx => ?_⟩
    · cases hon
    · cases hx
  · have hstep := step_cases hs
    exact ⟨hr.watched.step hstep, hr.owned.step hstep, hr.noticed.step hr.watched hstep,
      hr.waits.step hr.watched hr.noticed hstep⟩

/-- Task `t` is suspended in a wait nobody has claimed, registered for a direction of `S`. -/
structure Sleeps (s : State) (t S : ℕ) (writable : Bool) : Prop where
  suspended : ∃ w io, s.code t = .asleep w io
  registered : ⟨t, s.wait t, writable⟩ ∈ s.waiters S
  unclaimed : ∀ w io, s.code t = .asleep w io → s.wait t = w

/-- An event for a direction of `S` is pending in the queue of its recorded owner; where a failed
registration left none recorded, of a worker it is registered with. -/
def PendingAtOwner (s : State) (S : ℕ) (writable : Bool) : Prop :=
  ∃ a, (s.owner S = some a ∨ s.owner S = none ∧ s.registered a S = true) ∧ s.pending a S writable = true

/-- A worker has collected an event for a direction of `S`, and not finished waking its waiters. -/
def Handling (s : State) (S : ℕ) (writable : Bool) : Prop :=
  Collected s S writable ∨ ∃ a woken todo, s.act a = .waking S woken todo

/-- A task that sleeps on an operation it knows to block has an event coming if the socket is ready. -/
theorem Readiness.sleeper (h : Readiness s) (hsleeps : Sleeps s t S d) (htried : (S, d) ∈ s.tried t)
    (hready : s.ready S d) : PendingAtOwner s S d ∨ Handling s S d := by
  obtain ⟨w, io, hcode⟩ := hsleeps.suspended
  have hholds : (s.code t).holds S ⟨t, s.wait t, d⟩ := by
    rw [hcode]
    exact hsleeps.unclaimed w io hcode
  obtain ⟨a, hreg, howner, hevent⟩ := h.waits S _ hsleeps.registered hholds
  rcases hevent htried hready with hp | hcol
  · exact .inl ⟨a, howner.imp_right fun hnone => ⟨hnone, hreg⟩, hp⟩
  · exact .inr (.inl hcol)

end RocNet.Sockets
