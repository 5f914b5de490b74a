import RocNet.Model.SocketSteps

/-!
# Who is inside `watch_io`, and where sockets are registered

`watch_io` works on one socket, holding the lock of its waiters. `Watched` says what it has established at each of its
steps (`StepOk`), and that a socket nobody holds is registered with the queue of its recorded owner.
-/

namespace RocNet.Sockets

open Function List State

variable {s s' : State} {t a b S : ℕ} {c : Code} {l : Label}

/-! ## Waiters -/

lemma mem_setWaiters {T : ℕ} {x : IoWaiter} {l : List IoWaiter} (h : x ∈ (s.setWaiters T l).waiters S) :
    S = T ∧ x ∈ l ∨ S ≠ T ∧ x ∈ s.waiters S := by
  obtain rfl | hS := eq_or_ne S T
  · exact .inl ⟨rfl, by simpa using h⟩
  · exact .inr ⟨hS, by simpa [hS] using h⟩

variable {x : WatchStep} {n : ℕ} {k : Watch} {d : Bool}

lemma mem_of_mem_forget {T : ℕ} {x : IoWaiter} (h : x ∈ (s.forget T n).waiters S) : x ∈ s.waiters S := by
  rcases mem_setWaiters h with ⟨rfl, hx⟩ | ⟨-, hx⟩
  · exact (mem_filter.mp hx).1
  · exact hx

/-! ## What a step leaves alone -/

structure SameSocket (s s' : State) (S : ℕ) : Prop where
  lock : s'.lock S = s.lock S
  owner : s'.owner S = s.owner S
  waiters : s'.waiters S = s.waiters S
  registered : ∀ a, s'.registered a S = s.registered a S
  pending : ∀ a d, s'.pending a S d = s.pending a S d

lemma SameSocket.refl : SameSocket s s S := ⟨rfl, rfl, rfl, fun _ => rfl, fun _ _ => rfl⟩

section Setters

variable {T : ℕ} (h : SameSocket s s' S)
include h

lemma SameSocket.setCode : SameSocket s (s'.setCode t c) S :=
  ⟨h.lock, h.owner, h.waiters, h.registered, h.pending⟩

lemma SameSocket.setWaiters {l : List IoWaiter} (hS : S ≠ T) : SameSocket s (s'.setWaiters T l) S :=
  ⟨h.lock, h.owner, by simp [hS, h.waiters], h.registered, h.pending⟩

variable {o : Option ℕ}

lemma SameSocket.setLock (hS : S ≠ T) : SameSocket s (s'.setLock T o) S :=
  ⟨by simp [hS, h.lock], h.owner, h.waiters, h.registered, h.pending⟩

lemma SameSocket.setOwner (hS : S ≠ T) : SameSocket s (s'.setOwner T o) S :=
  ⟨h.lock, by simp [hS, h.owner], h.waiters, h.registered, h.pending⟩

lemma SameSocket.setPending {f : Bool → Bool} (hS : S ≠ T) :
    SameSocket s (s'.setPending b (update (s'.pending b) T f)) S := by
  refine ⟨h.lock, h.owner, h.waiters, h.registered, fun a d => ?_⟩
  rw [← h.pending a d]
  obtain rfl | hab := eq_or_ne a b
  · simp [hS]
  · simp [hab]

lemma SameSocket.setRegistered {x : Bool} (hS : S ≠ T) : SameSocket s (s'.setRegistered b T x) S := by
  refine ⟨h.lock, h.owner, h.waiters, fun a => ?_, h.pending⟩
  rw [← h.registered a]
  obtain rfl | hab := eq_or_ne a b
  · simp [hS]
  · simp [hab]

end Setters

/-! ## The invariant -/

/-- What `watch_io` has established, by what it is about to do. -/
def StepOk (s : State) (t a : ℕ) (k : Watch) : WatchStep → Prop
  | .rearm b => s.owner k.socket = some b ∧ s.registered b k.socket = true
  -- nobody else waits on a socket that is taken out of its owner's queue
  | .deregister _ => ∀ x ∈ s.waiters k.socket, x = k.waiter t
  | .reregister => s.registered a k.socket = true
  -- registering reported the readiness that was there, and this worker collects no events
  | .store => s.registered a k.socket = true ∧ ∀ d, s.ready k.socket d = true → s.pending a k.socket d = true
  | .register | .giveUp => True

def CodeOk (s : State) (t : ℕ) : Code → Prop
  | .opened w _ | .armed w _ => w < s.nextWait ∧ ∃ a, s.on t = some a
  | .asleep w _ => w < s.nextWait
  | .entering k => k.wait < s.nextWait ∧ ∃ a, s.on t = some a
  | .watching k x => k.wait < s.nextWait ∧ s.lock k.socket = some t ∧ ∃ a, s.on t = some a ∧ StepOk s t a k x
  | .free | .failed _ _ | .forgetting _ _ => True

structure Watched (s : State) : Prop where
  running : ∀ t a, s.on t = some a → s.act a = .running t
  code : ∀ t, CodeOk s t (s.code t)
  fresh : ∀ S, ∀ x ∈ s.waiters S, x.wait < s.nextWait
  owner : ∀ S a, s.lock S = none → s.owner S = some a → s.registered a S = true

/-- The code of a task whose place did not change, nor its socket but for events. -/
theorem CodeOk.of_events (h : CodeOk s t c) (hnext : s.nextWait ≤ s'.nextWait) (hon : s'.on t = s.on t)
    (hsock : ∀ k x, c = .watching k x → s'.lock k.socket = s.lock k.socket ∧
      s'.owner k.socket = s.owner k.socket ∧ s'.waiters k.socket = s.waiters k.socket ∧
      ∀ a, s'.registered a k.socket = s.registered a k.socket)
    (hevents : ∀ k a d, c = .watching k .store → s.on t = some a → s.registered a k.socket →
      (s.ready k.socket d → s.pending a k.socket d) →
      s'.ready k.socket d → s'.pending a k.socket d) : CodeOk s' t c := by
  cases c with
  | opened w io | armed w io | entering k => exact ⟨Nat.lt_of_lt_of_le h.1 hnext, hon ▸ h.2⟩
  | asleep w io => exact Nat.lt_of_lt_of_le h hnext
  | watching k x =>
    obtain ⟨hk, hlock, a, ha, hstep⟩ := h
    obtain ⟨hlock', howner, hwaiters, hreg⟩ := hsock k x rfl
    refine ⟨Nat.lt_of_lt_of_le hk hnext, hlock'.trans hlock, a, hon.trans ha, ?_⟩
    cases x with
    | rearm b => exact ⟨howner.trans hstep.1, (hreg b).trans hstep.2⟩
    | deregister b =>
      intro x hx
      rw [hwaiters] at hx
      exact hstep x hx
    | register | giveUp => trivial
    | reregister => exact (hreg a).trans hstep
    | store =>
      exact ⟨(hreg a).trans hstep.1, fun d => hevents k a d rfl ha hstep.1 (hstep.2 d)⟩
  | free | failed w io | forgetting w io => trivial

lemma CodeOk.mono (h : CodeOk s t c) (hnext : s.nextWait ≤ s'.nextWait) (hon : s'.on t = s.on t)
    (hsock : ∀ k x, c = .watching k x → SameSocket s s' k.socket)
    (hready : ∀ k, c = .watching k .store → ∀ d, s'.ready k.socket d → s.ready k.socket d) : CodeOk s' t c := by
  refine h.of_events hnext hon (fun k x hk => ?_) fun k a d hk _ _ hold hd => ?_
  · have hsame := hsock k x hk
    exact ⟨hsame.lock, hsame.owner, hsame.waiters, hsame.registered⟩
  · rw [(hsock k .store hk).pending a d]
    exact hold (hready k hk d hd)

lemma Watched.ne_socket (h : Watched s) (hu : u ≠ t) (hcode : s.code u = .watching k x)
    (hS : s.lock S = none ∨ s.lock S = some t) : k.socket ≠ S := by
  rintro rfl
  have hcodeOk := h.code u
  rw [hcode] at hcodeOk
  have hlock := hcodeOk.2.1
  rcases hS with hnone | hsome
  · rw [hnone] at hlock
    cases hlock
  · rw [hsome] at hlock
    exact hu (Option.some.inj hlock).symm

/-- **The rule for a task's code.** It changes at most one socket, whose lock it holds or nobody
does. -/
theorem Watched.touch (h : Watched s) (hS : s.lock S = none ∨ s.lock S = some t) (hsame : ∀ T ≠ S, SameSocket s s' T)
    (hact : s'.act = s.act) (hon : s'.on = s.on) (hcode : s'.code = update s.code t c)
    (hnext : s.nextWait ≤ s'.nextWait) (hready : ∀ T d, s'.ready T d → s.ready T d) (hc : CodeOk s' t c)
    (hfresh : ∀ x ∈ s'.waiters S, x.wait < s'.nextWait)
    (howner : ∀ a, s'.lock S = none → s'.owner S = some a → s'.registered a S) : Watched s' := by
  refine ⟨?_, fun u => ?_, fun T x hx => ?_, fun T a hl ho => ?_⟩
  · rw [hon, hact]
    exact h.running
  · rw [hcode]
    obtain rfl | hu := eq_or_ne u t
    · rwa [update_self]
    · rw [update_of_ne hu]
      refine (h.code u).mono hnext (by rw [hon]) (fun k x hk => ?_) fun k _ d hd => hready _ d hd
      exact hsame _ (h.ne_socket hu hk hS)
  · obtain rfl | hT := eq_or_ne T S
    · exact hfresh x hx
    · rw [(hsame T hT).waiters] at hx
      exact Nat.lt_of_lt_of_le (h.fresh T x hx) hnext
  · obtain rfl | hT := eq_or_ne T S
    · exact howner a hl ho
    · rw [(hsame T hT).lock] at hl
      rw [(hsame T hT).owner] at ho
      rw [(hsame T hT).registered]
      exact h.owner T a hl ho

lemma Watched.setCode (h : Watched s) (hc : CodeOk s t c) : Watched (s.setCode t c) := by
  refine ⟨h.running, ?_, h.fresh, h.owner⟩
  exact (forall_update_iff s.code (CodeOk s)).mpr ⟨hc, fun u _ => h.code u⟩

lemma Watched.setWait (h : Watched s) : Watched (s.setWait t n) :=
  ⟨h.running, h.code, h.fresh, h.owner⟩

lemma Watched.nextWait (h : Watched s) : Watched { s with nextWait := s.nextWait + 1 } := by
  refine ⟨h.running, fun u => ?_, fun T x hx => Nat.lt_succ_of_lt (h.fresh T x hx), h.owner⟩
  exact (h.code u).mono (Nat.le_succ _) rfl
    (fun _ _ _ => ⟨rfl, rfl, rfl, fun _ => rfl, fun _ _ => rfl⟩) fun _ _ _ hd => hd

lemma Watched.begin (h : Watched s) (hcode : s.code t = .entering k)
    (hon : s.on t = some a) (hlock : s.lock k.socket = none)
    (hx : StepOk (s.setWaiters k.socket (s.waiters k.socket ++ [k.waiter t])) t a k x) : Watched (s.begin t k x) := by
  have hk := h.code t
  rw [hcode] at hk
  refine h.touch (S := k.socket) (.inl hlock) (fun T hT => ?_) rfl rfl rfl (Nat.le_refl _)
    (fun _ _ hd => hd) ⟨hk.1, by simp [State.begin], a, hon, hx⟩ ?_ ?_
  · exact ((SameSocket.refl.setWaiters hT).setLock hT).setCode
  · intro x hx
    simp only [State.begin, setCode_waiters, setLock_waiters, setWaiters_waiters,
      update_self, mem_append, mem_singleton] at hx
    rcases hx with hx | rfl
    · exact h.fresh _ x hx
    · exact hk.1
  · intro b hb
    simp [State.begin] at hb

lemma codeOk_added (hk : k.wait < s.nextWait) (hon : s.on t = some a) : CodeOk s t k.added := by
  unfold Watch.added
  split
  · exact ⟨hk, a, hon⟩
  · exact ⟨hk, a, hon⟩

lemma codeOk_refused : CodeOk s t k.refused := by
  unfold Watch.refused
  split <;> trivial

lemma ready_of_setReady {T : ℕ} {b e : Bool} (hb : b → s.ready S d)
    (h : (s.setReady S d b).ready T e) : s.ready T e := by
  obtain rfl | hT := eq_or_ne T S
  · by_cases he : e = d
    · subst he
      exact hb (by simpa using h)
    · simpa [he] using h
  · simpa [hT] using h

section

variable (h : Watched s)

include h

lemma Watched.release (hon : s.on t = some a)
    (hout : s.code t = .free ∨ ∃ w io, s.code t = .asleep w io) : Watched ((s.setOn t none).setAct a .idle) := by
  have hrun := h.running t a hon
  refine ⟨fun u b hu => ?_, fun u => ?_, h.fresh, h.owner⟩
  · have hut : u ≠ t := by
      rintro rfl
      simp at hu
    have hub := h.running u b (by simpa [hut] using hu)
    have hba : b ≠ a := by
      rintro rfl
      rw [hrun] at hub
      cases hub
      exact hut rfl
    simpa [hba] using hub
  · obtain rfl | hut := eq_or_ne u t
    · have hcode := h.code u
      show CodeOk _ u (s.code u)
      rcases hout with hfree | ⟨w, io, hasleep⟩
      · rw [hfree]
        trivial
      · rw [hasleep] at hcode ⊢
        exact hcode
    · refine (h.code u).mono (Nat.le_refl _) (by simp [hut]) (fun _ _ _ => ?_) fun _ _ _ hd => hd
      exact ⟨rfl, rfl, rfl, fun _ => rfl, fun _ _ => rfl⟩

lemma Watched.setReady {b : Bool} (hb : b → s.ready S d) : Watched (s.setReady S d b) := by
  refine ⟨h.running, fun u => ?_, h.fresh, h.owner⟩
  refine (h.code u).mono (Nat.le_refl _) rfl
    (fun _ _ _ => ⟨rfl, rfl, rfl, fun _ => rfl, fun _ _ => rfl⟩) fun k _ e he => ?_
  exact ready_of_setReady hb he

lemma Watched.taskStep (hon : s.on t = some a) (hstep : TaskStep s t a l s') : Watched s' := by
  have hok := h.code t
  cases hstep with
  | yield hcode => exact h.release hon (.inl hcode)
  | @suspend w io hcode =>
    have hw : w < s.nextWait := by
      rcases hcode with hcode | hcode
      · rw [hcode] at hok
        exact hok.1
      · rw [hcode] at hok
        exact hok.1
    exact Watched.release (h.setCode (c := .asleep w io) hw) hon (.inr ⟨w, io, by simp⟩)
  | succeed hcode hready => exact h.setReady fun _ => hready
  | block hcode hready => exact ⟨h.running, h.code, h.fresh, h.owner⟩
  | waitIo hcode htr | beginMultiWait hcode =>
    exact h.nextWait.setWait.setCode ⟨Nat.lt_succ_self _, a, hon⟩
  | addIo hcode =>
    rw [hcode] at hok
    exact h.setCode hok
  | abandon hcode | closedWait hcode => exact h.setWait.setCode trivial
  | closedAdd hcode => exact h.setCode codeOk_refused
  | @mine k ok hcode hlock howner =>
    rw [hcode] at hok
    refine h.touch (.inl hlock) (fun T hT => (SameSocket.refl.setWaiters hT).setCode) rfl rfl rfl (Nat.le_refl _)
      (fun _ _ hd => hd) (codeOk_added hok.1 hon) (fun x hx => ?_) fun b hl hb => h.owner _ b hl hb
    simp only [setCode_waiters, setWaiters_waiters, update_self, mem_append, mem_singleton] at hx
    rcases hx with hx | rfl
    · exact h.fresh _ x hx
    · exact hok.1
  | shared hcode hlock howner =>
    exact h.begin hcode hon hlock ⟨howner, h.owner _ _ hlock howner⟩
  | alone hcode hlock hwaiters =>
    refine h.begin hcode hon hlock fun x hx => ?_
    simpa [hwaiters] using hx
  | unowned hcode hlock => exact h.begin hcode hon hlock trivial
  | @rearmed k b ok hcode hreg =>
    rw [hcode] at hok
    obtain ⟨hk, hlock, c, -, hstep⟩ := hok
    refine h.touch (.inr hlock) (fun T hT => ((SameSocket.refl.setPending hT).setLock hT).setCode) rfl rfl rfl
      (Nat.le_refl _) (fun _ _ hd => hd) (codeOk_added hk hon) (h.fresh _) fun e _ he => ?_
    cases hstep.1.symm.trans he
    exact hstep.2
  | @notRearmed k b ok hcode =>
    rw [hcode] at hok
    obtain ⟨hk, hlock, c, -, hstep⟩ := hok
    refine h.touch (.inr hlock) (fun T hT => (SameSocket.refl.setLock hT).setCode) rfl rfl rfl
      (Nat.le_refl _) (fun _ _ hd => hd) codeOk_refused (h.fresh _) fun e _ he => ?_
    cases hstep.1.symm.trans he
    exact hstep.2
  | @deregistered k b ok hcode =>
    rw [hcode] at hok
    obtain ⟨hk, hlock, c, hc, -⟩ := hok
    refine h.touch (.inr hlock) (fun T hT => ((SameSocket.refl.setRegistered hT).setPending hT).setCode) rfl rfl rfl
      (Nat.le_refl _) (fun _ _ hd => hd) ⟨hk, hlock, c, hc, trivial⟩ (h.fresh _) fun c hl _ => ?_
    cases hlock.symm.trans hl
  | notDeregistered hcode =>
    rw [hcode] at hok
    obtain ⟨hk, hlock, c, hc, -⟩ := hok
    exact h.setCode ⟨hk, hlock, c, hc, trivial⟩
  | alreadyExists hcode hreg =>
    rw [hcode] at hok
    exact h.setCode ⟨hok.1, hok.2.1, a, hon, hreg⟩
  | @registered k ok hcode =>
    rw [hcode] at hok
    obtain ⟨hk, hlock, c, hc, -⟩ := hok
    refine h.touch (.inr hlock) (fun T hT => ((SameSocket.refl.setRegistered hT).setPending hT).setCode) rfl rfl rfl
      (Nat.le_refl _) (fun _ _ hd => hd) ⟨hk, hlock, a, hon, ?_⟩ (h.fresh _) fun c hl _ => ?_
    · exact ⟨by simp [State.arm], fun d hd => by simp_all [State.arm]⟩
    · cases hlock.symm.trans hl
  | @reregistered k ok hcode =>
    rw [hcode] at hok
    obtain ⟨hk, hlock, c, hc, hreg⟩ := hok
    cases hon.symm.trans hc
    refine h.touch (.inr hlock) (fun T hT => (SameSocket.refl.setPending hT).setCode) rfl rfl rfl
      (Nat.le_refl _) (fun _ _ hd => hd) ⟨hk, hlock, a, hon, ?_⟩ (h.fresh _) fun c hl _ => ?_
    · exact ⟨hreg, fun d hd => by simp_all [State.arm]⟩
    · cases hlock.symm.trans hl
  | notRegistered hcode =>
    have hgive : ∀ {k x}, CodeOk s t (.watching k x) → CodeOk s t (.watching k .giveUp) :=
      fun hk => ⟨hk.1, hk.2.1, a, hon, trivial⟩
    rcases hcode with hcode | hcode
    · exact h.setCode (hgive (hcode ▸ hok))
    · exact h.setCode (hgive (hcode ▸ hok))
  | @store k ok hcode =>
    rw [hcode] at hok
    obtain ⟨hk, hlock, c, hc, hreg, -⟩ := hok
    cases hon.symm.trans hc
    refine h.touch (.inr hlock) (fun T hT => ((SameSocket.refl.setOwner hT).setLock hT).setCode) rfl rfl rfl
      (Nat.le_refl _) (fun _ _ hd => hd) (codeOk_added hk hon) (h.fresh _) fun b _ hb => ?_
    have hab : a = b := by simpa using hb
    exact hab ▸ hreg
  | @giveUp k ok hcode =>
    rw [hcode] at hok
    obtain ⟨hk, hlock, -⟩ := hok
    refine h.touch (.inr hlock) (fun T hT => (((SameSocket.refl.setOwner hT).setWaiters hT).setLock hT).setCode) rfl rfl
      rfl (Nat.le_refl _) (fun _ _ hd => hd) codeOk_refused (fun x hx => ?_) fun b _ hb => ?_
    · exact h.fresh _ x (mem_of_mem_forget (s := s.setOwner k.socket none) hx)
    · simp [State.forget] at hb
  | forgotten hcode => exact h.setCode trivial
  | @forget w S io hcode hlock =>
    refine h.touch (.inl hlock) (fun T hT => (SameSocket.refl.setWaiters hT).setCode) rfl rfl rfl
      (Nat.le_refl _) (fun _ _ hd => hd) trivial (fun x hx => ?_) fun b hl hb => h.owner _ b hl hb
    exact h.fresh _ x (mem_of_mem_forget (s := s) hx)

lemma Watched.setAct {x : Act} (hout : ∀ t, s.act a ≠ .running t) : Watched (s.setAct a x) := by
  refine ⟨fun u b hu => ?_, h.code, h.fresh, h.owner⟩
  have hub := h.running u b hu
  have hba : b ≠ a := by
    rintro rfl
    exact hout u hub
  simpa [hba] using hub

lemma Watched.resume (hact : s.act a = .idle) (hon : s.on t = none) :
    Watched ((((s.setTried t []).setCode t (s.code t).resumed).setOn t (some a)).setAct a (.running t)) := by
  refine ⟨fun u b hu => ?_, fun u => ?_, h.fresh, h.owner⟩
  · obtain rfl | hut := eq_or_ne u t
    · have hab : a = b := by simpa using hu
      simp [hab]
    · have hub := h.running u b (by simpa [hut] using hu)
      have hba : b ≠ a := by
        rintro rfl
        rw [hact] at hub
        cases hub
      simpa [hba] using hub
  · obtain rfl | hut := eq_or_ne u t
    · have hcode := h.code u
      simp only [setAct_code, setOn_code, setCode_code, update_self]
      revert hcode
      cases s.code u with
      | opened w io | armed w io | entering k =>
        rintro ⟨-, b, hb⟩
        rw [hon] at hb
        cases hb
      | watching k x =>
        rintro ⟨-, -, b, hb, -⟩
        rw [hon] at hb
        cases hb
      | asleep w io => exact fun _ => trivial
      | _ => exact fun hcode => hcode
    · simp only [setAct_code, setOn_code, setCode_code, setTried_code, update_of_ne hut]
      refine (h.code u).mono (Nat.le_refl _) (by simp [hut]) (fun _ _ _ => ?_) fun _ _ _ hd => hd
      exact ⟨rfl, rfl, rfl, fun _ => rfl, fun _ _ => rfl⟩

lemma Watched.dropWaiters {f : IoWaiter → Bool} (hlock : s.lock S = none) :
    Watched (s.setWaiters S ((s.waiters S).filter f)) := by
  refine ⟨h.running, fun u => ?_, fun T x hx => ?_, h.owner⟩
  · refine (h.code u).mono (Nat.le_refl _) rfl (fun k x hk => ?_) fun _ _ _ hd => hd
    refine SameSocket.refl.setWaiters fun hS => ?_
    have hcode := h.code u
    rw [hk] at hcode
    have hlocked := hcode.2.1
    rw [hS, hlock] at hlocked
    cases hlocked
  · obtain rfl | hT := eq_or_ne T S
    · simp only [setWaiters_waiters, update_self] at hx
      exact h.fresh T x (mem_filter.mp hx).1
    · simp only [setWaiters_waiters, update_of_ne hT] at hx
      exact h.fresh T x hx

lemma Watched.rise : Watched (s.rise S d) := by
  refine ⟨h.running, fun u => ?_, h.fresh, h.owner⟩
  refine (h.code u).of_events (Nat.le_refl _) rfl
    (fun _ _ _ => ⟨rfl, rfl, rfl, fun _ => rfl⟩) fun k a e _ _ hreg hold hready => ?_
  obtain rfl | hS := eq_or_ne k.socket S
  · by_cases he : e = d
    · simp [State.rise, he, hreg]
    · simpa [State.rise, he] using hold (by simpa [State.rise, he] using hready)
  · simpa [State.rise, hS] using hold (by simpa [State.rise, hS] using hready)

lemma Watched.collect {f : ℕ → Bool → Bool} {x : Act}
    (hout : ∀ t, s.act a ≠ .running t) : Watched ((s.setPending a f).setAct a x) := by
  refine Watched.setAct (s := s.setPending a f) ?_ hout
  refine ⟨h.running, fun u => ?_, h.fresh, h.owner⟩
  refine (h.code u).of_events (Nat.le_refl _) rfl
    (fun _ _ _ => ⟨rfl, rfl, rfl, fun _ => rfl⟩) fun k b e _ hon _ hold hready => ?_
  have hba : b ≠ a := by
    rintro rfl
    exact hout u (h.running u b hon)
  simpa [hba] using hold hready

lemma Watched.step (hstep : Step s l s') : Watched s' := by
  cases hstep with
  | task hon hstep => exact h.taskStep hon hstep
  | resume hact hon => exact h.resume hact hon
  | claim => exact h.setWait
  | rise => exact h.rise
  | fall => exact h.setReady (by simp)
  | observe hready | publish => exact ⟨h.running, h.code, h.fresh, h.owner⟩
  | collect hact hreports => exact h.collect (by simp [hact])
  | done hact | wokeAll hact => exact h.setAct (by simp [hact])
  | handle hact hlock => exact (h.dropWaiters hlock).setAct (by simp [hact])
  | wake hact => exact h.setWait.setAct (by simp [hact])
  | @close S hlock =>
    have hnil : (s.waiters S).filter (fun _ => false) = [] := by simp
    have hdrop := h.dropWaiters (f := fun _ => false) hlock
    rw [hnil] at hdrop
    exact ⟨hdrop.running, hdrop.code, hdrop.fresh, hdrop.owner⟩

end

lemma watched_initial : Watched initial := by
  refine ⟨fun t a hon => ?_, fun t => trivial, fun S x hx => ?_, fun S a _ ho => ?_⟩
  · cases hon
  · cases hx
  · cases ho

end RocNet.Sockets
