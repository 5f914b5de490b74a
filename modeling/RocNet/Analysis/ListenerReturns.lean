import RocNet.Analysis.ListenerWaits

/-!
# Calls return once the listener is closed

How many steps a call has left once a `close!` has returned (`distance`): none of them waits, each of its own takes it
nearer, and no step of others takes it back.
-/

/-! ## The code of a task in `wait_io` -/

open Function Option Transition

namespace RocNet.Sockets

variable {s s' : State} {t u a S w : ℕ} {l : Label}

/-- The code of a task in `wait_io` on a socket, or after it. -/
def Code.waitsOn (S : ℕ) : Code → Prop
  | .free => True
  | .entering k | .watching k _ => k.socket = S ∧ k.multi = false
  | .armed _ io | .asleep _ io => io = [S]
  | .forgetting _ io => io = [S] ∨ io = []
  | .opened _ _ | .failed _ _ => False

lemma waitsOn_resumed {c : Code} (h : c.waitsOn S) : c.resumed.waitsOn S := by
  cases c with
  | asleep w io => exact .inl h
  | _ => exact h

lemma waitsOn_added {k : Watch} (hsocket : k.socket = S) (hmulti : k.multi = false) : k.added.waitsOn S := by
  unfold Watch.added
  rw [if_neg (by simp [hmulti]), hsocket]
  rfl

lemma waitsOn_refused {k : Watch} (hmulti : k.multi = false) : k.refused.waitsOn S := by
  unfold Watch.refused
  rw [if_neg (by simp [hmulti])]
  trivial

/-- The steps of `wait_io`. -/
def Label.inWait : Label → Bool
  | .watch _ _ | .suspend _ | .forget _ => true
  | _ => false

lemma TaskStep.waitsOn (h : TaskStep s t a l s') (hl : l.inWait) (hw : (s.code t).waitsOn S) :
    (s'.code t).waitsOn S := by
  cases h with
  | yield | succeed | block | waitIo | beginMultiWait | addIo | abandon => cases hl
  | suspend hcode =>
    rcases hcode with hcode | hcode
    · rw [hcode] at hw
      exact hw.elim
    · rw [hcode] at hw
      simpa [Code.waitsOn] using hw
  | closedWait => simp [Code.waitsOn]
  | closedAdd hcode | notRearmed hcode | giveUp hcode =>
    rw [hcode] at hw
    simpa using waitsOn_refused hw.2
  | mine hcode | rearmed hcode | store hcode =>
    rw [hcode] at hw
    simpa using waitsOn_added hw.1 hw.2
  | shared hcode | alone hcode | unowned hcode =>
    rw [hcode] at hw
    simpa [State.begin, Code.waitsOn] using hw
  | deregistered hcode | notDeregistered hcode | alreadyExists hcode | registered hcode | reregistered hcode =>
    rw [hcode] at hw
    simpa [Code.waitsOn] using hw
  | notRegistered hcode =>
    rcases hcode with hcode | hcode
    · rw [hcode] at hw
      simpa [Code.waitsOn] using hw
    · rw [hcode] at hw
      simpa [Code.waitsOn] using hw
  | forgotten => simp [Code.waitsOn]
  | forget hcode =>
    rw [hcode] at hw
    rcases hw with hw | hw
    · cases hw
      simp [Code.waitsOn]
    · cases hw

/-- A task's code is changed by its own steps, and by being resumed. -/
theorem Step.code_back (h : Step s l s') (hl : l.task ≠ some u) :
    s'.code u = s.code u ∨ s'.code u = (s.code u).resumed := by
  cases h with
  | @task t a l s' hon htask =>
    have hne : u ≠ t := by
      rintro rfl
      exact hl (by cases htask <;> rfl)
    obtain ⟨c, hcode, -⟩ := htask.nextCode
    left
    rw [hcode, update_of_ne hne]
  | @resume t a hact hon =>
    by_cases hut : u = t
    · right
      simp [hut]
    · left
      simp [hut]
  | _ => exact .inl rfl

lemma Step.tried_of_running (h : Step s l s') (hu : s.on u = some b) : s.tried u ⊆ s'.tried u := by
  cases h with
  | @task t a l s' hon htask =>
    cases htask with
    | block =>
      intro x hx
      obtain rfl | hut := eq_or_ne u t
      · simp [hx]
      · simpa [hut] using hx
    | _ => exact fun _ hx => hx
  | @resume t a hact hon =>
    have hne : u ≠ t := by
      rintro rfl
      rw [hon] at hu
      cases hu
    simp [hne]
  | observe => exact fun _ hx => List.mem_cons_of_mem _ hx
  | _ => exact fun _ hx => hx

lemma resumed_free {c : Code} (h : c = .free) : c.resumed = .free := by
  rw [h]
  rfl

/-! ## How far a task is from the end of its wait -/

/-- The steps that are left of a wait on a closed socket. -/
def Code.distance : Code → ℕ
  | .forgetting _ io => 1 + io.length
  | .asleep _ io => 2 + io.length
  | .armed _ io => 3 + io.length
  | .entering _ => 1
  | _ => 0

lemma distance_resumed_le (c : Code) : c.resumed.distance ≤ c.distance := by
  cases c with
  | asleep w io => exact Nat.add_le_add_right (by decide) _
  | _ => exact Nat.le_refl _

/-- Each step of a wait on a closed socket takes it nearer to its end. -/
theorem distance_lt_of_step (hstep : step s l = some s') (hl : l.inWait) (ht : l.task = some t)
    (hwaits : (s.code t).waitsOn S) (hclosed : s.closed S) (hlock : s.lock S = none) (hlocked : Locked s) :
    (s'.code t).distance < (s.code t).distance := by
  cases l with
  | watch u ok =>
    cases ht
    obtain ⟨a, -, htask⟩ := bind_eq_some_iff.mp hstep
    simp only [stepTask] at htask
    split at htask
    · next k hcode =>
      rw [hcode] at hwaits ⊢
      obtain ⟨rfl, hmulti⟩ := hwaits
      obtain ⟨-, rfl⟩ := of_guard htask
      simp [enter, hclosed, hmulti, Code.distance]
    · next k x hcode =>
      rw [hcode] at hwaits
      have hheld := hlocked t k x hcode
      rw [hwaits.1, hlock] at hheld
      cases hheld
    · cases htask
  | suspend u =>
    cases ht
    obtain ⟨a, -, htask⟩ := bind_eq_some_iff.mp hstep
    simp only [stepTask] at htask
    split at htask
    · next hcode =>
      rw [hcode] at hwaits
      exact hwaits.elim
    · next hcode =>
      cases htask
      simp [hcode, Code.distance]
    · cases htask
  | forget u =>
    cases ht
    obtain ⟨a, -, htask⟩ := bind_eq_some_iff.mp hstep
    simp only [stepTask] at htask
    split at htask
    · next hcode =>
      cases htask
      simp [hcode, Code.distance]
    · next hcode =>
      obtain ⟨-, rfl⟩ := of_guard htask
      simp [hcode, Code.distance]
    · cases htask
  | _ => cases hl

lemma exists_step_of_waitsOn (hon : s.on t = some a) (hwaits : (s.code t).waitsOn S) (hne : s.code t ≠ .free)
    (hsuspended : Suspended s) (hlock : s.lock S = none) (hlocked : Locked s) :
    ∃ l s', l.inWait ∧ l.task = some t ∧ step s l = some s' := by
  cases hcode : s.code t with
  | free => exact absurd hcode hne
  | opened w io | failed w io =>
    rw [hcode] at hwaits
    exact hwaits.elim
  | entering k =>
    rw [hcode] at hwaits
    refine ⟨.watch t true, enter s t a k, rfl, rfl, ?_⟩
    simp [step, Label.task, hon, stepTask, hcode, hwaits.1, hlock]
  | watching k x =>
    rw [hcode] at hwaits
    have hheld := hlocked t k x hcode
    rw [hwaits.1, hlock] at hheld
    cases hheld
  | armed w io => exact ⟨.suspend t, _, rfl, rfl, by simp [step, Label.task, hon, stepTask, hcode]; rfl⟩
  | asleep w io =>
    rw [hsuspended t w io hcode] at hon
    cases hon
  | forgetting w io =>
    rw [hcode] at hwaits
    rcases hwaits with rfl | rfl
    · exact ⟨.forget t, _, rfl, rfl, by simp [step, Label.task, hon, stepTask, hcode, hlock]; rfl⟩
    · exact ⟨.forget t, _, rfl, rfl, by simp [step, Label.task, hon, stepTask, hcode]; rfl⟩

end RocNet.Sockets

namespace RocNet.Listener

open Sched (TaskId)

variable {S : ℕ} {s s' : State} {t u : TaskId} {c : Call} {x : Place} {l : Label} {o : Op}

/-- The code of a task by the function it is in: a call waits on the listener, if at all. -/
def Op.coded (S : ℕ) : Op → Sockets.Code → Prop
  | .none, _ => True
  | .run _ .waiting, code => code.waitsOn S
  | _, code => code = .free

variable {code : Sockets.Code} {m : Sockets.Label} {y : Sockets.State}

lemma coded_resumed (h : o.coded S code) : o.coded S code.resumed := by
  unfold Op.coded at h ⊢
  split
  · trivial
  · exact Sockets.waitsOn_resumed h
  · next hrun => exact Sockets.resumed_free (by split at h <;> simp_all)

def Coded (S : ℕ) (s : State) : Prop := ∀ t, (s.ops t).coded S (s.sock.code t)

/-- A function other than `wait_io` takes no steps of `Sockets` but to yield. -/
theorem coded_of_permits (hpermits : o.permits m) (h : Sockets.TaskStep s.sock t a m y)
    (hcoded : o.coded S (s.sock.code t)) : o.coded S (y.code t) := by
  unfold Op.permits at hpermits
  split at hpermits
  · trivial
  · cases h
    exact hcoded
  · cases h
    exact hcoded
  · cases h
    exact hcoded
  · exact h.waitsOn rfl hcoded
  · exact h.waitsOn rfl hcoded
  · exact h.waitsOn rfl hcoded
  · cases hpermits

lemma Coded.updated (h : Coded S s) (hops : s'.ops = update s.ops t o)
    (hcode : ∀ u ≠ t, s'.sock.code u = s.sock.code u) (ho : o.coded S (s'.sock.code t)) : Coded S s' := by
  unfold Coded
  rw [hops, forall_update_iff s.ops fun u o => o.coded S (s'.sock.code u)]
  refine ⟨ho, ?_⟩
  intro u hu
  rw [hcode u hu]
  exact h u

lemma attempt_code (h : Sockets.step s.sock (.attempt t S false last) = some y) : y.code = s.sock.code := by
  obtain ⟨a, -, htask⟩ := bind_eq_some_iff.mp h
  obtain ⟨-, htask⟩ := ite_none_right_eq_some.mp htask
  split at htask <;> cases htask <;> rfl

lemma waitIo_code (h : Sockets.step s.sock (.waitIo t S false) = some y) :
    y.code = update s.sock.code t (.entering ⟨s.sock.nextWait, false, S, false, []⟩) := by
  obtain ⟨a, -, htask⟩ := bind_eq_some_iff.mp h
  obtain ⟨-, rfl⟩ := of_guard htask
  rfl

lemma close_code (h : Sockets.step s.sock (.close S) = some y) : y.code = s.sock.code := by
  obtain ⟨-, rfl⟩ := of_guard h
  rfl

variable {x' : Place}

lemma Moves.coded (h : Moves s t c x x') (hcoded : (Op.run c x).coded S (s.sock.code t)) :
    (Op.run c x').coded S (s.sock.code t) := by
  cases h with
  | waited hcode | waitFailed hcode => exact hcode
  | _ => exact hcoded

lemma coded_granted (h : code = .free) (i : ℕ) : (granted a i).coded S code := by
  cases a with
  | none => trivial
  | some late => exact h

lemma Coded.setSock (h : Coded S s) (hcode : y.code = s.sock.code) : Coded S (s.setSock y) := by
  intro u
  rw [State.setSock_sock, hcode]
  exact h u

lemma Coded.sock (h : Coded S s) (hallow : allows S s m)
    (hstep : Sockets.step s.sock m = some y) : Coded S (s.setSock y) := by
  intro u
  by_cases hu : m.task = some u
  · unfold allows at hallow
    rw [hu] at hallow
    cases Sockets.step_cases hstep with
    | @task t a _ _ hon htask =>
      obtain rfl : t = u := by
        have htask' : m.task = some t := by cases htask <;> rfl
        rw [hu] at htask'
        exact (some.inj htask').symm
      exact coded_of_permits hallow htask (h t)
    | _ => cases hu
  · rcases (Sockets.step_cases hstep).code_back hu with hcode | hcode
    · rw [State.setSock_sock, hcode]
      exact h u
    · rw [State.setSock_sock, hcode]
      exact coded_resumed (h u)

lemma Coded.step (h : Coded S s) (hstep : Step S s l s') : Coded S s' := by
  have hold : ∀ {s : State} {t o}, Coded S s → s.ops t = o → o.coded S (s.sock.code t) := by
    intro s t o h ho
    rw [← ho]
    exact h t
  cases hstep with
  | same => exact h
  | sock hallow hsock => exact h.sock hallow hsock
  | grab | give | cancel | claim | enterPark | relockPark | pollFull => exact h
  | begins hop hcode | poll hop hcode | close hop hcode => exact h.updated rfl (fun _ _ => rfl) hcode
  | enterGot hop | relockGot hop => exact h.updated rfl (fun _ _ => rfl) (coded_granted (hold h hop) _)
  | relockCancelled | relockGivesUp | finish | deliver | already | closeFails =>
    exact h.updated rfl (fun _ _ => rfl) trivial
  | move hop hmoves => exact h.updated rfl (fun _ _ => rfl) (hmoves.coded (hold h hop))
  | stream hop hreplaced hattempt =>
    have hy := h.setSock (attempt_code hattempt)
    exact hy.updated rfl (fun _ _ => rfl) (hold hy hop :)
  | block hop hreplaced hready hattempt hplace =>
    have hy := h.setSock (attempt_code hattempt)
    refine hy.updated rfl (fun _ _ => rfl) ?_
    rcases hplace with rfl | rfl <;> exact (hold hy hop :)
  | wait hop hwait =>
    have hcode := waitIo_code hwait
    refine h.updated rfl (fun u hu => ?_) ?_
    · rw [State.setOp_sock, State.setSock_sock, hcode, update_of_ne hu]
    · rw [State.setOp_sock, State.setSock_sock, hcode, update_self]
      exact ⟨rfl, rfl⟩
  | @lock _ t hop | @load _ t hop | @replace _ t hop | @store _ t hop =>
    have hfree : s.sock.code t = .free := hold h hop
    exact h.updated rfl (fun _ _ => rfl) hfree
  | wake hop hclose =>
    exact (h.setSock (close_code hclose)).updated rfl (fun _ _ => rfl) trivial

/-- Whether a task keeps its worker here: it is about to wait, or closing. -/
def Op.holds : Op → Bool
  | .run _ .blocked | .closing _ => true
  | _ => false

/-- Tasks that keep their workers run, and those about to wait have found that `accept` would block. -/
structure Primed (S : ℕ) (s : State) : Prop where
  running : ∀ t, (s.ops t).holds = true → ∃ a, s.sock.on t = some a
  tried : ∀ t c, s.ops t = .run c .blocked → (S, false) ∈ s.sock.tried t

/-- A task's step in the listener's functions that does not make it wait. -/
theorem Primed.updated (h : Primed S s) (hops : s'.ops = update s.ops t o) (hon : s'.sock.on = s.sock.on)
    (htried : s'.sock.tried = s.sock.tried) (hrun : o.holds → ∃ a, s.sock.on t = some a)
    (hblocked : ∀ c, o ≠ .run c .blocked) : Primed S s' := by
  constructor
  · rw [hops, hon, forall_update_iff s.ops fun u o => o.holds = true → ∃ a, s.sock.on u = some a]
    exact ⟨hrun, fun u _ => h.running u⟩
  · rw [hops, htried, forall_update_iff s.ops fun u o =>
      ∀ c, o = .run c .blocked → (S, false) ∈ s.sock.tried u]
    exact ⟨fun c hc => absurd hc (hblocked c), fun u _ => h.tried u⟩

lemma Primed.setSock (h : Primed S s) (hstep : Sockets.step s.sock m = some y)
    (hm : ∀ t, (s.ops t).holds → m.task ≠ some t) : Primed S (s.setSock y) := by
  have hstep := Sockets.step_cases hstep
  refine ⟨?_, ?_⟩
  · intro t ht
    obtain ⟨a, ha⟩ := h.running t ht
    exact ⟨a, (hstep.frame (hm t ht) ha).1⟩
  · intro t c ht
    have hop : s.ops t = .run c .blocked := ht
    obtain ⟨a, ha⟩ := h.running t (by rw [hop]; rfl)
    exact hstep.tried_of_running ha (h.tried t c ht)

lemma Moves.ne_blocked (h : Moves s t c x x') : x' ≠ .blocked := by
  cases h <;> exact nofun

lemma holds_run (h : x ≠ .blocked) : (Op.run c x).holds = false := by
  cases x with
  | blocked => exact absurd rfl h
  | _ => rfl

lemma permits_of_holds (h : o.holds) : o.permits m = false := by
  unfold Op.holds at h
  split at h
  · cases m <;> rfl
  · cases m <;> rfl
  · cases h

lemma granted_holds (a : Option Bool) (i : ℕ) : (granted a i).holds = false := by
  cases a <;> rfl

lemma ne_blocked_of_holds (h : o.holds = false) (c : Call) : o ≠ .run c .blocked := by
  rintro rfl
  cases h

lemma Primed.leave (h : Primed S s) (hops : s'.ops = update s.ops t o) (hon : s'.sock.on = s.sock.on)
    (htried : s'.sock.tried = s.sock.tried) (ho : o.holds = false) : Primed S s' := by
  apply h.updated hops hon htried
  · intro hholds
    rw [ho] at hholds
    cases hholds
  · exact ne_blocked_of_holds ho

lemma Primed.attempt (h : Primed S s) (hop : s.ops t = .run c .trying)
    (hattempt : Sockets.step s.sock (.attempt t S false last) = some y) : Primed S (s.setSock y) := by
  apply h.setSock hattempt
  rintro u hu hm
  cases hm
  rw [hop] at hu
  cases hu

lemma Primed.block (h : Primed S s) (hop : s.ops t = .run c .trying)
    (hready : s.sock.ready S false = false) (hattempt : Sockets.step s.sock (.attempt t S false false) = some y) :
    Primed S ((s.setSock y).setOp t (.run c x)) := by
  have hy := h.attempt hop hattempt
  obtain ⟨a, hon, htask⟩ := bind_eq_some_iff.mp hattempt
  simp only [Sockets.stepTask, hready, ite_none_right_eq_some] at htask
  obtain ⟨-, htask⟩ := htask
  cases htask
  refine ⟨?_, ?_⟩
  · intro u hu
    by_cases hut : u = t
    · exact ⟨a, by rw [hut]; exact hon⟩
    · exact hy.running u (by simpa [hut] using hu)
  · intro u c' hu
    by_cases hut : u = t
    · simp [hut]
    · exact hy.tried u c' (by simpa [hut] using hu)

lemma Primed.step (h : Primed S s) (hstep : Step S s l s') : Primed S s' := by
  have hkeeps : ∀ {t o}, s.ops t = o → o.holds → ∃ a, s.sock.on t = some a := by
    intro t o ho hholds
    exact h.running t (by rwa [ho])
  cases hstep with
  | same => exact h
  | grab | give | cancel | claim | enterPark | relockPark | pollFull => exact ⟨h.running, h.tried⟩
  | begins | relockCancelled | relockGivesUp | poll | finish | deliver | already | closeFails =>
    exact h.leave rfl rfl rfl rfl
  | enterGot | relockGot => exact h.leave rfl rfl rfl (granted_holds _ _)
  | move hop hmoves => exact h.leave rfl rfl rfl (holds_run hmoves.ne_blocked)
  | close hop hcode hon => exact h.updated rfl rfl rfl (fun _ => ⟨_, hon⟩) (by simp)
  | lock hop | load hop | replace hop | store hop =>
    exact h.updated rfl rfl rfl (fun _ => hkeeps hop rfl) (by simp)
  | @sock m y hallow hsock =>
    apply h.setSock hsock
    intro t ht hm
    simp only [allows, hm, permits_of_holds ht] at hallow
    cases hallow
  | stream hop hreplaced hattempt => exact (h.attempt hop hattempt).leave rfl rfl rfl rfl
  | block hop hreplaced hready hattempt hplace => exact h.block hop hready hattempt
  | @wait _ t c y hop hwait =>
    obtain ⟨a, hon, htask⟩ := bind_eq_some_iff.mp hwait
    obtain ⟨-, htask⟩ := ite_none_right_eq_some.mp htask
    cases htask
    exact h.leave rfl rfl rfl rfl
  | wake hop hclose =>
    have hy : Primed S _ := h.setSock hclose (by simp [Sockets.Label.task])
    exact hy.leave rfl rfl rfl rfl

/-! ## How far a call is from its return -/

/-- The steps a call has left once the listener is closed. -/
def Place.distance (code : Sockets.Code) : Place → ℕ
  | .top | .settled _ _ | .got => 1
  | .settling _ _ | .napping => 2
  | .trying | .woke => 3
  | .waiting => 4 + code.distance
  | .blocked => 6

def distance (s : State) (t : TaskId) : ℕ :=
  match s.ops t with
  | .run _ x => x.distance (s.sock.code t)
  | _ => 0

lemma distance_run (h : s.ops t = .run c x) : distance s t = x.distance (s.sock.code t) := by
  simp only [distance, h]

lemma Place.distance_pos (x : Place) (code : Sockets.Code) : 0 < x.distance code := by
  cases x <;> simp only [Place.distance] <;> omega

lemma distance_lt_of_none (hop : s.ops t = .run c x) (hnone : s'.ops t = .none) : distance s' t < distance s t := by
  rw [distance_run hop]
  simp only [distance, hnone]
  exact x.distance_pos _

/-- In a closed listener, each move takes the call nearer to its return. -/
theorem Moves.nearer (h : Moves s t c x x') (hclosed : s.closed) :
    x'.distance (s.sock.code t) < x.distance (s.sock.code t) := by
  cases h with
  | load hopen | woke hopen | again hopen | nap hopen =>
    rw [hclosed] at hopen
    cases hopen
  | waited hcode | waitFailed hcode => simp [Place.distance, hcode, Sockets.Code.distance]
  | refused | wokeClosed | settle | napped => simp [Place.distance]

lemma Place.distance_mono (x : Place) (h : code'.distance ≤ code.distance) : x.distance code' ≤ x.distance code := by
  cases x <;> simp [Place.distance, h]

/-- The steps of a task's own call: those of the listener's functions, and those of `wait_io`. -/
def Label.own (t : TaskId) (l : Label) : Prop :=
  l.task = some t ∨ ∃ m, l = .sock m ∧ m.inWait = true ∧ m.task = some t

lemma eq_of_own (hl : l.task = some u) (hown : l.own t) : u = t := by
  rcases hown with hown | ⟨m, rfl, -, -⟩
  · rw [hl] at hown
    exact some.inj hown
  · cases hl

/-- A step, as it is for a call: it takes the call no further from its return, and nearer if it is its own. -/
def Nears (s : State) (t : TaskId) (l : Label) (s' : State) : Prop :=
  distance s' t ≤ distance s t ∧ (l.own t → distance s' t < distance s t)

lemma nears_same (hops : s'.ops = s.ops) (hsock : s'.sock = s.sock) (hl : ¬ l.own t) : Nears s t l s' := by
  have heq : distance s' t = distance s t := by simp only [distance, hops, hsock]
  exact ⟨heq.le, fun hown => absurd hown hl⟩

lemma nears_update (hl : l.task = some u) (hops : s'.ops = update s.ops u o)
    (hcode : ∀ v ≠ u, s'.sock.code v = s.sock.code v) (hself : u = t → distance s' t < distance s t) :
    Nears s t l s' := by
  by_cases hu : u = t
  · exact ⟨(hself hu).le, fun _ => hself hu⟩
  · have hne : t ≠ u := Ne.symm hu
    have heq : distance s' t = distance s t := by
      simp only [distance, hops, update_of_ne hne, hcode t hne]
    exact ⟨heq.le, fun hown => absurd (eq_of_own hl hown) hu⟩

/-- A call takes the steps of `wait_io` when it is in it, and yields in its sleep or with a connection. -/
theorem permits_run (h : (Op.run c x).permits m) :
    (x = .waiting ∧ m.inWait) ∨ ((x = .napping ∨ x = .got) ∧ m.inWait = false) := by
  unfold Op.permits at h
  split at h <;> simp_all [Sockets.Label.inWait]

lemma nears_sock (hop : s.ops t = .run c x) (hcoded : Coded S s)
    (hwaits : Sockets.Awaited S s.sock) (hclosed : s.sock.closed S) (hallow : allows S s m)
    (hstep : Sockets.step s.sock m = some y) : Nears s t (.sock m) (s.setSock y) := by
  have hrun : distance (s.setSock y) t = x.distance (y.code t) := distance_run hop
  unfold Nears
  rw [hrun, distance_run hop]
  by_cases hm : m.task = some t
  · simp only [allows, hm, hop] at hallow
    rcases permits_run hallow with ⟨rfl, hin⟩ | ⟨hx, hin⟩
    · have hcode : (s.sock.code t).waitsOn S := by simpa [hop, Op.coded] using hcoded t
      have hlt := Sockets.distance_lt_of_step hstep hin hm hcode hclosed (hwaits.emptied hclosed).2 hwaits.locked
      simp only [Place.distance]
      omega
    · have hsame : x.distance (y.code t) = x.distance (s.sock.code t) := by
        rcases hx with rfl | rfl <;> rfl
      refine ⟨hsame.le, ?_⟩
      rintro (hown | ⟨m', heq, hin', -⟩)
      · cases hown
      · cases heq
        rw [hin] at hin'
        cases hin'
  · have hle : (y.code t).distance ≤ (s.sock.code t).distance := by
      rcases (Sockets.step_cases hstep).code_back hm with hcode | hcode
      · rw [hcode]
      · rw [hcode]
        exact Sockets.distance_resumed_le _
    refine ⟨x.distance_mono hle, ?_⟩
    rintro (hown | ⟨m', heq, -, hm'⟩)
    · cases hown
    · cases heq
      exact absurd hm' hm

/-! ## What holds of every run -/

structure Sound (S : ℕ) (s : State) : Prop where
  closing : Closing S s
  awaited : Sockets.Awaited S s.sock
  coded : Coded S s
  primed : Primed S s

lemma Step.awaited (h : Step S s l s') (hs : Sockets.Awaited S s.sock) : Sockets.Awaited S s'.sock := by
  rcases h.sock_cases with heq | heq | ⟨m, hm⟩
  · rwa [heq]
  · rw [heq]
    exact hs.replace
  · exact hs.step hm

lemma Sound.step (h : Sound S s) (hstep : Step S s l s') : Sound S s' where
  closing := h.closing.step hstep
  awaited := hstep.awaited h.awaited
  coded := h.coded.step hstep
  primed := h.primed.step hstep

lemma sound_of_reachable (h : Reachable (system S capacity) s) : Sound S s := by
  refine h.invariant ?_ ?_
  · rintro s rfl
    exact ⟨closing_initial capacity, Sockets.awaited_initial, fun _ => trivial, ⟨nofun, nofun⟩⟩
  · intro s l s' hs hstep
    exact hs.step (step_cases hstep)

/-! ## Calls return -/

lemma step_of_stepTask (hon : s.sock.on t = some a) (hl : l.task = some t) (h : stepTask S s t l = some s') :
    step S s l = some s' := by
  cases l <;> simp_all [step, Label.task]

section Shut

variable (h : Sound S s) (hshut : s.shut)
include h hshut

lemma Sound.closed : s.closed ∧ s.replaced ∧ s.sock.closed S := by
  obtain ⟨hclosed, hsock⟩ := h.closing.control.shut hshut
  exact ⟨hclosed, (h.closing.control.closed hclosed).1, hsock⟩

/-- Each step of a call takes it nearer to its return, and no other step takes it back. -/
theorem Sound.nears (hop : s.ops t = .run c x) (hstep : Step S s l s') : Nears s t l s' := by
  obtain ⟨hclosed, hreplaced, hsock⟩ := h.closed hshut
  have hnot : ∀ {u o}, s.ops u = o → (∀ c x, o ≠ .run c x) → u ≠ t := by
    rintro u o ho hne rfl
    rw [hop] at ho
    exact hne c x ho.symm
  cases hstep with
  | same hopen | stream _ hopen | block _ hopen =>
    rw [hreplaced] at hopen
    cases hopen
  | sock hallow hm => exact nears_sock hop h.coded h.awaited hsock hallow hm
  | grab | give | cancel | claim =>
    apply nears_same rfl rfl
    rintro (hown | ⟨m, heq, -⟩)
    · cases hown
    · cases heq
  | enterPark hop' _ _ hl | relockPark hop' _ _ hl =>
    exact nears_same rfl rfl fun hown => hnot hop' nofun (eq_of_own hl hown)
  | pollFull hop' => exact nears_same rfl rfl fun hown => hnot hop' nofun (eq_of_own rfl hown)
  | begins hop' _ _ hl | enterGot hop' _ hl | relockGot hop' _ _ hl | relockCancelled hop' _ _ hl
  | relockGivesUp hop' _ _ hl | poll hop' _ _ hl | close hop' _ _ hl | lock hop' _ hl | already hop' _ hl
  | load hop' _ hl | replace hop' hl | closeFails hop' hl | store hop' hl =>
    exact nears_update hl rfl (fun _ _ => rfl) fun hu => absurd hu (hnot hop' nofun)
  | wake hop' hclose hl =>
    refine nears_update hl rfl (fun v _ => ?_) fun hu => absurd hu (hnot hop' nofun)
    rw [State.closeDone_sock, State.setSock_sock, close_code hclose]
  | move hop' hmoves hl =>
    refine nears_update hl rfl (fun _ _ => rfl) ?_
    rintro rfl
    rw [distance_run hop', distance_run (update_self _ _ _)]
    exact hmoves.nearer hclosed
  | finish hop' _ hl | deliver hop' hl =>
    refine nears_update hl rfl (fun _ _ => rfl) ?_
    rintro rfl
    exact distance_lt_of_none hop' (update_self _ _ _)
  | wait hop' hwait hl =>
    have hcode := waitIo_code hwait
    refine nears_update hl rfl (fun v hv => ?_) ?_
    · rw [State.setOp_sock, State.setSock_sock, hcode, update_of_ne hv]
    · rintro rfl
      rw [distance_run hop', distance_run (update_self _ _ _), State.setOp_sock, State.setSock_sock, hcode, update_self]
      simp [Place.distance, Sockets.Code.distance]

/-- A task that is closing has found, or will find, that this is done. -/
theorem Sound.closing_again (hop : s.ops t = .closing z) : z = .locking ∨ z = .loading := by
  obtain ⟨hclosed, hreplaced, -⟩ := h.closed hshut
  cases z with
  | locking => exact .inl rfl
  | loading => exact .inr rfl
  | replacing =>
    rw [h.closing.control.replacing t hop] at hreplaced
    cases hreplaced
  | storing =>
    rw [(h.closing.control.storing t hop).2] at hclosed
    cases hclosed
  | waking =>
    rw [(h.closing.control.waking t hop).2] at hshut
    cases hshut

/-- Whoever holds `closing` runs, and lets go of it at once. -/
theorem Sound.releases (hclosing : s.closing = some u) :
    ∃ s', Listener.step S s (.closeNext u true) = some s' ∧ s'.closing = none := by
  obtain ⟨z, hop, hz⟩ := h.closing.control.held u hclosing
  obtain rfl := (h.closing_again hshut hop).resolve_left hz
  obtain ⟨a, hon⟩ := h.primed.running u (by rw [hop]; rfl)
  refine ⟨s.closeDone u true, ?_, rfl⟩
  simp [Listener.step, Label.task, hon, stepTask, hop, closeNext, (h.closed hshut).1]

/-- A call that runs has a step to take, or waits for one who holds `closing`. -/
theorem Sound.goesOn (hop : s.ops t = .run c x) (hon : s.sock.on t = some a) :
    (∃ l s', l.own t ∧ Listener.step S s l = some s') ∨
      ∃ u s', s.closing = some u ∧ Listener.step S s (.closeNext u true) = some s' ∧ s'.closing = none := by
  obtain ⟨hclosed, -, hsock⟩ := h.closed hshut
  have hlock := (h.awaited.emptied hsock).2
  have hcoded : (Op.run c x).coded S (s.sock.code t) := by
    rw [← hop]
    exact h.coded t
  have hgo : ∀ {p : Prop} l s', l.task = some t → stepTask S s t l = some s' →
      (∃ l s', Label.own t l ∧ Listener.step S s l = some s') ∨ p :=
    fun l s' hl htask => .inl ⟨l, s', .inl hl, step_of_stepTask hon hl htask⟩
  cases x with
  | top | settled e old =>
    apply hgo (.next t) (s.finish t c .notConnected false) rfl
    simp [stepTask, hop, next, hclosed]
  | trying =>
    apply hgo (.take t (.error .other)) (s.setOp t (.run c (.settling .other !s.replaced))) rfl
    simp [stepTask, hop, take]
  | blocked =>
    have hfree : s.sock.code t = .free := hcoded
    have htried := h.primed.tried t c hop
    obtain ⟨y, hy⟩ : ∃ y, Sockets.step s.sock (.waitIo t S false) = some y :=
      ⟨_, by simp [Sockets.step, Sockets.Label.task, hon, Sockets.stepTask, hfree, htried]; rfl⟩
    apply hgo (.wait t) ((s.setSock y).setOp t (.run c .waiting)) rfl
    simp [stepTask, hop, hy]
  | waiting =>
    by_cases hfree : s.sock.code t = .free
    · apply hgo (.waited t none) (s.setOp t (.run c .woke)) rfl
      simp [stepTask, hop, hfree]
    · obtain ⟨m, y, hin, hm, hstep⟩ :=
        Sockets.exists_step_of_waitsOn hon hcoded hfree h.awaited.suspended hlock h.awaited.locked
      have hpermits : (Op.run c .waiting).permits m := by
        cases m <;> first | rfl | cases hin
      refine .inl ⟨.sock m, s.setSock y, .inr ⟨m, rfl, hin, hm⟩, ?_⟩
      simp [Listener.step, allows, hm, hop, hpermits, hstep]
  | woke =>
    apply hgo (.next t) (s.setOp t (.run c (.settling .other false))) rfl
    simp [stepTask, hop, next, hclosed]
  | settling e old =>
    cases hclosing : s.closing with
    | none =>
      apply hgo (.next t) (s.setOp t (.run c (.settled e old))) rfl
      simp [stepTask, hop, next, hclosing]
    | some u =>
      right
      obtain ⟨s', hstep, hnone⟩ := h.releases hshut hclosing
      exact ⟨u, s', rfl, hstep, hnone⟩
  | napping =>
    apply hgo (.napped t false) (s.setOp t (.run c .top)) rfl
    simp [stepTask, hop]
  | got =>
    apply hgo (.deliver t true) (s.deliver t c) rfl
    simp [stepTask, hop]

/-- Another `close!` changes nothing but where its own task is, and who holds `closing`. -/
theorem Sound.again (hstep : Listener.step S s (.closeNext t ok) = some s') :
    s'.sock = s.sock ∧ s'.heap = s.heap ∧ s'.replaced = s.replaced ∧ s'.closed = s.closed ∧ s'.shut = s.shut ∧
      s'.reports = s.reports ∧ ∀ u ≠ t, s'.ops u = s.ops u := by
  simp only [Listener.step, Label.task, stepTask, ite_none_right_eq_some] at hstep
  obtain ⟨-, hstep⟩ := hstep
  split at hstep
  · next z hop =>
    rcases h.closing_again hshut hop with rfl | rfl
    · obtain ⟨-, rfl⟩ := of_guard hstep
      exact ⟨rfl, rfl, rfl, rfl, rfl, rfl, fun u hu => update_of_ne hu _ _⟩
    · simp only [closeNext, (h.closed hshut).1, if_true, some.injEq] at hstep
      cases hstep
      exact ⟨rfl, rfl, rfl, rfl, by simp [hshut], rfl, fun u hu => update_of_ne hu _ _⟩
  · cases hstep

end Shut

/-- Once a `close!` has returned. -/
structure AfterClose (S : ℕ) (s : State) : Prop where
  -- nobody waits on the socket: a task suspended in a wait on it that nobody has claimed is being woken
  waiters : s.sock.waiters S = []
  sleepers : ∀ t w io, s.sock.code t = .asleep w io → S ∈ io → s.sock.wait t = w →
    ∃ a woken todo, s.sock.act a = .waking S woken todo ∧ (t, w) ∈ woken
  -- calls return: each of their steps brings them nearer, and there is one, or a task holds `closing` and lets go
  nears : ∀ t c x l s', s.ops t = .run c x → step S s l = some s' → Nears s t l s'
  goesOn : ∀ t c x a, s.ops t = .run c x → s.sock.on t = some a → (∃ l s', l.own t ∧ step S s l = some s') ∨
    ∃ u s', s.closing = some u ∧ step S s (.closeNext u true) = some s' ∧ s'.closing = none
  -- another `close!` has no effect, and closing is not undone
  again : ∀ t ok s', step S s (.closeNext t ok) = some s' → s'.sock = s.sock ∧ s'.heap = s.heap ∧ s'.replaced =
    s.replaced ∧ s'.closed = s.closed ∧ s'.shut = s.shut ∧ s'.reports = s.reports ∧ ∀ u, u ≠ t → s'.ops u = s.ops u
  stays : ∀ l s', step S s l = some s' → s'.shut = true

/-- **Closing leaves no waiter behind.** A call of a task that is not cancelled, with a slot, returns
`NotConnected`, unless it returns what the old socket gave before it was replaced; and once a `close!` has
returned, nobody waits on the socket, or will, calls return, and closing again has no effect. -/
theorem closed_listener_leaves_no_waiter {capacity : ℕ} (hreach : Transition.Reachable (system S capacity) s) :
    (∀ r ∈ s.reports, r.old = false → r.outcome ≠ .tooManySockets → s.heap.cancelled r.task = false →
      r.outcome = .notConnected) ∧ (s.shut = true → AfterClose S s) := by
  have h := sound_of_reachable hreach
  refine ⟨?_, ?_⟩
  · intro r hr hold hslot huncancelled
    rcases h.closing.answers.reports r hr with hout | ⟨hgave, -⟩ | hout | ⟨-, hcancelled⟩
    · exact hout
    · rw [hold] at hgave
      cases hgave
    · exact absurd hout hslot
    · rw [huncancelled] at hcancelled
      cases hcancelled
  · intro hshut
    obtain ⟨-, -, hsock⟩ := h.closed hshut
    constructor
    · exact (h.awaited.emptied hsock).1
    · intro t w io hcode hmem hwait
      exact h.awaited.sleeper hsock hcode hmem hwait
    · intro t c x l s' hop hstep
      exact h.nears hshut hop (step_cases hstep)
    · intro t c x a hop hon
      exact h.goesOn hshut hop hon
    · intro t ok s' hstep
      exact h.again hshut hstep
    · intro l s' hstep
      exact (step_cases hstep).flags.2.2 hshut

/-- Tasks 1 and 3 have looked, in `try_accept!` and in `accept!`, and found nothing and an error. -/
def lookFirst : List Label :=
  [.sock (.resume 1 0), .tryAccept 1, .next 1, .take 1 (.error .wouldBlock), .next 1, .sock (.resume 3 2), .accept 3,
    .enter 3, .next 3, .take 3 (.error .other), .next 3]

def acceptWaits : List Label :=
  [.sock (.resume 1 0), .accept 1, .enter 1, .next 1, .take 1 (.error .wouldBlock), .wait 1, .sock (.watch 1 true),
    .sock (.watch 1 true), .sock (.watch 1 true), .sock (.suspend 1)]

def closes : List Label :=
  [.sock (.resume 2 1), .close 2, .closeNext 2 true, .closeNext 2 true, .closeNext 2 true, .closeNext 2 true,
    .closeNext 2 true]

def waitEnds : List Label :=
  [.sock (.resume 1 0), .sock (.forget 1), .sock (.forget 1), .waited 1 none, .next 1, .next 1, .next 1]

/-- An accept that waits while the listener is closed. -/
theorem closed_listener_leaves_no_waiter_accepting : ∃ s, Transition.Reachable (system 5 1) s ∧ AfterClose 5 s ∧
      s.reports = [⟨1, .notConnected, false, false⟩] := by
  obtain ⟨s, hreach, hs⟩ := exists_reachable_of_run (system 5 1) rfl (acceptWaits ++ closes ++ waitEnds)
    (fun s => decide (s.shut = true ∧ s.reports = [⟨1, .notConnected, false, false⟩])) (by decide)
  obtain ⟨hshut, hreports⟩ := of_decide_eq_true hs
  exact ⟨s, hreach, (closed_listener_leaves_no_waiter hreach).2 hshut, hreports⟩

/-- Tasks that looked before the socket was replaced, and are still in their calls when it is, return what they
found. -/
theorem looked_before_replaced : ∃ s s', Transition.Reachable (system 5 2) s ∧ s.replaced = true ∧
    (∃ c x, s.ops 1 = .run c x) ∧ (∃ c x, s.ops 3 = .run c x) ∧
    Transition.run (system 5 2) s [.next 1, .next 3, .closeNext 2 true, .closeNext 2 true] = some s' ∧
    s'.shut = true ∧ s'.reports = [⟨1, .notReady, false, true⟩, ⟨3, .failed .other, false, true⟩] := by
  obtain ⟨s, hreach, hs⟩ := exists_reachable_of_run (system 5 2) rfl (lookFirst ++ closes.take 5)
    (fun s => decide (s.replaced = true ∧ s.ops 1 = .run ⟨.tryAccept, 0, false⟩ (.settled .wouldBlock true) ∧
      s.ops 3 = .run ⟨.accept, 1, false⟩ (.settled .other true) ∧
      (run (system 5 2) s [.next 1, .next 3, .closeNext 2 true, .closeNext 2 true]).any (fun s' =>
        decide (s'.shut = true ∧ s'.reports = [⟨1, .notReady, false, true⟩, ⟨3, .failed .other, false, true⟩]))
          = true))
    (by decide)
  obtain ⟨hreplaced, hpoll, haccept, hrest⟩ := of_decide_eq_true hs
  obtain ⟨s', hrun, hs'⟩ := (any_eq_true _ _).mp hrest
  exact ⟨s, s', hreach, hreplaced, ⟨_, _, hpoll⟩, ⟨_, _, haccept⟩, hrun, of_decide_eq_true hs'⟩

end RocNet.Listener
