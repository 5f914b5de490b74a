import RocNet.Analysis.Custody

/-!
# Every task is in one place

One lemma for each kind of step, and the invariant of every run from them. A single task is held by one thread, on one
queue, suspended or done, and never resumed again once its coroutine has returned (`Returned`).
-/

namespace RocNet.Sched

open Function List Ledger State

/-! ## Calls and their operations -/

variable {s s' : State} {θ : Thread} {t : TaskId}

lemma Custody.callStep (h : Custody s) (hs : CallStep s θ s') : Custody s' := by
  cases hs with
  | wake hmay _ | cancel hmay _ => exact h.setOp (op_of_mayCall hmay) rfl trivial
  | spawn hmay =>
    -- an id not yet given out stands nowhere, whatever its word says
    have hop := op_of_mayCall hmay
    have hunspawned : ¬ s.Spawned s.nextTask := fun hsp => absurd hsp.2 (lt_irrefl _)
    have hword := h.unborn _ hunspawned
    have hfirst := h.first
    refine h.of_enter (θ := θ) (t := s.nextTask) (fun ha => hunspawned ha.1) ?_ ?_ ?_ ?_ ?_
      (Nat.le_succ _) ?_ ?_ rfl rfl (.setOp rfl rfl) rfl ?_
    · rw [hword]
      decide
    · simp only [content, setOp_loop, setTask_loop, setOp_op, update_self, hop, Op.held, append_nil]
      exact perm_append_singleton _ _
    · intro u hu
      simp [word, hu]
    · simp [word, newTask]
    · intro u
      simp only [State.Spawned, setOp_nextTask]
      grind
    · intro u hu
      simp [hu]
    · simp [newTask]
    · simp [OpOk, word, newTask]

lemma LoopOk.mark {w w' : TaskId → UInt8} (h : LoopOk w l) (hother : ∀ u, w u ≠ RUNNING → w' u = w u)
    (hmark : ∀ u, w u = RUNNING → w' u = RUNNING ∨ w' u = RUNNING ||| NOTIFIED) : LoopOk w' l := by
  have hkeep : ∀ {u : TaskId} {x : UInt8}, w u = x → x ≠ RUNNING → w' u = x := by
    intro u x hu hx
    rw [hother u (hu ▸ hx), hu]
  cases l with
  | idle | firing => trivial
  | popped t | requeuing t | woken t | retiring t | finishing t => exact hkeep h (by decide)
  | moving ts => exact fun t ht => hkeep (h t ht) (by decide)
  | running t | yielded t | waiting t | returned t =>
    rcases h with hr | hn
    · exact hmark t hr
    · exact .inr (hkeep hn (by decide))

/-- `schedule` marks a running task: whoever runs it keeps it, and sees the mark when it
suspends. -/
theorem Custody.mark_running (h : Custody s) (ht : word s t = RUNNING) :
    Custody (s.setTask t fun k => { k with state := RUNNING ||| NOTIFIED }) := by
  let s' := s.setTask t fun k => { k with state := RUNNING ||| NOTIFIED }
  have hw : ∀ u, word s' u = if u = t then RUNNING ||| NOTIFIED else word s u :=
    fun u => word_setTask u
  have hother : ∀ u, word s u ≠ RUNNING → word s' u = word s u := by
    intro u hu
    rw [hw u, if_neg]
    rintro rfl
    exact hu ht
  have hkeep : ∀ {u : TaskId}, word s u = NOTIFIED → word s' u = NOTIFIED := by
    intro u hu
    rw [hother u (by rw [hu]; decide), hu]
  have hlive : ∀ u, Live (word s' u) ↔ Live (word s u) := by
    intro u
    rw [hw u]
    split
    · next hut =>
      subst hut
      exact iff_of_true (.inr (.inr rfl)) (.inr (.inl ht))
    · rfl
  have hcontent : ∀ p, content s' p = content s p := by
    intro p
    cases p <;> rfl
  show Custody s'
  refine ⟨?_, ?_, ?_, ?_, ?_, ?_, ?_, ?_, h.first⟩
  · exact h.placed.same hcontent fun u => and_congr Iff.rfl (hlive u)
  · intro u
    by_cases hu : word s u = RUNNING
    · exact .inl ((hlive u).mpr (.inr (.inl hu)))
    · rw [hother u hu]
      exact h.words u
  · exact fun u hu => hkeep (h.unborn u hu)
  · intro θ
    refine (h.loops θ).mark hother fun u hu => ?_
    rw [hw u]
    split
    · exact .inr rfl
    · exact .inl hu
  · intro θ
    show OpOk (word s') (s.op θ)
    have hθ := h.ops θ
    cases hop : s.op θ with
    | push u =>
      rw [hop] at hθ
      exact hkeep hθ
    | _ =>
      rw [hop] at hθ
      exact hθ
  · exact fun i u hu => hkeep (h.queued i u hu)
  · exact fun u hu => hkeep (h.injected u hu)
  · intro u hu
    have hco : (s'.tasks u).co = (s.tasks u).co := by
      obtain rfl | hut := eq_or_ne u t
      · simp [s']
      · simp [s', hut]
    rw [hco]
    refine h.co u fun hd => hu ?_
    rw [hother u (by rw [hd]; decide), hd]

/-- `schedule` takes up a suspended task, to push it. -/
theorem Custody.mark_suspended (h : Custody s)
    (hop : (s.op θ).held = []) (ht : word s t = 0) :
    Custody ((s.setTask t fun k => { k with state := NOTIFIED }).setOp θ (.push t)) := by
  have hspawned : s.Spawned t := by
    by_contra hn
    rw [h.unborn t hn] at ht
    exact absurd ht (by decide)
  have hdead : ¬ Alive s t := by
    rintro ⟨-, hl⟩
    rw [ht] at hl
    rcases hl with hl | hl | hl <;> exact absurd hl (by decide)
  refine h.of_enter (θ := θ) hdead (by rw [ht]; decide) ?_ ?_ ?_ ?_ le_rfl ?_ ?_ rfl rfl
    (.setOp rfl rfl) rfl ?_
  · simp only [content, setOp_loop, setTask_loop, setOp_op, update_self, hop, append_nil]
    exact perm_append_singleton _ _
  · intro u hu
    simp [word, hu]
  · simp [word]
  · intro u
    refine ⟨.inl, ?_⟩
    rintro (hu | rfl)
    · exact hu
    · exact hspawned
  · intro u hu
    simp [hu]
  · simpa using h.co t (by rw [ht]; decide)
  · simp [OpOk, word]

lemma Custody.opStep (h : Custody s) (hs : OpStep s θ s') : Custody s' := by
  cases hs with
  | cancelStore hop | report hop => exact (h.setTask rfl fun _ => rfl).setOp hop rfl trivial
  | cancelLoadNone hop _ | cancelLoad hop _ | cancelRefused hop _ | cancelWake hop _ | claimLate hop _ =>
    exact h.setOp hop rfl trivial
  | claim hop _ => exact (h.setTask rfl fun _ => rfl).setRecord.setOp hop rfl trivial
  | observe hop | markAgain hop =>
    exact h.setOp hop (held_scheduleNext _ _) (opOk_scheduleNext _ (h.words _))
  | @mark t seen hop hseen =>
    have hok := h.ops θ
    rw [hop] at hok
    rcases hok with rfl | rfl
    · exact h.mark_suspended (by rw [hop]; rfl) hseen
    · exact (h.mark_running hseen).setOp hop rfl trivial
  | @push i t hθ hop =>
    subst hθ
    have hN := h.ops (.worker i)
    rw [hop] at hN
    refine h.enqueue (θ := .worker i) [t] (forall_mem_singleton.mpr hN) rfl ?_ rfl rfl rfl (.setOp rfl rfl)
      (h.loops _) (by simp [OpOk])
    simp [content, hop, Op.held]
  | @inject j t hθ hop =>
    subst hθ
    have hN := h.ops (.plain j)
    rw [hop] at hN
    refine h.of_move (θ := .plain j) .inject (by simp) ?_ ?_ (fun _ _ => rfl) (by simp) rfl rfl
      (.setOp rfl rfl) (h.loops _) (by simp [OpOk])
    · simp only [content, setOp_loop, setInject_loop, setOp_op,
        update_self, setOp_inject, setInject_inject, hop]
      simp only [Op.held, append_nil, append_assoc]
      exact Perm.append_left _ perm_append_comm
    · intro u hu
      refine (mem_append.mp hu).imp_right fun ht => ?_
      rw [mem_singleton.mp ht]
      exact hN

/-! ## Workers -/

lemma Custody.takeStep (h : Custody s) (hidle : s.loop (.worker i) = .idle) (hop : s.op (.worker i) = .none)
    (hs : TakeStep s i s') : Custody s' := by
  cases hs with
  | @pop t rest hqueue =>
    refine h.dequeue (θ := .worker i) [t] rest hqueue rfl ?_ rfl rfl rfl (.setLoop rfl rfl) ?_ (h.ops _)
    · simp [content, hidle, hop, Loop.held, Op.held]
    · simpa [LoopOk] using h.queued i t (by simp [hqueue])
  | @steal j n hother =>
    refine h.dequeue (θ := .worker i) ((s.queue j).take n) ((s.queue j).drop n)
      (take_append_drop _ _).symm rfl ?_ rfl rfl rfl (.setLoop rfl rfl) ?_ (h.ops _)
    · simp [content, hidle, hop, Loop.held, Op.held]
    · simpa [LoopOk] using fun t ht => h.queued j t (mem_of_mem_take ht)
  | @injected t rest hinject =>
    refine h.of_move (θ := .worker i) .inject (by simp) ?_ ?_ (fun _ _ => rfl) (by simp) rfl rfl
      (.setLoop rfl rfl) ?_ (h.ops _)
    · simp [content, hidle, hop, Loop.held, Op.held, hinject]
    · intro u hu
      refine .inl ?_
      simp only [content, hinject]
      exact mem_cons_of_mem t hu
    · simpa [LoopOk] using h.injected t (by simp [hinject])
  | timers _ =>
    refine Custody.setLoop ?_ hidle rfl trivial
    exact h.congr rfl rfl rfl rfl rfl rfl

lemma Custody.loopStep (h : Custody s) (hop : s.op (.worker i) = .none) (hs : LoopStep s i s') : Custody s' := by
  have hmine := h.loops (.worker i)
  cases hs with
  | start hloop =>
    exact h.store hloop hop rfl rfl (.inl ⟨.inr (.inl rfl), rfl⟩) fun w hw => .inl hw
  | notify hloop =>
    rcases hloop with hloop | hloop <;> exact h.store hloop hop rfl rfl (.inl ⟨.inl rfl, rfl⟩) fun w hw => hw
  | sleep hloop _ =>
    exact h.store hloop hop rfl rfl (.inr ⟨.inl rfl, rfl⟩) fun _ _ => trivial
  | @woken t hloop hstate =>
    rw [hloop] at hmine
    exact h.setLoop hloop rfl (hmine.resolve_left hstate)
  | @requeue t hloop =>
    rw [hloop] at hmine
    refine h.enqueue (θ := .worker i) [t] (forall_mem_singleton.mpr hmine) rfl ?_ rfl rfl rfl
      (.setLoop rfl rfl) (by simp [LoopOk]) (h.ops _)
    simp [content, hloop, hop, Loop.held, Op.held]
  | done hloop =>
    exact h.store hloop hop rfl rfl (.inr ⟨.inr rfl, rfl⟩) fun w hw => hw
  | retire hloop =>
    rw [hloop] at hmine
    refine (h.setTask rfl fun hn => absurd hmine hn).setLoop hloop rfl ?_
    show word _ _ = DONE
    rw [word_setTask, if_pos rfl]
    exact hmine
  | finish hloop => exact (h.setTask rfl fun _ => rfl).setLoop hloop rfl trivial
  | @arrive ts hloop =>
    rw [hloop] at hmine
    refine h.enqueue (θ := .worker i) ts hmine rfl ?_ rfl rfl rfl (.setLoop rfl rfl) (by simp [LoopOk]) (h.ops _)
    simp [content, hloop, hop, Loop.held, Op.held]
  | fired hloop => exact h.setLoop hloop rfl trivial
  | fire hloop =>
    refine Custody.setOp ?_ hop rfl trivial
    exact h.setLoop hloop rfl trivial

/-! ## A running task's code -/

lemma Custody.codeStep (h : Custody s) (hloop : s.loop θ = .running t) (hop : s.op θ = .none)
    (hs : CodeStep s θ t s') : Custody s' := by
  have hmine := h.loops θ
  rw [hloop] at hmine
  cases hs with
  | @begin c _ =>
    exact Custody.congr (h.setTask (t := t) (f := fun k =>
      { k with code := .beginWoke ⟨s.nextWait, c⟩, latest := s.nextWait }) rfl fun _ => rfl)
      rfl rfl rfl rfl rfl rfl
  | beginCancelled _ _ => exact (h.setTask rfl fun _ => rfl).setOp hop rfl trivial
  | beginDone _ => exact (h.setTask rfl fun _ => rfl).setRecord
  | timer _ _ => exact (h.setTask rfl fun _ => rfl).setTimers.setRecord
  | removeTimer _ _ => exact (h.setTask rfl fun _ => rfl).setTimers
  | suspend _ =>
    refine (h.setTask rfl fun _ => rfl).setLoop hloop rfl ?_
    rw [word_setTask_of_state rfl]
    exact hmine
  | yield _ | ret _ => exact h.setLoop hloop rfl hmine
  | _ => exact h.setTask rfl fun _ => rfl

/-! ## Every reachable state -/

lemma custody_initial : Custody initial := by
  have hcontent : ∀ p, content initial p = if p = .queue 0 then [1] else [] := by
    intro p
    cases p with
    | thread θ | inject => rfl
    | queue i => simp [content, initial]
  have halive : ∀ t, Alive initial t ↔ t = 1 := by
    intro t
    have hspawned : initial.Spawned t ↔ t = 1 := by
      simp only [State.Spawned, initial]
      grind
    rw [Alive, hspawned]
    exact and_iff_left (.inl rfl)
  refine ⟨?_, fun _ => .inl (.inl rfl), fun _ _ => rfl, fun _ => trivial, fun _ => trivial,
    fun _ _ _ => rfl, fun _ _ => rfl, fun _ _ => rfl, by decide⟩
  intro t
  rw [halive t]
  refine ⟨?_, fun ht p => ?_⟩
  · rintro rfl
    refine ⟨.queue 0, fun p => ?_⟩
    rw [hcontent p]
    split <;> rfl
  · rw [hcontent p]
    split
    · exact count_eq_zero.mpr (by simpa using ht)
    · rfl

lemma Custody.step (h : Custody s) (hs : step s l = some s') : Custody s' := by
  cases step_cases hs with
  | tick => exact h.congr rfl rfl rfl rfl rfl rfl
  | call hs => exact h.callStep hs
  | op hs => exact h.opStep hs
  | take hidle hop hs => exact h.takeStep hidle hop hs
  | loop hop hs => exact h.loopStep hop hs
  | code hloop hop hs => exact h.codeStep hloop hop hs

lemma custody_of_reachable (h : Transition.Reachable system s) : Custody s :=
  h.invariant (fun s hs => by cases hs; exact custody_initial) fun _ _ _ hc hs => hc.step hs

/-! ## A task that has returned -/

/-- Its coroutine has returned: `DONE`, or about to be. -/
def Returned (s : State) (t : TaskId) : Prop := word s t = DONE ∨ ∃ θ, s.loop θ = .returned t

variable {s : State} {t : TaskId}

lemma Custody.notMem_of_done (h : Custody s) (hd : word s t = DONE) (p : Place) : t ∉ content s p :=
  fun hp => (h.placed.alive_of_mem hp).ne_done hd

/-- `DONE` is for good: a store is only made to a task in the storing thread's hands, and
`schedule` leaves a done task alone. -/
theorem Custody.done_step (h : Custody s) (hs : Sched.step s l = some s') (hd : word s t = DONE) :
    word s' t = DONE := by
  have hother : ∀ {u : TaskId} {k : Task} {r : State}, r.tasks = update s.tasks u k →
      word s u ≠ DONE → word r t = DONE := by
    intro u k r hr hu
    rw [word_of_update hr, if_neg, hd]
    rintro rfl
    exact hu hd
  have hkept : ∀ {u : TaskId} {k : Task} {r : State}, r.tasks = update s.tasks u k →
      k.state = (s.tasks u).state → word r t = DONE := by
    intro u k r hr hk
    rw [word_of_update hr]
    split
    · next hut => rw [hk, ← hut, ← hd, word]
    · exact hd
  cases step_cases hs with
  | tick => exact hd
  | call hs =>
    cases hs with
    | spawn _ =>
      refine hother rfl ?_
      rw [h.unborn _ fun hsp => absurd hsp.2 (lt_irrefl _)]
      decide
    | _ => exact hd
  | @op θ _ _ hs =>
    cases hs with
    | cancelStore _ | claim _ _ | report _ => exact hkept rfl rfl
    | mark hop hseen =>
      refine hother rfl fun hu => ?_
      have hok := h.ops θ
      rw [hop] at hok
      rw [word, hseen] at hu
      rcases hok with hok | hok <;> rw [hok] at hu <;> exact absurd hu (by decide)
    | _ => exact hd
  | take _ _ hs => cases hs <;> exact hd
  | @loop i _ _ hs =>
    have hheld : ∀ {u : TaskId} {l : Loop}, s.loop (.worker i) = l → u ∈ l.held → word s u ≠ DONE := by
      intro u l hloop hu hdu
      refine h.notMem_of_done hdu (.thread (.worker i)) (mem_append_left _ ?_)
      rw [hloop]
      exact hu
    cases hs with
    | start hloop | sleep hloop _ | done hloop => exact hother rfl (hheld hloop mem_cons_self)
    | notify hloop =>
      rcases hloop with hloop | hloop <;> exact hother rfl (hheld hloop mem_cons_self)
    | retire _ | finish _ => exact hkept rfl rfl
    | _ => exact hd
  | code _ _ hs =>
    cases hs with
    | yield _ | ret _ => exact hd
    | _ => exact hkept rfl rfl

lemma Custody.returned_step (h : Custody s) (hs : Sched.step s l = some s') (hr : Returned s t) : Returned s' t := by
  rcases hr with hd | ⟨θ₀, hθ₀⟩
  · exact .inl (h.done_step hs hd)
  · cases step_cases hs with
    | tick => exact .inr ⟨θ₀, hθ₀⟩
    | call hs | op hs => cases hs <;> exact .inr ⟨θ₀, hθ₀⟩
    | @take i _ _ hidle _ hs =>
      have hne : θ₀ ≠ .worker i := by
        rintro rfl
        rw [hθ₀] at hidle
        cases hidle
      cases hs <;> exact .inr ⟨θ₀, by simpa [hne] using hθ₀⟩
    | @loop i _ _ hs =>
      by_cases hne : θ₀ = .worker i
      · subst hne
        cases hs with
        | done hloop =>
          rw [hθ₀] at hloop
          cases hloop
          exact .inl (by simp [word])
        | notify hloop => rcases hloop with hloop | hloop <;> rw [hθ₀] at hloop <;> cases hloop
        | sleep hloop _ | woken hloop _ | start hloop | requeue hloop | retire hloop | finish hloop
        | arrive hloop | fired hloop | fire hloop =>
          rw [hθ₀] at hloop
          cases hloop
      · cases hs <;> exact .inr ⟨θ₀, by simpa [hne] using hθ₀⟩
    | @code θ _ u _ hloop _ hs =>
      have hne : θ₀ ≠ θ := by
        rintro rfl
        rw [hθ₀] at hloop
        cases hloop
      cases hs <;> exact .inr ⟨θ₀, by simpa [hne] using hθ₀⟩

lemma Custody.not_running_of_returned (h : Custody s) (hr : Returned s t) (θ : Thread) : s.loop θ ≠ .running t := by
  intro hθ
  have hmem : t ∈ content s (.thread θ) := by simp [content, hθ, Loop.held]
  rcases hr with hd | ⟨θ₀, hθ₀⟩
  · exact h.notMem_of_done hd _ hmem
  · have hmem₀ : t ∈ content s (.thread θ₀) := by simp [content, hθ₀, Loop.held]
    have hsame : θ₀ = θ := by simpa using h.placed.place_unique hmem hmem₀
    subst hsame
    rw [hθ₀] at hθ
    cases hθ

/-! ## Where a task is -/

/-- The situations a task can be in. -/
inductive Situation
  | held
  | queued
  | suspended
  | done
  deriving DecidableEq, Repr

/-- What each situation says: in one thread's hands once and nowhere else, on one queue once and
nowhere else, or nowhere, with the word 0 or `DONE`. -/
def Situation.Holds (s : State) (t : TaskId) : Situation → Prop
  | .held => ∃ θ, SoleAt (content s) t (.thread θ)
  | .queued => (∃ i, SoleAt (content s) t (.queue i)) ∨ SoleAt (content s) t .inject
  | .suspended => word s t = 0 ∧ Absent (content s) t
  | .done => word s t = DONE ∧ Absent (content s) t

lemma Custody.exists_situation (h : Custody s) (ht : s.Spawned t) : ∃ x : Situation, x.Holds s t := by
  rcases h.words t with hl | h0
  · obtain ⟨p, hp⟩ := (h.placed t).1 ⟨ht, hl⟩
    cases p with
    | thread θ => exact ⟨.held, θ, hp⟩
    | queue i => exact ⟨.queued, .inl ⟨i, hp⟩⟩
    | inject => exact ⟨.queued, .inr hp⟩
  · have hdead : ¬ Alive s t := by
      rintro ⟨-, hl⟩
      rcases h0 with h0 | h0 <;> rw [h0] at hl <;> rcases hl with hl | hl | hl <;> exact absurd hl (by decide)
    have habs := (h.placed t).2 hdead
    rcases h0 with h0 | hd
    · exact ⟨.suspended, h0, habs⟩
    · exact ⟨.done, hd, habs⟩

/-- The situation of a task that stands in a place. -/
def Place.situation : Place → Situation
  | .thread _ => .held
  | .queue _ | .inject => .queued

/-- A situation is that of the task's place, or one of the two of a task that has none. -/
theorem Situation.Holds.place_or_word {x : Situation} (h : x.Holds s t) :
    (∃ p, SoleAt (content s) t p ∧ x = p.situation) ∨
    Absent (content s) t ∧ (x = .suspended ∧ word s t = 0 ∨ x = .done ∧ word s t = DONE) := by
  cases x with
  | held =>
    obtain ⟨θ, hθ⟩ := h
    exact .inl ⟨.thread θ, hθ, rfl⟩
  | queued =>
    rcases h with ⟨i, hi⟩ | hi
    · exact .inl ⟨.queue i, hi, rfl⟩
    · exact .inl ⟨.inject, hi, rfl⟩
  | suspended => exact .inr ⟨h.2, .inl ⟨rfl, h.1⟩⟩
  | done => exact .inr ⟨h.2, .inr ⟨rfl, h.1⟩⟩

lemma Situation.unique {x y : Situation} (hx : x.Holds s t) (hy : y.Holds s t) : x = y := by
  rcases hx.place_or_word with ⟨p, hp, rfl⟩ | ⟨habs, hxw⟩
  · rcases hy.place_or_word with ⟨q, hq, rfl⟩ | ⟨habs, -⟩
    · rw [hp.unique hq]
    · exact absurd habs (Sole.not_absent ⟨p, hp⟩)
  · rcases hy.place_or_word with ⟨q, hq, -⟩ | ⟨-, hyw⟩
    · exact absurd habs (Sole.not_absent ⟨q, hq⟩)
    · have hne : (0 : UInt8) ≠ DONE := by decide
      rcases hxw with ⟨rfl, h0⟩ | ⟨rfl, h0⟩ <;> rcases hyw with ⟨rfl, hd⟩ | ⟨rfl, hd⟩
      · rfl
      · exact absurd (h0.symm.trans hd) hne
      · exact absurd (hd.symm.trans h0) hne
      · rfl

/-- **Custody of tasks.** In every reachable state every spawned task is in exactly one
situation; it is nowhere twice; no two workers run it; and once its coroutine has returned, it
is not resumed in any state any run leads to. -/
theorem task_in_one_situation {s : State} (h : Transition.Reachable system s) {t : TaskId} (ht : s.Spawned t) :
    (∃! x : Situation, x.Holds s t) ∧ (∀ p, (content s p).count t ≤ 1) ∧
    (∀ p q, t ∈ content s p → t ∈ content s q → p = q) ∧
    (∀ θ θ', s.loop θ = .running t → s.loop θ' = .running t → θ = θ') ∧
    (Returned s t → ∀ ls s', Transition.run system s ls = some s' → ∀ θ, s'.loop θ ≠ .running t) := by
  have hc := custody_of_reachable h
  have hplace : ∀ p q, t ∈ content s p → t ∈ content s q → p = q := fun p q hp hq => hc.placed.place_unique hq hp
  refine ⟨?_, hc.placed.count_le_one t, hplace, ?_, ?_⟩
  · obtain ⟨x, hx⟩ := hc.exists_situation ht
    exact ⟨x, hx, fun y hy => Situation.unique hy hx⟩
  · intro θ θ' hθ hθ'
    have heq := hplace (.thread θ) (.thread θ') (by simp [content, hθ, Loop.held]) (by simp [content, hθ', Loop.held])
    exact Place.thread.inj heq
  · intro hr ls s' hrun
    have hkept : Custody s' ∧ Returned s' t := by
      refine Transition.run_preserves (I := fun r => Custody r ∧ Returned r t) ?_ ⟨hc, hr⟩ hrun
      exact fun r l r' hI hs => ⟨hI.1.step hs, hI.1.returned_step hs hI.2⟩
    exact hkept.1.not_running_of_returned hkept.2

/-- The program's end: `main!`'s task popped, run to its return, with its worker about to store
`DONE`. -/
theorem task_in_one_situation_main : ∃ s, Transition.Reachable system s ∧ s.Spawned 1 ∧
    Returned s 1 ∧ (∃! x : Situation, x.Holds s 1) ∧
    ∀ ls s', Transition.run system s ls = some s' → ∀ θ, s'.loop θ ≠ .running 1 := by
  obtain ⟨s, hs, hp⟩ := Transition.exists_reachable_of_run system (s := initial) rfl
    [.take (.worker 0) .pop, .loop (.worker 0), .code (.worker 0) .ret]
    (fun s => decide (1 < s.nextTask) && decide (s.loop (.worker 0) = .returned 1)) (by decide)
  simp only [Bool.and_eq_true, decide_eq_true_eq] at hp
  have hspawned : s.Spawned 1 := ⟨le_rfl, hp.1⟩
  have hreturned : Returned s 1 := .inr ⟨.worker 0, hp.2⟩
  have hmain := task_in_one_situation hs hspawned
  exact ⟨s, hs, hspawned, hreturned, hmain.1, hmain.2.2.2.2 hreturned⟩

end RocNet.Sched
