import RocNet.Analysis.TaskCustody

/-!
# No delivered wake-up is lost

`wake` claims a wait, and only then calls `schedule`, which may rely on someone else to queue the task. So a task
about to suspend whose wait has been claimed must be marked, or its waker still on the way to marking it
(`Delivering`), from when `begin_wait` publishes the wait until the task is resumed.
-/

namespace RocNet.Sched

open Function List

/-! ## The invariant -/

/-- Inside `suspend(Wait)`. -/
def Code.isSuspended : Code → Bool
  | .suspended _ _ => true
  | _ => false

/-- In a wait that `begin_wait` has published, and that has not been resumed. -/
def Code.inWait : Code → Bool
  | .beginCheck _ | .beginDone _ | .begun _ | .parking _ _ | .timing _ _ | .suspending _ _
  | .suspended _ _ => true
  | _ => false

/-- The id about to be published is one `new_wait_id` gave, so not 0. -/
def Code.IdOk : Code → Prop
  | .beginWoke w | .beginCancellable w | .beginWait w => w.id ≠ 0
  | _ => True

/-- The task a call has claimed a wait of, while it has not yet queued or marked it: between the
compare-exchange of `wake` and the end of `schedule`'s loop. -/
def Op.delivering : Op → Option TaskId
  | .report t _ _ | .observe t | .mark t _ => some t
  | _ => Option.none

/-- Some thread is inside `wake` for `t`, past its successful compare-exchange. -/
def Delivering (s : State) (t : TaskId) : Prop := ∃ θ, (s.op θ).delivering = some t

/-- The words that say the task is queued, or goes back on a queue when it suspends. -/
def Marked (x : UInt8) : Prop := x = NOTIFIED ∨ x = RUNNING ||| NOTIFIED

/-- What a task's words say of its code, given whether a wake-up is being delivered to it. -/
structure Task.Sound (k : Task) (delivering : Prop) : Prop where
  notified : k.state = NOTIFIED → k.code = .user ∨ k.code.isSuspended = true
  asleep : k.state = 0 → k.code.isSuspended = true
  done : k.state = DONE → k.code = .user
  id : k.code.IdOk
  heard : k.code.inWait = true → k.wait = 0 → Marked k.state ∨ delivering

/-- What a worker that `resume` returned to knows of the task's code. -/
def LoopCode (code : TaskId → Code) : Loop → Prop
  | .waiting t | .woken t => (code t).isSuspended = true
  | .yielded t | .returned t => code t = .user
  | _ => True

/-- The delivery of wake-ups. -/
structure Delivery (s : State) : Prop where
  nextWait : s.nextWait ≠ 0
  tasks : ∀ t, (s.tasks t).Sound (Delivering s t)
  loops : ∀ θ, LoopCode (fun t => (s.tasks t).code) (s.loop θ)

/-! ## Rules -/

variable {k : Task} {p : Prop} {s s' : State} {θ : Thread} {t : TaskId} {l : Label}

lemma Task.Sound.congr {k' : Task} {q : Prop} (h : k.Sound p) (hstate : k'.state = k.state)
    (hcode : k'.code = k.code) (hwait : k'.wait = k.wait) (hpq : p → q) : k'.Sound q := by
  refine ⟨?_, ?_, ?_, ?_, ?_⟩
  · rw [hstate, hcode]
    exact h.notified
  · rw [hstate, hcode]
    exact h.asleep
  · rw [hstate, hcode]
    exact h.done
  · rw [hcode]
    exact h.id
  · rw [hstate, hcode, hwait]
    exact fun hin h0 => (h.heard hin h0).imp_right hpq

lemma Delivering.setOp {o : Op} (h : Delivering s t)
    (hθ : (s.op θ).delivering = some t → o.delivering = some t) : Delivering (s.setOp θ o) t := by
  obtain ⟨θ', hθ'⟩ := h
  obtain rfl | hne := eq_or_ne θ' θ
  · exact ⟨θ', by simpa using hθ hθ'⟩
  · exact ⟨θ', by simpa [hne] using hθ'⟩

lemma LoopCode.congr {code code' : TaskId → Code} {l : Loop} (h : LoopCode code l)
    (heq : ∀ t ∈ l.held, code' t = code t) : LoopCode code' l := by
  cases l with
  | waiting t | woken t | yielded t | returned t =>
    simp only [LoopCode, Loop.held, mem_singleton, forall_eq] at h heq ⊢
    rw [heq]
    exact h
  | _ => trivial

lemma Delivery.congr (h : Delivery s) (htasks : s'.tasks = s.tasks)
    (hop : s'.op = s.op) (hloop : s'.loop = s.loop) (hn : s'.nextWait ≠ 0) : Delivery s' := by
  refine ⟨hn, fun t => ?_, fun θ => ?_⟩
  · rw [htasks]
    exact (h.tasks t).congr rfl rfl rfl (by simp only [Delivering, hop, imp_self])
  · rw [htasks, hloop]
    exact h.loops θ

/-- A thread's call goes on. If it was delivering a wake-up, it still is, or the task is marked,
or it is in no wait. -/
theorem Delivery.setOp {o o' : Op} (h : Delivery s) (hop : s.op θ = o)
    (hend : ∀ t, o.delivering = some t → o'.delivering = some t ∨ Marked (word s t) ∨
      (s.tasks t).code.inWait = false) : Delivery (s.setOp θ o') := by
  refine ⟨h.nextWait, fun t => ?_, h.loops⟩
  have ht := h.tasks t
  refine ⟨ht.notified, ht.asleep, ht.done, ht.id, fun hin h0 => ?_⟩
  rcases ht.heard hin h0 with hm | hd
  · exact .inl hm
  · by_cases hθ : o.delivering = some t
    · rcases hend t hθ with hgo | hm | hout
      · exact .inr (hd.setOp fun _ => hgo)
      · exact .inl hm
      · exact absurd hin (by simp [hout])
    · exact .inr (hd.setOp fun hdel => absurd (hop ▸ hdel) hθ)

lemma Delivery.setLoop {l : Loop} (h : Delivery s)
    (hl : LoopCode (fun t => (s.tasks t).code) l) : Delivery (s.setLoop θ l) := by
  refine ⟨h.nextWait, h.tasks, fun θ' => ?_⟩
  obtain rfl | hne := eq_or_ne θ' θ
  · simpa using hl
  · simpa [hne] using h.loops θ'

lemma Delivery.setTask {f : Task → Task} (h : Delivery s) (hsound : (f (s.tasks t)).Sound (Delivering s t))
    (hcode : (f (s.tasks t)).code = (s.tasks t).code ∨
      ∀ θ, t ∈ (s.loop θ).held → ∀ code, LoopCode code (s.loop θ)) : Delivery (s.setTask t f) := by
  refine ⟨h.nextWait, ?_, fun θ => ?_⟩
  · exact (forall_update_iff s.tasks fun u x => x.Sound (Delivering s u)).mpr ⟨hsound, fun u _ => h.tasks u⟩
  · show LoopCode (fun u => (update s.tasks t (f (s.tasks t)) u).code) (s.loop θ)
    by_cases hmem : t ∈ (s.loop θ).held
    · rcases hcode with hsame | hany
      · refine (h.loops θ).congr fun u _ => ?_
        obtain rfl | hut := eq_or_ne u t
        · rw [update_self, hsame]
        · rw [update_of_ne hut]
      · exact hany θ hmem _
    · refine (h.loops θ).congr fun u hu => ?_
      have hut : u ≠ t := by
        rintro rfl
        exact hmem hu
      rw [update_of_ne hut]

lemma Custody.loopCode_of_running (h : Custody s) (hθ : s.loop θ = .running t ∨ s.loop θ = .popped t) (θ' : Thread)
    (hmem : t ∈ (s.loop θ').held) (code : TaskId → Code) : LoopCode code (s.loop θ') := by
  have hheld : t ∈ content s (.thread θ) := by
    rcases hθ with hθ | hθ <;> simp [content, hθ, Loop.held]
  have hsame := h.placed.place_unique hheld (q := .thread θ') (mem_append_left _ hmem)
  rw [Place.thread.inj hsame]
  rcases hθ with hθ | hθ <;> rw [hθ] <;> trivial

lemma Task.Sound.of_running (hrun : k.state = RUNNING ∨ k.state = RUNNING ||| NOTIFIED) (hid : k.code.IdOk)
    (heard : k.code.inWait → k.wait = 0 → Marked k.state ∨ p) : k.Sound p := by
  have hnot : ∀ x : UInt8, x ≠ RUNNING → x ≠ RUNNING ||| NOTIFIED → k.state ≠ x := by
    rintro x hx hx' rfl
    exact hrun.elim hx hx'
  refine ⟨fun hs => absurd hs (hnot _ ?_ ?_), fun hs => absurd hs (hnot _ ?_ ?_),
    fun hs => absurd hs (hnot _ ?_ ?_), hid, heard⟩ <;> decide

lemma Code.idOk_of_isSuspended {c : Code} (h : c.isSuspended) : c.IdOk := by
  cases c with
  | suspended w d => trivial
  | _ => cases h

lemma Code.inWait_of_isSuspended {c : Code} (h : c.isSuspended) : c.inWait := by
  cases c with
  | suspended w d => rfl
  | _ => cases h

/-- A task that is `NOTIFIED` and not running is outside a wait, or asleep and marked. -/
theorem Task.Sound.of_notified (hstate : k.state = NOTIFIED)
    (hcode : k.code = .user ∨ k.code.isSuspended) : k.Sound p := by
  refine ⟨fun _ => hcode, fun h0 => ?_, fun hd => ?_, ?_, fun _ _ => .inl (.inl hstate)⟩
  · exact absurd (hstate.symm.trans h0) (by decide)
  · exact absurd (hstate.symm.trans hd) (by decide)
  · rcases hcode with hu | hs
    · rw [hu]
      trivial
    · exact Code.idOk_of_isSuspended hs

/-- A task whose state is 0 is suspended, in a wait nobody has claimed or still being delivered. -/
theorem Task.Sound.of_asleep (hstate : k.state = 0)
    (hcode : k.code.isSuspended) (heard : k.wait = 0 → p) : k.Sound p := by
  refine ⟨fun hN => ?_, fun _ => hcode, fun hd => ?_, Code.idOk_of_isSuspended hcode, fun _ h0 => .inr (heard h0)⟩
  · exact absurd (hstate.symm.trans hN) (by decide)
  · exact absurd (hstate.symm.trans hd) (by decide)

lemma Task.Sound.of_done (hstate : k.state = DONE) (hcode : k.code = .user) : k.Sound p := by
  refine ⟨fun hN => ?_, fun h0 => ?_, fun _ => hcode, by rw [hcode]; trivial, fun hin => ?_⟩
  · exact absurd (hstate.symm.trans hN) (by decide)
  · exact absurd (hstate.symm.trans h0) (by decide)
  · exact absurd hin (by simp [hcode, Code.inWait])

/-! ## The steps -/

lemma Delivery.callStep (h : Delivery s) (hc : Custody s) (hs : CallStep s θ s') : Delivery s' := by
  have hnone : ∀ t, Op.none.delivering = some t → False := by simp [Op.delivering]
  cases hs with
  | wake hmay _ | cancel hmay _ => exact h.setOp (op_of_mayCall hmay) fun t ht => absurd ht (hnone t)
  | spawn hmay =>
    refine Delivery.setOp ?_ (op_of_mayCall hmay) fun t ht => absurd ht (hnone t)
    have hunspawned : ¬ s.Spawned s.nextTask := fun hsp => absurd hsp.2 (lt_irrefl _)
    have hnew : Delivery (s.setTask s.nextTask fun _ => newTask) := by
      refine h.setTask ?_ (.inr fun θ' hmem => ?_)
      · exact .of_notified rfl (.inl rfl)
      · exact absurd (hc.placed.alive_of_mem (p := .thread θ') (mem_append_left _ hmem)).1 hunspawned
    exact hnew.congr rfl rfl rfl h.nextWait

/-- `schedule` gives up on a task only when it is marked, or done and so in no wait. -/
theorem scheduleNext_delivering (t : TaskId) (h : k.Sound p) (hword : Live k.state ∨ k.state = 0 ∨ k.state = DONE) :
    (scheduleNext t k.state).delivering = some t ∨ Marked k.state ∨ k.code.inWait = false := by
  rcases hword with (hx | hx | hx) | hx | hx
  · exact .inr (.inl (.inl hx))
  · exact .inl (by rw [hx]; rfl)
  · exact .inr (.inl (.inr hx))
  · exact .inl (by rw [hx]; rfl)
  · exact .inr (.inr (by rw [h.done hx]; rfl))

lemma Delivery.opStep (h : Delivery s) (hc : Custody s) (hs : OpStep s θ s') : Delivery s' := by
  cases hs with
  | @cancelStore t hop =>
    have hkept : Delivery (s.setTask t fun k => { k with cancelled := true }) :=
      h.setTask ((h.tasks t).congr rfl rfl rfl id) (.inl rfl)
    exact hkept.setOp hop fun u hu => absurd hu (by simp [Op.delivering])
  | cancelLoadNone hop _ | cancelLoad hop _ | cancelRefused hop _ | cancelWake hop _ | claimLate hop _ =>
    exact h.setOp hop fun u hu => absurd hu (by simp [Op.delivering])
  | @claim t w r hop _ =>
    -- the waker is at work on `t` from the moment the wait is claimed
    have hwaker : Delivery (s.setOp θ (.report t w r)) := h.setOp hop fun u hu => absurd hu (by simp [Op.delivering])
    have hat : Delivering (s.setOp θ (.report t w r)) t := ⟨θ, by simp [Op.delivering]⟩
    have ht := hwaker.tasks t
    have hclaimed : Delivery ((s.setOp θ (.report t w r)).setTask t fun k => { k with wait := 0 }) :=
      hwaker.setTask ⟨ht.notified, ht.asleep, ht.done, ht.id, fun _ _ => .inr hat⟩ (.inl rfl)
    exact hclaimed.congr rfl rfl rfl h.nextWait
  | @report t w r hop =>
    have hkept : Delivery (s.setTask t fun k => { k with woke := r }) :=
      h.setTask ((h.tasks t).congr rfl rfl rfl id) (.inl rfl)
    exact hkept.setOp hop fun u hu => .inl hu
  | @observe t hop | @markAgain t seen hop =>
    refine h.setOp hop fun u hu => ?_
    cases hu
    exact scheduleNext_delivering t (h.tasks t) (hc.words t)
  | @mark t seen hop hseen =>
    have ht := h.tasks t
    have hok := hc.ops θ
    rw [hop] at hok
    have hmarked : Marked (seen ||| NOTIFIED) := by
      rcases hok with rfl | rfl
      · exact .inl rfl
      · exact .inr rfl
    have hsound : Task.Sound { s.tasks t with state := seen ||| NOTIFIED } (Delivering s t) := by
      rcases hok with rfl | rfl
      · exact .of_notified rfl (.inr (ht.asleep hseen))
      · exact .of_running (.inr rfl) ht.id fun _ _ => .inl hmarked
    have hset : Delivery (s.setTask t fun k => { k with state := seen ||| NOTIFIED }) := h.setTask hsound (.inl rfl)
    refine hset.setOp hop fun u hu => .inr (.inl ?_)
    cases hu
    rw [word_setTask, if_pos rfl]
    exact hmarked
  | @push i t hθ hop =>
    have hput : Delivery (s.setQueue i (s.queue i ++ [t])) := h.congr rfl rfl rfl h.nextWait
    exact hput.setOp hop fun u hu => absurd hu (by simp [Op.delivering])
  | @inject j t hθ hop =>
    have hput : Delivery (s.setInject (s.inject ++ [t])) := h.congr rfl rfl rfl h.nextWait
    exact hput.setOp hop fun u hu => absurd hu (by simp [Op.delivering])

lemma Delivery.takeStep (h : Delivery s) (hs : TakeStep s i s') : Delivery s' := by
  cases hs <;> exact Delivery.setLoop (h.congr rfl rfl rfl h.nextWait) trivial

section

variable (h : Delivery s) (hc : Custody s)

include h hc

lemma Delivery.loopStep {i : ℕ} (hop : s.op (.worker i) = .none) (hs : LoopStep s i s') : Delivery s' := by
  have hmine := h.loops (.worker i)
  cases hs with
  | @start t hloop =>
    refine Delivery.setLoop ?_ trivial
    have hN := hc.loops (.worker i)
    rw [hloop] at hN
    -- a task that has been queued is outside a wait, or resumes from one
    have hcode : (s.tasks t).code.resume.IdOk ∧ (s.tasks t).code.resume.inWait = false := by
      rcases (h.tasks t).notified hN with hu | hsus
      · rw [hu]
        exact ⟨trivial, rfl⟩
      · cases hk : (s.tasks t).code with
        | suspended w d => exact ⟨trivial, rfl⟩
        | _ => simp [hk, Code.isSuspended] at hsus
    refine h.setTask (.of_running (.inl rfl) hcode.1 fun hin => ?_) (.inr (hc.loopCode_of_running (.inr hloop)))
    exact absurd hin (by simp [hcode.2])
  | @notify t hloop =>
    refine Delivery.setLoop ?_ trivial
    have hcode : (s.tasks t).code = .user ∨ (s.tasks t).code.isSuspended := by
      rcases hloop with hloop | hloop <;> rw [hloop] at hmine
      · exact .inl hmine
      · exact .inr hmine
    exact h.setTask (.of_notified rfl hcode) (.inl rfl)
  | @sleep t hloop hstate =>
    refine Delivery.setLoop ?_ trivial
    rw [hloop] at hmine
    have hsus : (s.tasks t).code.isSuspended := hmine
    have hin : (s.tasks t).code.inWait := Code.inWait_of_isSuspended hsus
    refine h.setTask (.of_asleep rfl hsus fun h0 => ?_) (.inl rfl)
    -- not marked, so a claimed wait is still being delivered
    refine ((h.tasks t).heard hin h0).resolve_left ?_
    rw [hstate]
    rintro (hm | hm) <;> exact absurd hm (by decide)
  | woken hloop _ =>
    rw [hloop] at hmine
    exact h.setLoop hmine
  | requeue _ | arrive _ => exact Delivery.setLoop (h.congr rfl rfl rfl h.nextWait) trivial
  | @done t hloop =>
    refine Delivery.setLoop ?_ trivial
    rw [hloop] at hmine
    exact h.setTask (.of_done rfl hmine) (.inl rfl)
  | @retire t hloop | @finish t hloop =>
    exact (h.setTask ((h.tasks t).congr rfl rfl rfl id) (.inl rfl)).setLoop trivial
  | fired _ => exact h.setLoop trivial
  | fire _ =>
    refine Delivery.setOp ?_ hop fun u hu => absurd hu (by simp [Op.delivering])
    exact h.setLoop trivial

lemma Delivery.setTask_running {f : Task → Task} (hloop : s.loop θ = .running t)
    (hstate : (f (s.tasks t)).state = (s.tasks t).state) (hid : (f (s.tasks t)).code.IdOk)
    (hold : (f (s.tasks t)).code.inWait → (f (s.tasks t)).wait = 0 →
      (s.tasks t).code.inWait ∧ (s.tasks t).wait = 0) : Delivery (s.setTask t f) := by
  have hrun := hc.loops θ
  rw [hloop] at hrun
  refine h.setTask (.of_running ?_ hid fun hin h0 => ?_) (.inr (hc.loopCode_of_running (.inl hloop)))
  · rw [hstate]
    exact hrun
  · rw [hstate]
    exact (h.tasks t).heard (hold hin h0).1 (hold hin h0).2

lemma Delivery.codeStep (hloop : s.loop θ = .running t) (hop : s.op θ = .none)
    (hs : CodeStep s θ t s') : Delivery s' := by
  have hid := (h.tasks t).id
  cases hs with
  | @begin c hcode =>
    refine Delivery.congr (h.setTask_running hc hloop (f := fun k =>
      { k with code := .beginWoke ⟨s.nextWait, c⟩, latest := s.nextWait }) rfl h.nextWait ?_)
      rfl rfl rfl (Nat.succ_ne_zero _)
    exact fun hin => absurd hin Bool.false_ne_true
  | beginWoke hcode | beginCancellable hcode =>
    rw [hcode] at hid
    exact h.setTask_running hc hloop rfl hid fun hin => absurd hin Bool.false_ne_true
  | @beginWait w hcode =>
    rw [hcode] at hid
    refine h.setTask_running hc hloop rfl ?_ fun _ h0 => absurd h0 hid
    show Code.IdOk (if w.cancellable = true then .beginCheck w else .beginDone w)
    split <;> trivial
  | beginCheck hcode _ | park _ hcode | waitSuspended _ hcode | noTimer hcode =>
    exact h.setTask_running hc hloop rfl trivial fun _ h0 => ⟨by rw [hcode]; rfl, h0⟩
  | @beginCancelled w hcode _ =>
    refine Delivery.setOp ?_ hop fun u hu => absurd hu (by simp [Op.delivering])
    exact h.setTask_running hc hloop rfl trivial fun _ h0 => ⟨by rw [hcode]; rfl, h0⟩
  | @beginDone w hcode =>
    have hset : Delivery (s.setTask t fun k => { k with code := .begun w }) :=
      h.setTask_running hc hloop rfl trivial fun _ h0 => ⟨by rw [hcode]; rfl, h0⟩
    exact hset.congr rfl rfl rfl h.nextWait
  | abandon _ | giveUp _ | forgetTimer _ | read _ | leave _ =>
    exact h.setTask_running hc hloop rfl trivial fun hin => absurd hin Bool.false_ne_true
  | @parkLoad w d hcode =>
    refine h.setTask_running hc hloop rfl ?_ fun _ h0 => ⟨by rw [hcode]; rfl, h0⟩
    show Code.IdOk (if _ then _ else _)
    split <;> trivial
  | @timer i w deadline _ hcode =>
    have hset : Delivery (s.setTask t fun k =>
        { k with code := .suspending w (some deadline), timer := some (i, deadline, w.id) }) :=
      h.setTask_running hc hloop rfl trivial fun _ h0 => ⟨by rw [hcode]; rfl, h0⟩
    exact hset.congr rfl rfl rfl h.nextWait
  | @suspend w d hcode =>
    have hset : Delivery (s.setTask t fun k => { k with code := .suspended w d }) :=
      h.setTask_running hc hloop rfl trivial fun _ h0 => ⟨by rw [hcode]; rfl, h0⟩
    refine hset.setLoop ?_
    simp [LoopCode, Code.isSuspended]
  | @removeTimer w d i drop hcode =>
    have hset : Delivery (s.setTask t fun k => { k with code := .reading w d, timer := none }) :=
      h.setTask_running hc hloop rfl trivial fun hin => absurd hin Bool.false_ne_true
    exact hset.congr rfl rfl rfl h.nextWait
  | yield hcode | ret hcode => exact h.setLoop hcode

lemma Delivery.step (hs : Sched.step s l = some s') : Delivery s' := by
  cases step_cases hs with
  | tick => exact h.congr rfl rfl rfl h.nextWait
  | call hs => exact h.callStep hc hs
  | op hs => exact h.opStep hc hs
  | take _ _ hs => exact h.takeStep hs
  | loop hop hs => exact h.loopStep hc hop hs
  | code hloop hop hs => exact h.codeStep hc hloop hop hs

end

lemma delivery_initial : Delivery initial :=
  ⟨by decide, fun _ => .of_notified rfl (.inl rfl), fun _ => trivial⟩

lemma delivery_of_reachable (h : Transition.Reachable system s) : Delivery s := by
  have hboth : Custody s ∧ Delivery s := by
    refine h.invariant (I := fun r => Custody r ∧ Delivery r) ?_ fun r l r' hr hs => ?_
    · rintro r rfl
      exact ⟨custody_initial, delivery_initial⟩
    · exact ⟨hr.1.step hs, hr.2.step hr.1 hs⟩
  exact hboth.2

/-! ## What a finished wake-up leaves -/

/-- The step resumes `t`: the worker that popped it from a queue stores `RUNNING`. -/
def Resumes (s : State) (l : Label) (t : TaskId) : Prop :=
  ∃ i, l = .loop (.worker i) ∧ s.loop (.worker i) = .popped t

/-- Due to run again: marked, or past running. -/
def Due (s : State) (t : TaskId) : Prop := Marked (word s t) ∨ word s t = DONE

lemma not_marked_running : ¬ Marked RUNNING := by
  rintro (h | h) <;> exact absurd h (by decide)

lemma not_marked_zero : ¬ Marked 0 := by
  rintro (h | h) <;> exact absurd h (by decide)

/-- A mark is taken off only by resuming the task. -/
theorem Custody.due_step (h : Custody s)
    (hs : Sched.step s l = some s') (hres : ¬ Resumes s l t) (hdue : Due s t) : Due s' t := by
  rcases hdue with hm | hd
  swap
  · exact .inr (h.done_step hs hd)
  have hwrite : ∀ {u : TaskId} {k : Task} {r : State}, r.tasks = update s.tasks u k →
      (u = t → Marked k.state ∨ k.state = DONE) → Due r t := by
    intro u k r hr hk
    rw [Due, word_of_update hr]
    split
    · next hut => exact hk hut.symm
    · exact .inl hm
  have hkept : ∀ {u : TaskId} {k : Task} {r : State}, r.tasks = update s.tasks u k →
      k.state = (s.tasks u).state → Due r t := by
    intro u k r hr hk
    refine hwrite hr fun hut => .inl ?_
    rw [hk, hut]
    exact hm
  cases step_cases hs with
  | tick => exact .inl hm
  | call hs =>
    cases hs with
    | spawn _ => exact hwrite rfl fun _ => .inl (.inl rfl)
    | _ => exact .inl hm
  | @op θ _ _ hs =>
    cases hs with
    | cancelStore _ | claim _ _ | report _ => exact hkept rfl rfl
    | mark hop hseen =>
      refine hwrite rfl fun hut => ?_
      have hok := h.ops θ
      rw [hop] at hok
      rcases hok with rfl | rfl
      · exact .inl (.inl rfl)
      · exact .inl (.inr rfl)
    | _ => exact .inl hm
  | take _ _ hs => cases hs <;> exact .inl hm
  | @loop i _ _ hs =>
    cases hs with
    | start hloop => exact hwrite rfl fun hut => absurd ⟨i, rfl, hut ▸ hloop⟩ hres
    | notify _ => exact hwrite rfl fun _ => .inl (.inl rfl)
    | sleep _ hstate =>
      refine hwrite rfl fun hut => ?_
      subst hut
      exact absurd (hstate ▸ hm) not_marked_running
    | done _ => exact hwrite rfl fun _ => .inr rfl
    | retire _ | finish _ => exact hkept rfl rfl
    | _ => exact .inl hm
  | code _ _ hs =>
    cases hs with
    | yield _ | ret _ => exact .inl hm
    | _ => exact hkept rfl rfl

/-- When a thread leaves `schedule`'s loop, the task it woke is due. -/
theorem Custody.due_of_delivered (h : Custody s) (hs : Sched.step s l = some s')
    (hbefore : (s.op θ).delivering = some t) (hafter : (s'.op θ).delivering ≠ some t) : Due s' t := by
  have hin : s.op θ ≠ .none := by
    intro hnone
    rw [hnone] at hbefore
    cases hbefore
  -- `schedule` gives up only on a word with `NOTIFIED` or `DONE`
  have hsched : ∀ u, (scheduleNext u (s.tasks u).state).delivering ≠ some u → Due s u := by
    intro u hend
    change (scheduleNext u (word s u)).delivering ≠ some u at hend
    rcases h.words u with (hx | hx | hx) | hx | hx
    · exact .inl (.inl hx)
    · exact absurd (by rw [hx]; rfl) hend
    · exact .inl (.inr hx)
    · exact absurd (by rw [hx]; rfl) hend
    · exact .inr hx
  rcases (step_cases hs).op_eq_or hin with heq | hop
  · rw [heq] at hafter
    exact absurd hbefore hafter
  · cases hop with
    | report hop =>
      rw [hop] at hbefore
      exact absurd hbefore (by simpa [Op.delivering] using hafter)
    | observe hop | markAgain hop =>
      rw [hop] at hbefore
      cases hbefore
      exact hsched t (by simpa using hafter)
    | @mark u seen hop _ =>
      rw [hop] at hbefore
      cases hbefore
      have hok := h.ops θ
      rw [hop] at hok
      refine .inl ?_
      rw [word_of_update (s := s) rfl, if_pos rfl]
      rcases hok with rfl | rfl
      · exact .inl rfl
      · exact .inr rfl
    | cancelStore hop | cancelLoadNone hop _ | cancelLoad hop _ | cancelRefused hop _
    | cancelWake hop _ | claim hop _ | claimLate hop _ | push _ hop | inject _ hop =>
      rw [hop] at hbefore
      cases hbefore

/-- **No delivered wake-up is lost.** In every reachable state a suspended task (state 0, in no queue and in
nobody's hands) is in a wait nobody has claimed, or some thread is inside `wake` for it, between its successful
compare-exchange and the end of `schedule`'s loop. When such a thread leaves that loop, then until the task is
resumed it is done, or marked and in one place: on a queue, or in the hands of the thread that takes it to or
from one. -/
theorem suspended_unclaimed_or_delivering {s : State} (h : Transition.Reachable system s) {t : TaskId}
    (ht : s.Spawned t) : (word s t = 0 → Ledger.Absent (content s) t → (s.tasks t).wait ≠ 0 ∨ Delivering s t) ∧
    ∀ θ l s', (s.op θ).delivering = some t → step s l = some s' → (s'.op θ).delivering ≠ some t →
      ∀ r, Transition.ReachableBy (system.startAt s') (fun r l => ¬ Resumes r l t) r →
        word r t = DONE ∨ Marked (word r t) ∧ ∃ p, Ledger.SoleAt (content r) t p := by
  have hc := custody_of_reachable h
  have hd := delivery_of_reachable h
  constructor
  · intro h0 _
    by_contra hcon
    rw [not_or, not_not] at hcon
    have hin := Code.inWait_of_isSuspended ((hd.tasks t).asleep h0)
    rcases (hd.tasks t).heard hin hcon.1 with hm | hdel
    · exact not_marked_zero (h0 ▸ hm)
    · exact hcon.2 hdel
  · intro θ l s' hbefore hs hafter r hr
    have hdue : Custody r ∧ r.Spawned t ∧ Due r t := by
      refine hr.invariant (I := fun r => Custody r ∧ r.Spawned t ∧ Due r t) ?_ ?_
      · rintro r rfl
        exact ⟨hc.step hs, (step_cases hs).spawned ht, hc.due_of_delivered hs hbefore hafter⟩
      · intro r l r' hok hI hstep
        exact ⟨hI.1.step hstep, (step_cases hstep).spawned hI.2.1, hI.1.due_step hstep hok hI.2.2⟩
    obtain ⟨hcr, hspawned, hm | hdone⟩ := hdue
    · refine .inr ⟨hm, (hcr.placed t).1 ⟨hspawned, ?_⟩⟩
      rcases hm with hm | hm
      · exact .inl hm
      · exact .inr (.inr hm)
    · exact .inl hdone

/-- `main!`'s task asleep in a wait that a plain thread has just claimed: the thread is still
inside `wake`. -/
theorem suspended_unclaimed_or_delivering_claimed : ∃ s, Transition.Reachable system s ∧
    word s 1 = 0 ∧ (s.tasks 1).wait = 0 ∧ Delivering s 1 := by
  obtain ⟨s, hs, hp⟩ := Transition.exists_reachable_of_run system (s := initial) rfl
    ([.take (.worker 0) .pop, .loop (.worker 0)] ++ [.begin true, .next, .next, .next, .next, .next, .waitSuspended none,
      .next, .next].map (.code (.worker 0)) ++ [.loop (.worker 0), .call (.plain 0) (.wake 1 1), .op (.plain 0) false])
    (fun s => decide (1 < s.nextTask) && decide (word s 1 = 0) && decide ((s.tasks 1).wait = 0)) (by decide)
  simp only [Bool.and_eq_true, decide_eq_true_eq] at hp
  obtain ⟨⟨hn, h0⟩, hwait⟩ := hp
  have habs : Ledger.Absent (content s) 1 := by
    refine ((custody_of_reachable hs).placed 1).2 ?_
    rintro ⟨-, hl⟩
    rw [h0] at hl
    rcases hl with hl | hl | hl <;> exact absurd hl (by decide)
  have hmain := (suspended_unclaimed_or_delivering hs ⟨le_rfl, hn⟩).1 h0 habs
  exact ⟨s, hs, h0, hwait, hmain.resolve_left (not_not_intro hwait)⟩

end RocNet.Sched
