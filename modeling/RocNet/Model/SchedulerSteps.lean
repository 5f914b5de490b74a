import RocNet.Model.Scheduler

/-!
# What each step of the scheduler can do

Each relation here lists the steps of one of the functions of `Model.Scheduler`, with the guard of each step as its
hypotheses and the state after it as its index, and each `…_cases` theorem says the function takes no others.
-/

namespace RocNet.Sched

open State Function Transition

/-! ## Calls -/

/-- The calls a thread can start. -/
inductive CallStep (s : State) (θ : Thread) : State → Prop
  | spawn (hmay : s.mayCall θ = true) : CallStep s θ (setOp { s.setTask s.nextTask (fun _ => newTask) with
        nextTask := s.nextTask + 1 } θ (.push s.nextTask))
  | wake {w : WaitId} (hmay : s.mayCall θ = true) (hbegun : (s.record w).task = some t) :
      CallStep s θ (s.setOp θ (.claim t w .ready))
  | cancel (hmay : s.mayCall θ = true) (hspawned : s.Spawned t) : CallStep s θ (s.setOp θ (.cancelStore t))

/-! ## The operations of a call -/

/-- The atomic operations of `wake`, `schedule`, `push` and `cancel`. -/
inductive OpStep (s : State) (θ : Thread) : State → Prop
  | cancelStore (hop : s.op θ = .cancelStore t) :
      OpStep s θ ((s.setTask t fun k => { k with cancelled := true }).setOp θ (.cancelLoad t))
  | cancelLoadNone (hop : s.op θ = .cancelLoad t) (hwait : (s.tasks t).wait = 0) : OpStep s θ (s.setOp θ .none)
  | cancelLoad (hop : s.op θ = .cancelLoad t) (hwait : (s.tasks t).wait ≠ 0) :
      OpStep s θ (s.setOp θ (.cancelCheck t (s.tasks t).wait))
  | cancelRefused (hop : s.op θ = .cancelCheck t w) (hflag : (s.tasks t).cancellable = false) :
      OpStep s θ (s.setOp θ .none)
  | cancelWake (hop : s.op θ = .cancelCheck t w) (hflag : (s.tasks t).cancellable = true) :
      OpStep s θ (s.setOp θ (.claim t w .cancelled))
  | claim (hop : s.op θ = .claim t w r) (hwait : (s.tasks t).wait = w) :
      OpStep s θ
        (((s.setTask t fun k => { k with wait := 0 }).setRecord w fun h => { h with claimed := some r }).setOp θ
        (.report t w r))
  | claimLate (hop : s.op θ = .claim t w r) (hwait : (s.tasks t).wait ≠ w) : OpStep s θ (s.setOp θ .none)
  | report (hop : s.op θ = .report t w r) :
      OpStep s θ ((s.setTask t fun k => { k with woke := r }).setOp θ (.observe t))
  | observe (hop : s.op θ = .observe t) : OpStep s θ (s.setOp θ (scheduleNext t (s.tasks t).state))
  | markAgain (hop : s.op θ = .mark t seen) : OpStep s θ (s.setOp θ (scheduleNext t (s.tasks t).state))
  | mark (hop : s.op θ = .mark t seen) (hseen : (s.tasks t).state = seen) :
      OpStep s θ
        ((s.setTask t fun k => { k with state := seen ||| NOTIFIED }).setOp θ (if seen &&& RUNNING ≠ 0 then .none else
        .push t))
  | push (hθ : θ = .worker i) (hop : s.op θ = .push t) : OpStep s θ ((s.setQueue i (s.queue i ++ [t])).setOp θ .none)
  | inject (hθ : θ = .plain j) (hop : s.op θ = .push t) : OpStep s θ ((s.setInject (s.inject ++ [t])).setOp θ .none)

/-! ## Taking up work -/

/-- A timer that `fire_timers` finds due at `now`. -/
def dueAt (now : Instant) (e : Timer) : Bool := decide (e.deadline ≤ now)

/-- The waits' records once their timers have been found due. -/
def fire (record : WaitId → WaitRecord) (waits : List WaitId) (now : Instant) (w : WaitId) :
    WaitRecord :=
  if w ∈ waits then { record w with fired := some now } else record w

/-- What worker `i`, between tasks and inside no call, can take up. -/
inductive TakeStep (s : State) (i : ℕ) : State → Prop
  | pop (hqueue : s.queue i = t :: rest) : TakeStep s i ((s.setQueue i rest).setLoop (.worker i) (.popped t))
  | steal (n : ℕ) (hother : j ≠ i) :
      TakeStep s i ((s.setQueue j ((s.queue j).drop n)).setLoop (.worker i) (.moving ((s.queue j).take n)))
  | injected (hinject : s.inject = t :: rest) : TakeStep s i ((s.setInject rest).setLoop (.worker i) (.moving [t]))
  | timers {now : Instant} (hnow : now ≤ s.now) :
      TakeStep s i (setLoop { s.setTimers i ((s.timers i).dropWhile (dueAt now)) with
        record := fire s.record (((s.timers i).takeWhile (dueAt now)).map Timer.wait) now }
        (.worker i) (.firing (((s.timers i).takeWhile (dueAt now)).map fun e => (e.task, e.wait))))

/-! ## The worker's own code -/

/-- The atomic operations of worker `i`'s own code. -/
inductive LoopStep (s : State) (i : ℕ) : State → Prop
  | start (hloop : s.loop (.worker i) = .popped t) :
      LoopStep s i
        ((s.setTask t fun k => { k with state := RUNNING, code := k.code.resume }).setLoop (.worker i) (.running t))
  | notify (hloop : s.loop (.worker i) = .yielded t ∨ s.loop (.worker i) = .woken t) :
      LoopStep s i ((s.setTask t fun k => { k with state := NOTIFIED }).setLoop (.worker i) (.requeuing t))
  | sleep (hloop : s.loop (.worker i) = .waiting t) (hstate : (s.tasks t).state = RUNNING) :
      LoopStep s i ((s.setTask t fun k => { k with state := 0 }).setLoop (.worker i) .idle)
  | woken (hloop : s.loop (.worker i) = .waiting t) (hstate : (s.tasks t).state ≠ RUNNING) :
      LoopStep s i (s.setLoop (.worker i) (.woken t))
  | requeue (hloop : s.loop (.worker i) = .requeuing t) :
      LoopStep s i ((s.setQueue i (s.queue i ++ [t])).setLoop (.worker i) .idle)
  | done (hloop : s.loop (.worker i) = .returned t) :
      LoopStep s i ((s.setTask t fun k => { k with state := DONE }).setLoop (.worker i) (.retiring t))
  | retire (hloop : s.loop (.worker i) = .retiring t) :
      LoopStep s i ((s.setTask t fun k => { k with co := false }).setLoop (.worker i) (.finishing t))
  | finish (hloop : s.loop (.worker i) = .finishing t) :
      LoopStep s i ((s.setTask t fun k => { k with finished := true }).setLoop (.worker i) .idle)
  | arrive (hloop : s.loop (.worker i) = .moving ts) :
      LoopStep s i ((s.setQueue i (s.queue i ++ ts)).setLoop (.worker i) .idle)
  | fired (hloop : s.loop (.worker i) = .firing []) : LoopStep s i (s.setLoop (.worker i) .idle)
  | fire (hloop : s.loop (.worker i) = .firing ((t, w) :: rest)) :
      LoopStep s i ((s.setLoop (.worker i) (.firing rest)).setOp (.worker i) (.claim t w .timedOut))

/-! ## A running task's code -/

/-- What the code of task `t` can do while it runs on thread `θ`. -/
inductive CodeStep (s : State) (θ : Thread) (t : TaskId) : State → Prop
  | begin {c : Bool} (hcode : (s.tasks t).code = .user) : CodeStep s θ t { s.setTask t (fun k =>
        { k with code := .beginWoke ⟨s.nextWait, c⟩, latest := s.nextWait }) with
        nextWait := s.nextWait + 1 }
  | beginWoke (hcode : (s.tasks t).code = .beginWoke w) :
      CodeStep s θ t (s.setTask t fun k => { k with woke := .ready, code := .beginCancellable w })
  | beginCancellable (hcode : (s.tasks t).code = .beginCancellable w) :
      CodeStep s θ t (s.setTask t fun k => { k with cancellable := w.cancellable, code := .beginWait w })
  | beginWait (hcode : (s.tasks t).code = .beginWait w) :
      CodeStep s θ t
        (s.setTask t fun k => { k with wait := w.id, code := if w.cancellable then .beginCheck w else .beginDone w })
  | beginCheck (hcode : (s.tasks t).code = .beginCheck w) (hflag : (s.tasks t).cancelled = false) :
      CodeStep s θ t (s.setTask t fun k => { k with code := .beginDone w })
  | beginCancelled (hcode : (s.tasks t).code = .beginCheck w) (hflag : (s.tasks t).cancelled = true) :
      CodeStep s θ t ((s.setTask t fun k => { k with code := .beginDone w }).setOp θ (.claim t w.id .cancelled))
  | beginDone (hcode : (s.tasks t).code = .beginDone w) :
      CodeStep s θ t
        ((s.setTask t fun k => { k with code := .begun w }).setRecord w.id fun h => { h with task := some t })
  | abandon (hcode : (s.tasks t).code = .begun w) :
      CodeStep s θ t (s.setTask t fun k => { k with wait := if k.wait = w.id then 0 else k.wait, code := .user })
  | giveUp (hcode : (s.tasks t).code = .begun w) : CodeStep s θ t (s.setTask t fun k => { k with code := .user })
  | park (d : Option Instant) (hcode : (s.tasks t).code = .begun w) :
      CodeStep s θ t (s.setTask t fun k => { k with code := .parking w d })
  | parkLoad (hcode : (s.tasks t).code = .parking w d) :
      CodeStep s θ t
        (s.setTask t fun k => { k with code := if k.wait = 0 then .reading w d else .timing { w with id := k.wait } d })
  | waitSuspended (d : Option Instant) (hcode : (s.tasks t).code = .begun w) :
      CodeStep s θ t (s.setTask t fun k => { k with code := .timing w d })
  | noTimer (hcode : (s.tasks t).code = .timing w none) :
      CodeStep s θ t (s.setTask t fun k => { k with code := .suspending w none })
  | timer (hθ : θ = .worker i) (hcode : (s.tasks t).code = .timing w (some deadline)) :
      CodeStep s θ t
        (((s.setTask t fun k => { k with code := .suspending w (some deadline), timer := some (i, deadline, w.id)
        }).setTimers i ((s.timers i).orderedInsert Timer.le ⟨deadline, w.id,
        t⟩)).setRecord w.id fun h => { h with deadline := some deadline })
  | suspend (hcode : (s.tasks t).code = .suspending w d) :
      CodeStep s θ t ((s.setTask t fun k => { k with code := .suspended w d }).setLoop θ (.waiting t))
  | forgetTimer (hcode : (s.tasks t).code = .resumed w d) :
      CodeStep s θ t (s.setTask t fun k => { k with code := .reading w d, timer := none })
  | removeTimer (drop : Timer → Bool) (hcode : (s.tasks t).code = .resumed w d) :
      CodeStep s θ t
        ((s.setTask t fun k => { k with code := .reading w d, timer := none }).setTimers i ((s.timers i).filter drop))
  | read (hcode : (s.tasks t).code = .reading w d) :
      CodeStep s θ t (s.setTask t fun k => { k with code := .reported w d k.woke })
  | leave (hcode : (s.tasks t).code = .reported w d r) : CodeStep s θ t (s.setTask t fun k => { k with code := .user })
  | yield (hcode : (s.tasks t).code = .user) : CodeStep s θ t (s.setLoop θ (.yielded t))
  | ret (hcode : (s.tasks t).code = .user) : CodeStep s θ t (s.setLoop θ (.returned t))

/-! ## Any step -/

/-- The steps of the scheduler, by the label that takes them. -/
inductive Step (s : State) : Label → State → Prop
  | tick : Step s .tick { s with now := s.now + 1 }
  | call {s' : State} (hs : CallStep s θ s') : Step s (.call θ c) s'
  | op {s' : State} (hs : OpStep s θ s') : Step s (.op θ spurious) s'
  | take {s' : State} (hidle : s.loop (.worker i) = .idle) (hop : s.op (.worker i) = .none) (hs : TakeStep s i s') :
      Step s (.take (.worker i) k) s'
  | loop (hop : s.op (.worker i) = .none) (hs : LoopStep s i s') : Step s (.loop (.worker i)) s'
  | code {t : TaskId} {s' : State} (hloop : s.loop θ = .running t) (hop : s.op θ = .none) (hs : CodeStep s θ t s') :
      Step s (.code θ a) s'

/-! ## The step function takes no others -/

variable {s s' : State} {θ : Thread} {t : TaskId} {l : Label}

lemma stepCall_cases (h : stepCall s θ c = some s') : CallStep s θ s' := by
  cases c with
  | spawn =>
    obtain ⟨hmay, rfl⟩ := of_guard h
    exact .spawn hmay
  | wake t w =>
    obtain ⟨hmay, rfl⟩ := of_guard h
    exact .wake hmay.1 hmay.2
  | cancel t =>
    obtain ⟨hmay, rfl⟩ := of_guard h
    exact .cancel hmay.1 hmay.2

lemma op_of_mayCall (h : s.mayCall θ) : s.op θ = .none := by
  unfold State.mayCall at h
  split at h
  · assumption
  · assumption
  · cases h

lemma stepOp_cases (h : stepOp s θ spurious = some s') : OpStep s θ s' := by
  unfold stepOp at h
  split at h
  · cases h
  · next t hop =>
    cases h
    exact .cancelStore hop
  · next t hop =>
    cases h
    split
    · next hwait => exact .cancelLoadNone hop hwait
    · next hwait => exact .cancelLoad hop hwait
  · next t w hop =>
    cases h
    cases hflag : (s.tasks t).cancellable with
    | true => exact .cancelWake hop hflag
    | false => exact .cancelRefused hop hflag
  · next t w r hop =>
    split at h
    · next hwait =>
      cases h
      exact .claim hop hwait
    · next hwait =>
      cases h
      exact .claimLate hop hwait
  · next t w r hop =>
    cases h
    exact .report hop
  · next t hop =>
    cases h
    exact .observe hop
  · next t seen hop =>
    split at h
    · cases h
      exact .markAgain hop
    · next hseen =>
      cases h
      rw [not_or, not_not] at hseen
      exact .mark hop hseen.2
  · next t hop =>
    split at h
    · cases h
      exact .push rfl hop
    · cases h
      exact .inject rfl hop

lemma stepTake_cases (h : stepTake s θ k = some s') :
    ∃ i, θ = .worker i ∧ s.loop θ = .idle ∧ s.op θ = .none ∧ TakeStep s i s' := by
  unfold stepTake at h
  split at h
  · next i hloop hop =>
    refine ⟨i, rfl, hloop, hop, ?_⟩
    split at h
    · split at h
      · cases h
      · next t rest hqueue =>
        cases h
        exact .pop hqueue
    · split at h
      · next j hsteal =>
        cases h
        exact .steal _ hsteal.1
      · cases h
    · split at h
      · cases h
      · next t rest hinject =>
        cases h
        exact .injected hinject
    · split at h
      · next now hnow =>
        cases h
        exact .timers hnow
      · cases h
  · cases h

lemma stepLoop_cases (h : stepLoop s θ = some s') : ∃ i, θ = .worker i ∧ s.op θ = .none ∧ LoopStep s i s' := by
  unfold stepLoop at h
  split at h
  · next i hop =>
    refine ⟨i, rfl, hop, ?_⟩
    split at h
    · cases h
    · cases h
    · next t hloop =>
      cases h
      exact .start hloop
    · next t hloop =>
      cases h
      exact .notify (.inl hloop)
    · next t hloop =>
      cases h
      exact .notify (.inr hloop)
    · next t hloop =>
      split at h
      · next hstate =>
        cases h
        exact .sleep hloop hstate
      · next hstate =>
        cases h
        exact .woken hloop hstate
    · next t hloop =>
      cases h
      exact .requeue hloop
    · next t hloop =>
      cases h
      exact .done hloop
    · next t hloop =>
      cases h
      exact .retire hloop
    · next t hloop =>
      cases h
      exact .finish hloop
    · next ts hloop =>
      cases h
      exact .arrive hloop
    · next hloop =>
      cases h
      exact .fired hloop
    · next t w rest hloop =>
      cases h
      exact .fire hloop
  · cases h

lemma stepCode_cases (h : stepCode s θ t a (s.tasks t).code = some s') : CodeStep s θ t s' := by
  generalize hcode : (s.tasks t).code = code at h
  unfold stepCode at h
  split at h
  · cases h
    exact .begin hcode
  · cases h
    exact .beginWoke hcode
  · cases h
    exact .beginCancellable hcode
  · cases h
    exact .beginWait hcode
  · next w =>
    cases hflag : (s.tasks t).cancelled with
    | true =>
      simp only [hflag, if_true, Option.some.injEq] at h
      exact h ▸ .beginCancelled hcode hflag
    | false =>
      simp only [hflag, Bool.false_eq_true, if_false, Option.some.injEq] at h
      exact h ▸ .beginCheck hcode hflag
  · cases h
    exact .beginDone hcode
  · cases h
    exact .abandon hcode
  · cases h
    exact .giveUp hcode
  · cases h
    exact .park _ hcode
  · cases h
    exact .parkLoad hcode
  · cases h
    exact .waitSuspended _ hcode
  · cases h
    exact .noTimer hcode
  · split at h
    · cases h
      exact .timer rfl hcode
    · cases h
  · cases h
    exact .suspend hcode
  · next published w d =>
    split at h
    · cases h
      exact .forgetTimer hcode
    · cases published with
      | true =>
        cases h
        exact .removeTimer _ hcode
      | false =>
        cases h
        exact .forgetTimer hcode
  · cases h
    exact .read hcode
  · cases h
    exact .leave hcode
  · cases h
    exact .yield hcode
  · cases h
    exact .ret hcode
  · cases h

/-- A task runs on a thread whose own code is inside `resume`, and that is inside no call. -/
theorem running_iff : s.running θ = some t ↔ s.loop θ = .running t ∧ s.op θ = .none := by
  unfold State.running
  constructor
  · intro h
    split at h
    · next u hloop hop =>
      cases h
      exact ⟨hloop, hop⟩
    · cases h
  · rintro ⟨hloop, hop⟩
    rw [hloop, hop]

lemma step_cases (h : step s l = some s') : Step s l s' := by
  cases l with
  | tick =>
    cases h
    exact .tick
  | call θ c => exact .call (stepCall_cases h)
  | op θ spurious => exact .op (stepOp_cases h)
  | take θ k =>
    obtain ⟨i, rfl, hidle, hop, hs⟩ := stepTake_cases h
    exact .take hidle hop hs
  | loop θ =>
    obtain ⟨i, rfl, hop, hs⟩ := stepLoop_cases h
    exact .loop hop hs
  | code θ a =>
    simp only [step] at h
    split at h
    · next t hrun =>
      obtain ⟨hloop, hop⟩ := running_iff.mp hrun
      exact .code hloop hop (stepCode_cases h)
    · cases h

lemma Step.op_eq_or (h : Step s l s') (hin : s.op θ ≠ .none) : s'.op θ = s.op θ ∨ OpStep s θ s' := by
  have hother : ∀ {θ' : Thread} {o : Op} {r : State}, r.op = update s.op θ' o → s.op θ' = .none → r.op θ = s.op θ := by
    intro θ' o r hr hnone
    have hne : θ ≠ θ' := by
      rintro rfl
      exact hin hnone
    rw [hr, update_of_ne hne]
  cases h with
  | tick => exact .inl rfl
  | call hs =>
    cases hs with
    | spawn hmay | wake hmay _ | cancel hmay _ => exact .inl (hother rfl (op_of_mayCall hmay))
  | @op θ' _ _ hs =>
    obtain rfl | hne := eq_or_ne θ θ'
    · exact .inr hs
    · cases hs <;> exact .inl (by simp [hne])
  | take _ _ hs => cases hs <;> exact .inl rfl
  | loop hop hs =>
    cases hs with
    | fire _ => exact .inl (hother rfl hop)
    | _ => exact .inl rfl
  | code _ hop hs =>
    cases hs with
    | beginCancelled _ _ => exact .inl (hother rfl hop)
    | _ => exact .inl rfl

lemma Step.spawned (h : Step s l s') (ht : s.Spawned t) : s'.Spawned t := by
  cases h with
  | tick => exact ht
  | call hs =>
    cases hs with
    | spawn _ => exact ⟨ht.1, Nat.lt_succ_of_lt ht.2⟩
    | _ => exact ht
  | op hs | take _ _ hs | loop _ hs | code _ _ hs => cases hs <;> exact ht

/-- What is set for good in a task's words stays set. -/
structure Task.Kept (k k' : Task) : Prop where
  finished : k.finished = true → k'.finished = true
  cancelled : k.cancelled = true → k'.cancelled = true

lemma Task.Kept.refl (k : Task) : k.Kept k := ⟨id, id⟩

lemma kept_of_update (htasks : s'.tasks = update s.tasks u k) (hk : (s.tasks u).Kept k) :
    (s.tasks t).Kept (s'.tasks t) := by
  rw [htasks]
  obtain rfl | htu := eq_or_ne t u
  · rwa [update_self]
  · rw [update_of_ne htu]
    exact .refl _

lemma Step.kept (h : Step s l s') (ht : t < s.nextTask) : (s.tasks t).Kept (s'.tasks t) := by
  cases h with
  | tick => exact .refl _
  | call hs =>
    cases hs with
    | spawn _ =>
      have hne : t ≠ s.nextTask := ht.ne
      simpa [hne] using Task.Kept.refl (s.tasks t)
    | _ => exact .refl _
  | op hs =>
    cases hs with
    | cancelStore hop => exact kept_of_update rfl ⟨id, fun _ => rfl⟩
    | _ => first | exact .refl _ | exact kept_of_update rfl ⟨id, id⟩
  | take _ _ hs => cases hs <;> exact .refl _
  | loop _ hs =>
    cases hs with
    | finish hl => exact kept_of_update rfl ⟨fun _ => rfl, id⟩
    | _ => first | exact .refl _ | exact kept_of_update rfl ⟨id, id⟩
  | code _ _ hs => cases hs <;> first | exact .refl _ | exact kept_of_update rfl ⟨id, id⟩

/-- A thread inside a call is not going on with its own code. -/
theorem Step.loop_eq (h : Step s l s') (hin : s.op θ ≠ .none) : s'.loop θ = s.loop θ := by
  have hother : ∀ {θ' : Thread} {x : Loop} {r : State}, r.loop = update s.loop θ' x →
      s.op θ' = .none → r.loop θ = s.loop θ := by
    intro θ' x r hr hnone
    have hne : θ ≠ θ' := by
      rintro rfl
      exact hin hnone
    rw [hr, update_of_ne hne]
  cases h with
  | tick => rfl
  | call hs | op hs => cases hs <;> rfl
  | take _ hop hs | loop hop hs => cases hs <;> exact hother rfl hop
  | code _ hop hs =>
    cases hs with
    | suspend _ | yield _ | ret _ => exact hother rfl hop
    | _ => rfl

lemma Step.code_eq_or (h : Step s l s') (ht : t < s.nextTask) :
    (s'.tasks t).code = (s.tasks t).code ∨ (s'.tasks t).code = (s.tasks t).code.resume ∨
      ∃ θ a, l = .code θ a ∧ s.loop θ = .running t := by
  have hset : ∀ {u : TaskId} {k : Task} {r : State}, r.tasks = update s.tasks u k →
      k.code = (s.tasks u).code → (r.tasks t).code = (s.tasks t).code := by
    intro u k r hr hk
    rw [hr]
    obtain rfl | htu := eq_or_ne t u
    · rwa [update_self]
    · rw [update_of_ne htu]
  cases h with
  | tick => exact .inl rfl
  | call hs =>
    cases hs with
    | spawn _ =>
      have hne : t ≠ s.nextTask := ht.ne
      exact .inl (by simp [hne])
    | _ => exact .inl rfl
  | op hs => cases hs <;> first | exact .inl rfl | exact .inl (hset rfl rfl)
  | take _ _ hs => cases hs <;> exact .inl rfl
  | loop _ hs =>
    cases hs with
    | @start u hloop =>
      obtain rfl | htu := eq_or_ne t u
      · exact .inr (.inl (by simp))
      · exact .inl (by simp [htu])
    | _ => first | exact .inl rfl | exact .inl (hset rfl rfl)
  | @code θ a u _ hloop _ hs =>
    obtain rfl | htu := eq_or_ne t u
    · exact .inr (.inr ⟨θ, a, rfl, hloop⟩)
    · cases hs <;> first | exact .inl rfl | exact .inl (by simp [htu])

end RocNet.Sched
