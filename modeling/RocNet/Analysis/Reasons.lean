import RocNet.Analysis.TaskCustody

/-!
# The reason a wait reports: the invariant and its rules

`wake` claims a wait, then stores the reason, then schedules, and `park` can return and let the task begin its next
wait before the reason is stored. The invariant `Reasons` is kept by every step but such a late store.

A timer entry, and every wake-up made from it, names a wait whose deadline it holds (`Fired`); a canceller that has
read a wait's id reads the flag that wait was begun with, since the flag is stored before the id; and ids are never
used twice.
-/

namespace RocNet.Sched

open Function

/-! ## The invariant -/

/-- Where `begin_wait` has not yet published the id: no waker, canceller or timer can name it. -/
def Code.prePublish : Code → Bool
  | .beginWoke _ | .beginCancellable _ | .beginWait _ => true
  | _ => false

/-- The wait was given a deadline, and its timer was found due after it. -/
def Fired (h : WaitRecord) (now : Instant) : Prop :=
  ∃ deadline fired, h.deadline = some deadline ∧ h.fired = some fired ∧ deadline ≤ fired ∧ fired ≤ now

/-- The `woke` word agrees with the task's latest wait, of which `h` is the record. -/
def WokeOk (k : Task) (h : WaitRecord) (now : Instant) : Prop :=
  (k.woke = .timedOut → Fired h now) ∧
  (k.woke = .cancelled → k.cancellable = true ∧ k.cancelled = true)

/-- `w` is the task's latest wait, and the cancellable flag is `w`'s. -/
def Latest (k : Task) (w : Wait) : Prop := w.id = k.latest ∧ k.cancellable = w.cancellable

def CodeOk (k : Task) (h : WaitRecord) (now : Instant) : Code → Prop
  | .user => True
  | .beginWoke w => w.id = k.latest ∧ k.wait ≠ k.latest ∧ h.deadline = none
  | .beginCancellable w =>
    w.id = k.latest ∧ k.wait ≠ k.latest ∧ h.deadline = none ∧ k.woke = .ready
  | .beginWait w => Latest k w ∧ k.wait ≠ k.latest ∧ h.deadline = none ∧ k.woke = .ready
  | .beginCheck w =>
    Latest k w ∧ (k.wait = 0 ∨ k.wait = k.latest) ∧ h.deadline = none ∧ WokeOk k h now ∧ w.cancellable = true
  | .beginDone w | .begun w | .parking w _ | .timing w _ =>
    Latest k w ∧ (k.wait = 0 ∨ k.wait = k.latest) ∧ h.deadline = none ∧ WokeOk k h now
  | .suspending w d | .suspended w d | .resumed w d =>
    Latest k w ∧ h.deadline = d ∧ WokeOk k h now
  | .reading w d => Latest k w ∧ (h.deadline = d ∨ h.deadline = none) ∧ WokeOk k h now
  | .reported w d r => Latest k w ∧ (r = .timedOut → Fired h now ∧ h.deadline = d) ∧
    (r = .cancelled → w.cancellable = true ∧ k.cancelled = true)

/-- What the calls that cancel or time out a wait know of it. -/
def OpReason (s : State) : Op → Prop
  | .cancelLoad t => s.Spawned t ∧ (s.tasks t).cancelled = true
  | .cancelCheck t w => s.Spawned t ∧ (s.tasks t).cancelled = true ∧ w < s.nextWait ∧
    ((s.tasks t).latest = w → (s.tasks t).code.prePublish = false)
  | .claim t w .cancelled | .report t w .cancelled =>
    s.Spawned t ∧ (s.tasks t).cancelled = true ∧ w < s.nextWait ∧
      ((s.tasks t).latest = w → (s.tasks t).code.prePublish = false ∧ (s.tasks t).cancellable = true)
  | .claim _ w .timedOut | .report _ w .timedOut => Fired (s.record w) s.now
  | .cancelStore t => s.Spawned t
  | _ => True

/-- What a worker firing timers knows of the waits it is about to end. -/
def LoopReason (record : WaitId → WaitRecord) (now : Instant) : Loop → Prop
  | .firing due => ∀ e ∈ due, Fired (record e.2) now
  | _ => True

/-- Reasons agree with the waits they are for. -/
structure Reasons (s : State) : Prop where
  ids : ∀ t, (s.tasks t).latest < s.nextWait ∧ (s.tasks t).wait < s.nextWait
  unused : ∀ w, s.nextWait ≤ w → (s.record w).deadline = none
  unique : ∀ t u, (s.tasks t).latest = (s.tasks u).latest → (s.tasks t).latest ≠ 0 → t = u
  started : ∀ t, (s.tasks t).code ≠ .user → (s.tasks t).latest ≠ 0
  tasks : ∀ t, CodeOk (s.tasks t) (s.record (s.tasks t).latest) s.now (s.tasks t).code
  timers : ∀ i, ∀ e ∈ s.timers i, (s.record e.wait).deadline = some e.deadline
  loops : ∀ θ, LoopReason s.record s.now (s.loop θ)
  ops : ∀ θ, OpReason s (s.op θ)

/-! ## Rules -/

variable {h : WaitRecord} {now now' : Instant} {k : Task} {s s' : State}

lemma Fired.mono (hf : Fired h now) (hle : now ≤ now') : Fired h now' := by
  obtain ⟨deadline, fired, hd, hfi, hdf, hfn⟩ := hf
  exact ⟨deadline, fired, hd, hfi, hdf, hfn.trans hle⟩

variable {h' : WaitRecord} {θ : Thread} {o : Op} {t : TaskId}

lemma WokeOk.congr (hk : WokeOk k h now) (hf : Fired h now → Fired h' now') : WokeOk k h' now' :=
  ⟨fun ht => hf (hk.1 ht), hk.2⟩

variable {c : Code}

/-- A task only depends on a record through its deadline and whether its timer has fired. -/
theorem CodeOk.congr (hd : h'.deadline = h.deadline) (hf : Fired h now → Fired h' now')
    (hc : CodeOk k h now c) : CodeOk k h' now' c := by
  cases c with
  | user => trivial
  | beginWoke w | beginCancellable w | beginWait w =>
    simp only [CodeOk, hd] at hc ⊢
    exact hc
  | beginCheck w =>
    simp only [CodeOk, hd] at hc ⊢
    exact ⟨hc.1, hc.2.1, hc.2.2.1, hc.2.2.2.1.congr hf, hc.2.2.2.2⟩
  | beginDone w | begun w | parking w d | timing w d =>
    simp only [CodeOk, hd] at hc ⊢
    exact ⟨hc.1, hc.2.1, hc.2.2.1, hc.2.2.2.congr hf⟩
  | suspending w d | suspended w d | resumed w d | reading w d =>
    simp only [CodeOk, hd] at hc ⊢
    exact ⟨hc.1, hc.2.1, hc.2.2.congr hf⟩
  | reported w d r =>
    simp only [CodeOk, hd] at hc ⊢
    exact ⟨hc.1, fun hr => ⟨hf (hc.2.1 hr).1, (hc.2.1 hr).2⟩, hc.2.2⟩

lemma CodeOk.of_cancelled
    (hc : CodeOk k h now c) : CodeOk { k with cancelled := true } h now c := by
  have hwoke : WokeOk k h now → WokeOk { k with cancelled := true } h now :=
    fun hk => ⟨hk.1, fun hr => ⟨(hk.2 hr).1, rfl⟩⟩
  cases c with
  | user => trivial
  | beginWoke w | beginCancellable w | beginWait w => exact hc
  | beginCheck w => exact ⟨hc.1, hc.2.1, hc.2.2.1, hwoke hc.2.2.2.1, hc.2.2.2.2⟩
  | beginDone w | begun w | parking w d | timing w d =>
    exact ⟨hc.1, hc.2.1, hc.2.2.1, hwoke hc.2.2.2⟩
  | suspending w d | suspended w d | resumed w d | reading w d =>
    exact ⟨hc.1, hc.2.1, hwoke hc.2.2⟩
  | reported w d r => exact ⟨hc.1, hc.2.1, fun hr => ⟨(hc.2.2 hr).1, rfl⟩⟩

lemma CodeOk.of_claimed
    (hc : CodeOk k h now c) (hne : c ≠ .user → k.latest ≠ 0) :
    CodeOk { k with wait := 0 } h now c := by
  cases c with
  | user => trivial
  | beginWoke w | beginCancellable w | beginWait w => exact ⟨hc.1, (hne (by simp)).symm, hc.2.2⟩
  | beginCheck w | beginDone w | begun w | parking w d | timing w d => exact ⟨hc.1, .inl rfl, hc.2.2⟩
  | suspending w d | suspended w d | resumed w d | reading w d | reported w d r => exact hc

lemma CodeOk.of_woke (hc : CodeOk k h now c) (hpre : c.prePublish → r = .ready) (htime : r = .timedOut → Fired h now)
    (hcancel : r = .cancelled → k.cancellable ∧ k.cancelled) : CodeOk { k with woke := r } h now c := by
  have hwoke : WokeOk { k with woke := r } h now := ⟨htime, hcancel⟩
  cases c with
  | user => trivial
  | beginWoke w | reported w d r' => exact hc
  | beginCancellable w | beginWait w => exact ⟨hc.1, hc.2.1, hc.2.2.1, hpre rfl⟩
  | beginCheck w => exact ⟨hc.1, hc.2.1, hc.2.2.1, hwoke, hc.2.2.2.2⟩
  | beginDone w | begun w | parking w d | timing w d => exact ⟨hc.1, hc.2.1, hc.2.2.1, hwoke⟩
  | suspending w d | suspended w d | resumed w d | reading w d => exact ⟨hc.1, hc.2.1, hwoke⟩

lemma CodeOk.of_prePublish (hc : CodeOk k h now c) (hpre : c.prePublish) : k.wait ≠ k.latest ∧ h.deadline = none := by
  cases c with
  | beginWoke w => exact ⟨hc.2.1, hc.2.2⟩
  | beginCancellable w | beginWait w => exact ⟨hc.2.1, hc.2.2.1⟩
  | _ => cases hpre

lemma Reasons.congr (h : Reasons s) (htasks : s'.tasks = s.tasks) (hnt : s'.nextTask = s.nextTask)
    (hnw : s'.nextWait = s.nextWait) (hrec : s'.record = s.record) (hnow : s'.now = s.now)
    (htimers : s'.timers = s.timers) (hloop : s'.loop = s.loop) (hop : s'.op = s.op) : Reasons s' := by
  have hops : OpReason s' = OpReason s := by
    funext o
    cases o <;> simp only [OpReason, State.Spawned, htasks, hnt, hnw, hrec, hnow]
  refine ⟨?_, ?_, ?_, ?_, ?_, ?_, ?_, ?_⟩
  · rw [htasks, hnw]
    exact h.ids
  · rw [hrec, hnw]
    exact h.unused
  · rw [htasks]
    exact h.unique
  · rw [htasks]
    exact h.started
  · rw [htasks, hrec, hnow]
    exact h.tasks
  · rw [htimers, hrec]
    exact h.timers
  · rw [hloop, hrec, hnow]
    exact h.loops
  · rw [hop, hops]
    exact h.ops

lemma Reasons.setOp (h : Reasons s) (ho : OpReason s o) : Reasons (s.setOp θ o) := by
  refine ⟨h.ids, h.unused, h.unique, h.started, h.tasks, h.timers, h.loops, ?_⟩
  exact (forall_update_iff s.op fun _ o => OpReason s o).mpr ⟨ho, fun θ' _ => h.ops θ'⟩

lemma Reasons.setLoop (h : Reasons s) (hl : LoopReason s.record s.now l) : Reasons (s.setLoop θ l) := by
  refine ⟨h.ids, h.unused, h.unique, h.started, h.tasks, h.timers, ?_, h.ops⟩
  exact (forall_update_iff s.loop fun _ l => LoopReason s.record s.now l).mpr ⟨hl, fun θ' _ => h.loops θ'⟩

/-- A call's knowledge of a task survives a change that keeps it cancelled and, once its latest
wait is published, keeps that wait's flag. -/
theorem OpReason.of_update (h : OpReason s o) (htasks : s'.tasks = update s.tasks t k) (hnt : s.nextTask ≤ s'.nextTask)
    (hnw : s.nextWait ≤ s'.nextWait) (hfired : ∀ w, Fired (s.record w) s.now → Fired (s'.record w) s'.now)
    (hk : s.Spawned t → ((s.tasks t).cancelled → k.cancelled) ∧
      (k.latest = (s.tasks t).latest ∧ ((s.tasks t).code.prePublish = false →
        k.code.prePublish = false ∧ k.cancellable = (s.tasks t).cancellable) ∨
      s.nextWait ≤ k.latest)) : OpReason s' o := by
  have hspawned : ∀ {u}, s.Spawned u → s'.Spawned u := fun hu => ⟨hu.1, hu.2.trans_le hnt⟩
  have hcancelled : ∀ {u}, s.Spawned u → (s.tasks u).cancelled → (s'.tasks u).cancelled := by
    intro u hu hc
    rw [htasks]
    obtain rfl | hut := eq_or_ne u t
    · rw [update_self]
      exact (hk hu).1 hc
    · rwa [update_of_ne hut]
  have hpublished : ∀ {u w}, s.Spawned u → w < s.nextWait → (s'.tasks u).latest = w →
      (s.tasks u).latest = w ∧ ((s.tasks u).code.prePublish = false →
        (s'.tasks u).code.prePublish = false ∧ (s'.tasks u).cancellable = (s.tasks u).cancellable) := by
    intro u w hu hw hlatest
    rw [htasks] at hlatest ⊢
    obtain rfl | hut := eq_or_ne u t
    · rw [update_self] at hlatest ⊢
      rcases (hk hu).2 with ⟨heq, hkeep⟩ | hnew
      · exact ⟨heq ▸ hlatest, hkeep⟩
      · exact absurd (hlatest ▸ hnew) (not_le_of_gt hw)
    · rw [update_of_ne hut] at hlatest ⊢
      exact ⟨hlatest, fun hp => ⟨hp, rfl⟩⟩
  cases o with
  | cancelLoad u => exact ⟨hspawned h.1, hcancelled h.1 h.2⟩
  | cancelCheck u w =>
    refine ⟨hspawned h.1, hcancelled h.1 h.2.1, h.2.2.1.trans_le hnw, fun hl => ?_⟩
    obtain ⟨hold, hkeep⟩ := hpublished h.1 h.2.2.1 hl
    exact (hkeep (h.2.2.2 hold)).1
  | claim u w r | report u w r =>
    cases r with
    | ready => trivial
    | timedOut => exact hfired w h
    | cancelled =>
      refine ⟨hspawned h.1, hcancelled h.1 h.2.1, h.2.2.1.trans_le hnw, fun hl => ?_⟩
      obtain ⟨hold, hkeep⟩ := hpublished h.1 h.2.2.1 hl
      obtain ⟨hpre, hflag⟩ := h.2.2.2 hold
      exact ⟨(hkeep hpre).1, (hkeep hpre).2.trans hflag⟩
  | cancelStore u => exact hspawned h
  | _ => trivial

lemma Reasons.setTask {f : Task → Task} (h : Reasons s) (hlatest : (f (s.tasks t)).latest = (s.tasks t).latest)
    (hwait : (f (s.tasks t)).wait < s.nextWait) (hstarted : (f (s.tasks t)).code ≠ .user → (s.tasks t).code ≠ .user)
    (hcode : CodeOk (f (s.tasks t)) (s.record (s.tasks t).latest) s.now (f (s.tasks t)).code)
    (hcancelled : (s.tasks t).cancelled → (f (s.tasks t)).cancelled)
    (hkeep : (s.tasks t).code.prePublish = false → (f (s.tasks t)).code.prePublish = false ∧
      (f (s.tasks t)).cancellable = (s.tasks t).cancellable) : Reasons (s.setTask t f) := by
  have hlatest' : ∀ u, ((s.setTask t f).tasks u).latest = (s.tasks u).latest := by
    intro u
    obtain rfl | hu := eq_or_ne u t
    · simpa using hlatest
    · simp [hu]
  refine ⟨fun u => ?_, h.unused, fun u v => ?_, fun u => ?_, fun u => ?_, h.timers, h.loops, fun θ => ?_⟩
  · rw [hlatest' u]
    refine ⟨(h.ids u).1, ?_⟩
    obtain rfl | hu := eq_or_ne u t
    · simpa using hwait
    · simpa [hu] using (h.ids u).2
  · rw [hlatest' u, hlatest' v]
    exact h.unique u v
  · rw [hlatest' u]
    obtain rfl | hu := eq_or_ne u t
    · simpa using fun hne => h.started u (hstarted hne)
    · simpa [hu] using h.started u
  · rw [hlatest' u]
    show CodeOk (update s.tasks t (f (s.tasks t)) u) (s.record (s.tasks u).latest) s.now _
    obtain rfl | hu := eq_or_ne u t
    · simpa using hcode
    · simpa [hu] using h.tasks u
  · refine (h.ops θ).of_update (show (s.setTask t f).tasks = _ from rfl) le_rfl le_rfl (fun _ hf => hf) fun _ => ?_
    exact ⟨hcancelled, .inl ⟨hlatest, hkeep⟩⟩

lemma Reasons.of_record (h : Reasons s) (htasks : s'.tasks = s.tasks) (hnt : s'.nextTask = s.nextTask)
    (hnw : s'.nextWait = s.nextWait) (htimers : s'.timers = s.timers) (hloop : s'.loop = s.loop) (hop : s'.op = s.op)
    (hd : ∀ w, (s'.record w).deadline = (s.record w).deadline)
    (hf : ∀ w, Fired (s.record w) s.now → Fired (s'.record w) s'.now) : Reasons s' := by
  refine ⟨?_, ?_, ?_, ?_, fun t => ?_, fun i e he => ?_, fun θ => ?_, fun θ => ?_⟩
  · rw [htasks, hnw]
    exact h.ids
  · intro w hw
    rw [hd w]
    exact h.unused w (hnw ▸ hw)
  · rw [htasks]
    exact h.unique
  · rw [htasks]
    exact h.started
  · rw [htasks]
    exact (h.tasks t).congr (hd _) (hf _)
  · rw [hd]
    exact h.timers i e (htimers ▸ he)
  · have hθ := h.loops θ
    rw [hloop]
    cases hl : s.loop θ with
    | firing due =>
      rw [hl] at hθ
      exact fun e he => hf _ (hθ e he)
    | _ => trivial
  · rw [hop]
    refine (h.ops θ).of_update (t := 0) (k := s.tasks 0) ?_ hnt.ge hnw.ge hf
      fun _ => ⟨id, .inl ⟨rfl, fun hp => ⟨hp, rfl⟩⟩⟩
    rw [htasks, update_eq_self]

lemma Reasons.setRecord {f : WaitRecord → WaitRecord} (h : Reasons s)
    (hd : (f (s.record w)).deadline = (s.record w).deadline) (hf : (f (s.record w)).fired = (s.record w).fired) :
    Reasons (s.setRecord w f) := by
  have hrec : ∀ v, ((s.setRecord w f).record v).deadline = (s.record v).deadline ∧
      ((s.setRecord w f).record v).fired = (s.record v).fired := by
    intro v
    obtain rfl | hv := eq_or_ne v w
    · simpa using ⟨hd, hf⟩
    · simp [hv]
  refine h.of_record rfl rfl rfl rfl rfl rfl (fun v => (hrec v).1) fun v hfired => ?_
  show Fired _ s.now
  simpa only [Fired, (hrec v).1, (hrec v).2] using hfired

lemma Reasons.setTimers (h : Reasons s) (hsub : ∀ e ∈ q, e ∈ s.timers i) : Reasons (s.setTimers i q) := by
  refine ⟨h.ids, h.unused, h.unique, h.started, h.tasks, fun j e he => ?_, h.loops, h.ops⟩
  obtain rfl | hj := eq_or_ne j i
  · exact h.timers j e (hsub e (by simpa using he))
  · exact h.timers j e (by simpa [hj] using he)

end RocNet.Sched
