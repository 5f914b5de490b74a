import RocNet.Library.Ledger
import RocNet.Model.SchedulerSteps

/-!
# The custody of tasks: the invariant and its rules

`unsafe impl Sync for Task` rests on a task being touched by one thread at a time, and that on its state word. The
invariant `Custody` is the ledger of `Library.Ledger` at the scheduler's places (a thread's hands, a worker's queue,
`INJECT`): a task stands somewhere, and once, exactly while its word says `NOTIFIED` or `RUNNING`.

Unconditional stores are safe because the thread that makes one has the task in its hands, and compare-exchanges
because they enter a task only from 0, when nobody has it.
-/

namespace RocNet.Sched

open Ledger Function List

/-! ## Places -/

def Loop.held : Loop → List TaskId
  | .popped t | .running t | .yielded t | .waiting t | .woken t | .requeuing t | .returned t => [t]
  | .moving ts => ts
  | .idle | .retiring _ | .finishing _ | .firing _ => []

def Op.held : Op → List TaskId
  | .push t => [t]
  | _ => []

/-- Where a task can stand. -/
inductive Place
  | thread (θ : Thread)
  | queue (i : ℕ)
  | inject
  deriving DecidableEq

def content (s : State) : Place → List TaskId
  | .thread θ => (s.loop θ).held ++ (s.op θ).held
  | .queue i => s.queue i
  | .inject => s.inject

def word (s : State) (t : TaskId) : UInt8 := (s.tasks t).state

/-- The words of a task that stands somewhere. -/
def Live (w : UInt8) : Prop := w = NOTIFIED ∨ w = RUNNING ∨ w = RUNNING ||| NOTIFIED

/-- A spawned task with such a word. -/
def Alive (s : State) (t : TaskId) : Prop := s.Spawned t ∧ Live (word s t)

/-! ## The invariant -/

/-- What a worker's own code knows of the words of the tasks in its hands. -/
def LoopOk (w : TaskId → UInt8) : Loop → Prop
  | .popped t | .requeuing t => w t = NOTIFIED
  | .moving ts => ∀ t ∈ ts, w t = NOTIFIED
  | .running t | .yielded t | .waiting t | .returned t => w t = RUNNING ∨ w t = RUNNING ||| NOTIFIED
  | .woken t => w t = RUNNING ||| NOTIFIED
  | .retiring t | .finishing t => w t = DONE
  | .idle | .firing _ => True

/-- What a call knows: a task being pushed is `NOTIFIED`, and `schedule` only tries to mark a
word that has neither `NOTIFIED` nor `DONE`. -/
def OpOk (w : TaskId → UInt8) : Op → Prop
  | .push t => w t = NOTIFIED
  | .mark _ seen => seen = 0 ∨ seen = RUNNING
  | _ => True

structure Custody (s : State) : Prop where
  placed : Placed (content s) (Alive s)
  words : ∀ t, Live (word s t) ∨ word s t = 0 ∨ word s t = DONE
  unborn : ∀ t, ¬ s.Spawned t → word s t = NOTIFIED
  loops : ∀ θ, LoopOk (word s) (s.loop θ)
  ops : ∀ θ, OpOk (word s) (s.op θ)
  queued : ∀ i, ∀ t ∈ s.queue i, word s t = NOTIFIED
  injected : ∀ t ∈ s.inject, word s t = NOTIFIED
  co : ∀ t, word s t ≠ DONE → (s.tasks t).co = true
  first : 1 < s.nextTask

variable {w : TaskId → UInt8} {s r s' : State} {θ : Thread} {i : ℕ} {t : TaskId} {f : Task → Task} {l : Loop}

/-- A worker's knowledge only depends on the words of the tasks in its hands, and on that of a
task it has just seen done. -/
theorem LoopOk.congr {w' : TaskId → UInt8} (h : LoopOk w l)
    (heq : ∀ t ∈ l.held, w' t = w t) (hdone : ∀ t, w t = DONE → w' t = DONE) : LoopOk w' l := by
  cases l with
  | idle | firing => trivial
  | retiring t | finishing t => exact hdone t h
  | moving ts =>
    intro t ht
    rw [heq t ht]
    exact h t ht
  | _ t =>
    simp only [LoopOk, Loop.held, mem_singleton, forall_eq] at h heq ⊢
    rw [heq]
    exact h

variable {o : Op}

lemma OpOk.congr {w' : TaskId → UInt8} (h : OpOk w o) (heq : ∀ t ∈ o.held, w' t = w t) : OpOk w' o := by
  cases o with
  | push t =>
    simp only [OpOk, Op.held, mem_singleton, forall_eq] at h heq ⊢
    rw [heq]
    exact h
  | _ => exact h

lemma opOk_scheduleNext (t : TaskId) (h : Live x ∨ x = 0 ∨ x = DONE) : OpOk w (scheduleNext t x) := by
  rcases h with (rfl | rfl | rfl) | rfl | rfl
  · trivial
  · exact .inr rfl
  · trivial
  · exact .inl rfl
  · trivial

@[simp] lemma held_scheduleNext (t : TaskId) (x : UInt8) : (scheduleNext t x).held = [] := by
  unfold scheduleNext
  split <;> rfl

/-! ## Assembling the invariant after a step of one thread -/

/-- Only thread `θ` moved. -/
structure Alone (θ : Thread) (s s' : State) : Prop where
  loop : ∀ θ', θ' ≠ θ → s'.loop θ' = s.loop θ'
  op : ∀ θ', θ' ≠ θ → s'.op θ' = s.op θ'

lemma Alone.setOp (hl : r.loop = s.loop) (ho : r.op = s.op) : Alone θ s (r.setOp θ o) :=
  ⟨fun _ _ => by simp [hl], fun _ hne => by simp [hne, ho]⟩

lemma Alone.setLoop (hl : r.loop = s.loop) (ho : r.op = s.op) : Alone θ s (r.setLoop θ l) :=
  ⟨fun _ hne => by simp [hne, hl], fun _ _ => by simp [ho]⟩

/-- The hands of the others are as they were. -/
theorem Alone.content_thread (h : Alone θ s s') (hne : θ' ≠ θ) : content s' (.thread θ') = content s (.thread θ') := by
  simp only [content, h.loop θ' hne, h.op θ' hne]

lemma Alone.content_eq (h : Alone θ s s') (hheld : content s' (.thread θ) = content s (.thread θ))
    (hq : s'.queue = s.queue) (hi : s'.inject = s.inject) (p : Place) : content s' p = content s p := by
  cases p with
  | thread θ' =>
    obtain rfl | hne := eq_or_ne θ' θ
    · exact hheld
    · exact h.content_thread hne
  | queue i => simp only [content, hq]
  | inject => exact hi

lemma Alone.content_of_ne (h : Alone θ s s') (hq : s'.queue = s.queue)
    (hi : s'.inject = s.inject) (p : Place) (hp : p ≠ .thread θ) : content s' p = content s p := by
  cases p with
  | thread θ' => exact h.content_thread fun he => hp (by rw [he])
  | queue i => simp only [content, hq]
  | inject => exact hi

/-- What a step of `θ` owes, given where the tasks stand afterwards: it changes no word of a
task that stands elsewhere, and none that says `DONE`. -/
theorem Custody.of_step (h : Custody s) (hplaced : Placed (content s') (Alive s'))
    (hsame : ∀ q ≠ .thread θ, ∀ u ∈ content s q, word s' u = word s u) (hdone : ∀ u, word s u = DONE → word s' u = DONE)
    (hwords : ∀ u, Live (word s' u) ∨ word s' u = 0 ∨ word s' u = DONE)
    (hunborn : ∀ u, ¬ s'.Spawned u → word s' u = NOTIFIED) (halone : Alone θ s s') (hθ : LoopOk (word s') (s'.loop θ))
    (hθo : OpOk (word s') (s'.op θ)) (hq : ∀ i, ∀ u ∈ s'.queue i, u ∈ s.queue i ∨ word s' u = NOTIFIED)
    (hi : ∀ u ∈ s'.inject, u ∈ s.inject ∨ word s' u = NOTIFIED) (hco : ∀ u, word s' u ≠ DONE → (s'.tasks u).co)
    (hn : s.nextTask ≤ s'.nextTask) : Custody s' := by
  refine ⟨hplaced, hwords, hunborn, fun θ' => ?_, fun θ' => ?_, fun i u hu => ?_, fun u hu => ?_,
    hco, h.first.trans_le hn⟩
  · obtain rfl | hne := eq_or_ne θ' θ
    · exact hθ
    · rw [halone.loop θ' hne]
      refine (h.loops θ').congr (fun u hu => hsame (.thread θ') (by simpa using hne) u ?_) hdone
      exact mem_append_left _ hu
  · obtain rfl | hne := eq_or_ne θ' θ
    · exact hθo
    · rw [halone.op θ' hne]
      refine (h.ops θ').congr fun u hu => hsame (.thread θ') (by simpa using hne) u ?_
      exact mem_append_right _ hu
  · rcases hq i u hu with hold | hnew
    · rw [hsame (.queue i) (by simp) u hold]
      exact h.queued i u hold
    · exact hnew
  · rcases hi u hu with hold | hnew
    · rw [hsame .inject (by simp) u hold]
      exact h.injected u hold
    · exact hnew

lemma Custody.quiet (θ : Thread) (h : Custody s) (hw : ∀ u, word s' u = word s u)
    (hco : ∀ u, word s u ≠ DONE → (s'.tasks u).co = (s.tasks u).co) (hn : s'.nextTask = s.nextTask)
    (hq : s'.queue = s.queue) (hi : s'.inject = s.inject) (halone : Alone θ s s')
    (hheld : content s' (.thread θ) = content s (.thread θ)) (hθ : LoopOk (word s) (s'.loop θ))
    (hθo : OpOk (word s) (s'.op θ)) : Custody s' := by
  have hww : word s' = word s := funext hw
  have hspawned : ∀ u, s'.Spawned u ↔ s.Spawned u := fun u => by simp [State.Spawned, hn]
  refine h.of_step (θ := θ) ?_ ?_ ?_ ?_ ?_ halone ?_ ?_ ?_ ?_ ?_ hn.ge
  · exact h.placed.same (halone.content_eq hheld hq hi) fun u => by simp [Alive, hspawned, hww]
  · intro q _ u _
    exact hw u
  · intro u hu
    rw [hw u, hu]
  · intro u
    rw [hw u]
    exact h.words u
  · intro u hu
    rw [hw u]
    exact h.unborn u (mt (hspawned u).mpr hu)
  · rw [hww]
    exact hθ
  · rw [hww]
    exact hθo
  · intro i u hu
    exact .inl (hq ▸ hu)
  · intro u hu
    exact .inl (hi ▸ hu)
  · intro u hu
    rw [hw u] at hu
    rw [hco u hu]
    exact h.co u hu

lemma Custody.of_move (q : Place) (h : Custody s) (hqθ : q ≠ .thread θ)
    (hperm : (content s' (.thread θ) ++ content s' q).Perm (content s (.thread θ) ++ content s q))
    (hnew : ∀ u ∈ content s' q, u ∈ content s q ∨ word s u = NOTIFIED) (hq : ∀ i, q ≠ .queue i → s'.queue i = s.queue i)
    (hi : q ≠ .inject → s'.inject = s.inject) (htasks : s'.tasks = s.tasks) (hn : s'.nextTask = s.nextTask)
    (halone : Alone θ s s') (hθ : LoopOk (word s) (s'.loop θ)) (hθo : OpOk (word s) (s'.op θ)) : Custody s' := by
  have hww : word s' = word s := by
    funext u
    simp [word, htasks]
  have hspawned : ∀ u, s'.Spawned u ↔ s.Spawned u := fun u => by simp [State.Spawned, hn]
  have hrest : ∀ r ≠ .thread θ, r ≠ q → content s' r = content s r := by
    intro r hr hrq
    cases r with
    | thread θ' => exact halone.content_thread fun he => hr (by rw [he])
    | queue i => exact hq i hrq.symm
    | inject => exact hi hrq.symm
  have hsource : ∀ r ≠ .thread θ, ∀ u ∈ content s' r, u ∈ content s r ∨ word s' u = NOTIFIED := by
    intro r hr u hu
    obtain rfl | hrq := eq_or_ne r q
    · rw [hww]
      exact hnew u hu
    · rw [hrest r hr hrq] at hu
      exact .inl hu
  refine h.of_step (θ := θ) ?_ ?_ ?_ ?_ ?_ halone ?_ ?_ ?_ ?_ ?_ hn.ge
  · exact h.placed.move hqθ.symm hrest hperm fun u => by simp [Alive, hspawned, hww]
  · intro _ _ u _
    rw [hww]
  · intro u hu
    rw [hww, hu]
  · rw [hww]
    exact h.words
  · intro u hu
    rw [hww]
    exact h.unborn u (mt (hspawned u).mpr hu)
  · rwa [hww]
  · rwa [hww]
  · exact fun i => hsource (.queue i) (by simp)
  · exact hsource .inject (by simp)
  · rw [hww, htasks]
    exact h.co

lemma Custody.enqueue (ts : List TaskId) (h : Custody s) (hN : ∀ t ∈ ts, word s t = NOTIFIED)
    (hqueue : s'.queue = update s.queue i (s.queue i ++ ts))
    (hhands : content s (.thread θ) = content s' (.thread θ) ++ ts) (hi : s'.inject = s.inject)
    (htasks : s'.tasks = s.tasks) (hn : s'.nextTask = s.nextTask) (halone : Alone θ s s')
    (hθ : LoopOk (word s) (s'.loop θ)) (hθo : OpOk (word s) (s'.op θ)) : Custody s' := by
  refine h.of_move (.queue i) (by simp) ?_ ?_ ?_ (fun _ => hi) htasks hn halone hθ hθo
  · rw [hhands, append_assoc]
    refine Perm.append_left _ ?_
    simp only [content, hqueue, update_self]
    exact perm_append_comm
  · intro u hu
    simp only [content, hqueue, update_self, mem_append] at hu
    exact hu.imp_right (hN u)
  · intro j hj
    have hne : j ≠ i := fun he => hj (by rw [he])
    simp [hqueue, hne]

lemma Custody.dequeue (ts rest : List TaskId) (h : Custody s) (hsplit : s.queue j = ts ++ rest)
    (hqueue : s'.queue = update s.queue j rest) (hhands : content s' (.thread θ) = content s (.thread θ) ++ ts)
    (hi : s'.inject = s.inject) (htasks : s'.tasks = s.tasks) (hn : s'.nextTask = s.nextTask) (halone : Alone θ s s')
    (hθ : LoopOk (word s) (s'.loop θ)) (hθo : OpOk (word s) (s'.op θ)) : Custody s' := by
  refine h.of_move (.queue j) (by simp) ?_ ?_ ?_ (fun _ => hi) htasks hn halone hθ hθo
  · rw [hhands, append_assoc]
    simp only [content, hqueue, update_self, hsplit]
    exact Perm.refl _
  · intro u hu
    simp only [content, hqueue, update_self] at hu
    refine .inl ?_
    simp only [content, hsplit]
    exact mem_append_right _ hu
  · intro i hi
    have hne : i ≠ j := fun he => hi (by rw [he])
    simp [hqueue, hne]

lemma Alive.ne_done (h : Alive s t) : word s t ≠ DONE := by
  intro hd
  have hl := h.2
  rw [hd] at hl
  rcases hl with hl | hl | hl <;> exact absurd hl (by decide)

lemma word_of_update (h : r.tasks = update s.tasks t k) (u : TaskId) :
    word r u = if u = t then k.state else word s u := by
  obtain rfl | hu := eq_or_ne u t
  · simp [word, h]
  · simp [word, h, hu]

lemma word_setTask (u : TaskId) :
    word (s.setTask t f) u = if u = t then (f (s.tasks t)).state else word s u :=
  word_of_update rfl u

lemma word_setTask_of_state (h : (f (s.tasks t)).state = (s.tasks t).state) : word (s.setTask t f) = word s := by
  funext u
  rw [word_setTask]
  split
  · next hu => rw [hu, h, word]
  · rfl

section

variable (h : Custody s)

include h

/-- The worker that has `t` in its hands stores its state word and goes on, either with `t` still
in its hands or, having let it go, suspended or done. -/
theorem Custody.store {l' : Loop} (hloop : s.loop (.worker i) = l) (hop : s.op (.worker i) = .none)
    (hheld : l.held = [t]) (hco : (f (s.tasks t)).co = (s.tasks t).co)
    (hafter : Live (f (s.tasks t)).state ∧ l'.held = [t] ∨
      ((f (s.tasks t)).state = 0 ∨ (f (s.tasks t)).state = DONE) ∧ l'.held = [])
    (hok : ∀ w : TaskId → UInt8, w t = (f (s.tasks t)).state → LoopOk w l') :
    Custody ((s.setTask t f).setLoop (.worker i) l') := by
  have hhands : content s (.thread (.worker i)) = [t] := by
    simp only [content, hloop, hop, hheld, Op.held, append_nil]
  have hmem : t ∈ content s (.thread (.worker i)) := by simp [hhands]
  have halive := h.placed.alive_of_mem hmem
  let s' := (s.setTask t f).setLoop (.worker i) l'
  have hhands' : content s' (.thread (.worker i)) = l'.held := by
    simp [s', content, hop, Op.held]
  have hw : ∀ u ≠ t, word s' u = word s u := fun u hu => by simp [s', word, hu]
  have hwt : word s' t = (f (s.tasks t)).state := by simp [s', word]
  have halone : Alone (.worker i) s s' := .setLoop rfl rfl
  refine h.of_step (θ := .worker i) ?_ ?_ ?_ ?_ ?_ halone ?_ ?_ (fun _ _ => .inl) (fun _ => .inl) ?_ le_rfl
  · rcases hafter with ⟨hlive, hl'⟩ | ⟨hgone, hl'⟩
    · refine h.placed.same (halone.content_eq (by rw [hhands, hhands', hl']) rfl rfl) fun u => ?_
      obtain rfl | hu := eq_or_ne u t
      · exact iff_of_true ⟨halive.1, hwt ▸ hlive⟩ halive
      · exact and_congr Iff.rfl (by rw [hw u hu])
    · refine h.placed.leave (t := t) (halone.content_of_ne rfl rfl) ?_ fun u => ?_
      · rw [hhands, hhands', hl']
      · obtain rfl | hu := eq_or_ne u t
        · refine iff_of_false ?_ fun hn => hn.2 rfl
          rintro ⟨-, hl⟩
          rw [hwt] at hl
          rcases hgone with h0 | h0 <;> rw [h0] at hl <;> rcases hl with hl | hl | hl <;> exact absurd hl (by decide)
        · exact ⟨fun ha => ⟨⟨ha.1, hw u hu ▸ ha.2⟩, hu⟩, fun ha => ⟨ha.1.1, hw u hu ▸ ha.1.2⟩⟩
  · intro q hqθ u hu
    refine hw u fun hut => ?_
    subst hut
    exact hqθ (h.placed.place_unique hmem hu)
  · intro u hu
    rw [hw u (fun hut => halive.ne_done (hut ▸ hu)), hu]
  · intro u
    obtain rfl | hu := eq_or_ne u t
    · rw [hwt]
      exact hafter.imp And.left And.left
    · rw [hw u hu]
      exact h.words u
  · intro u hu
    rw [hw u (fun hut => hu (hut ▸ halive.1))]
    exact h.unborn u hu
  · show LoopOk (word s') (update s.loop (.worker i) l' (.worker i))
    rw [update_self]
    exact hok _ hwt
  · show OpOk (word s') (s.op (.worker i))
    rw [hop]
    trivial
  · intro u hu
    obtain rfl | hut := eq_or_ne u t
    · simpa [s', hco] using h.co u halive.ne_done
    · simpa [s', hut] using h.co u (hw u hut ▸ hu)

/-- A task that stood nowhere comes into a thread's hands to be pushed: a new one, or one that
was suspended. -/
theorem Custody.of_enter (hdead : ¬ Alive s t) (hnotdone : word s t ≠ DONE)
    (hperm : (content s' (.thread θ)).Perm (t :: content s (.thread θ))) (hw : ∀ u ≠ t, word s' u = word s u)
    (hnew : word s' t = NOTIFIED) (hspawn : ∀ u, s'.Spawned u ↔ s.Spawned u ∨ u = t) (hn : s.nextTask ≤ s'.nextTask)
    (hco : ∀ u ≠ t, (s'.tasks u).co = (s.tasks u).co) (hcot : (s'.tasks t).co) (hq : s'.queue = s.queue)
    (hi : s'.inject = s.inject) (halone : Alone θ s s') (hloop : s'.loop θ = s.loop θ)
    (hθo : OpOk (word s') (s'.op θ)) : Custody s' := by
  have habsent := (h.placed t).2 hdead
  have hsame : ∀ q, ∀ u ∈ content s q, word s' u = word s u := by
    intro q u hu
    refine hw u fun hut => ?_
    subst hut
    exact habsent.notMem q hu
  have hdone : ∀ u, word s u = DONE → word s' u = DONE := by
    intro u hu
    rw [hw u (fun hut => hnotdone (hut ▸ hu)), hu]
  refine h.of_step (θ := θ) ?_ (fun q _ => hsame q) hdone ?_ ?_ halone ?_ hθo ?_ ?_ ?_ hn
  · refine h.placed.enter hdead (halone.content_of_ne hq hi) hperm fun u => ?_
    obtain rfl | hu := eq_or_ne u t
    · simp [Alive, hspawn, hnew, Live]
    · simp [Alive, hspawn, hw u hu, hu]
  · intro u
    obtain rfl | hu := eq_or_ne u t
    · exact .inl (.inl hnew)
    · rw [hw u hu]
      exact h.words u
  · intro u hu
    rw [hspawn, not_or] at hu
    rw [hw u hu.2]
    exact h.unborn u hu.1
  · rw [hloop]
    exact (h.loops θ).congr (fun u hu => hsame (.thread θ) u (mem_append_left _ hu)) hdone
  · intro i u hu
    exact .inl (hq ▸ hu)
  · intro u hu
    exact .inl (hi ▸ hu)
  · intro u hu
    obtain rfl | hut := eq_or_ne u t
    · exact hcot
    · rw [hco u hut]
      exact h.co u (hw u hut ▸ hu)

/-! ## Steps that leave every task where it is -/

lemma Custody.congr (htasks : s'.tasks = s.tasks) (hn : s'.nextTask = s.nextTask) (hq : s'.queue = s.queue)
    (hi : s'.inject = s.inject) (hloop : s'.loop = s.loop) (hop : s'.op = s.op) : Custody s' := by
  have halone : Alone (.plain 0) s s' := ⟨fun _ _ => by rw [hloop], fun _ _ => by rw [hop]⟩
  refine h.quiet (.plain 0) (fun u => by simp [word, htasks]) (fun _ _ => by rw [htasks]) hn hq hi halone ?_ ?_ ?_
  · simp [content, hloop, hop]
  · rw [hloop]
    exact h.loops _
  · rw [hop]
    exact h.ops _

lemma Custody.setRecord {w : WaitId} {f : WaitRecord → WaitRecord} : Custody (s.setRecord w f) :=
  h.congr rfl rfl rfl rfl rfl rfl

lemma Custody.setTimers : Custody (s.setTimers i q) :=
  h.congr rfl rfl rfl rfl rfl rfl

lemma Custody.setOp (hop : s.op θ = o) (hheld : o'.held = o.held) (hok : OpOk (word s) o') :
    Custody (s.setOp θ o') := by
  refine h.quiet θ (fun _ => rfl) (fun _ _ => rfl) rfl rfl rfl (.setOp rfl rfl) ?_ (h.loops θ) ?_
  · simp [content, hheld, hop]
  · simpa using hok

lemma Custody.setLoop (hloop : s.loop θ = l) (hheld : l'.held = l.held) (hok : LoopOk (word s) l') :
    Custody (s.setLoop θ l') := by
  refine h.quiet θ (fun _ => rfl) (fun _ _ => rfl) rfl rfl rfl (.setLoop rfl rfl) ?_ ?_ (h.ops θ)
  · simp [content, hheld, hloop]
  · simpa using hok

lemma Custody.setTask (hstate : (f (s.tasks t)).state = (s.tasks t).state)
    (hco : word s t ≠ DONE → (f (s.tasks t)).co = (s.tasks t).co) : Custody (s.setTask t f) := by
  refine h.quiet (.plain 0) ?_ ?_ rfl rfl rfl ⟨fun _ _ => rfl, fun _ _ => rfl⟩ rfl (h.loops _) (h.ops _)
  · intro u
    rw [word_setTask_of_state hstate]
  · intro u hu
    obtain rfl | hut := eq_or_ne u t
    · simp [hco hu]
    · simp [hut]

end

end RocNet.Sched
