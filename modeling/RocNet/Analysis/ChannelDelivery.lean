import RocNet.Library.Ledger
import RocNet.Model.ChannelSteps

/-!
# What becomes of a channel's values

A value given to send stands in one place, until it is handed on or released exactly once: with its send, in the
queue, with a receiver, among what was drained, or released.
-/

namespace RocNet.Channel

open Sched (TaskId WaitId Instant Woke)
open Function List Transition State Nat Option

variable {s s' r : State} {t : TaskId} {v : Value} {deadline : Option Instant} {cap : ℕ}

/-! ## Where values stand -/

def Op.value : Op → Option Value
  | .send v _ | .sendParked v _ _ | .leaving v _ => some v
  | _ => Option.none

@[simp]
lemma Op.value_none : Op.none.value = Option.none := rfl

def ReceiveResult.value : ReceiveResult → Option Value
  | .ok v => some v
  | _ => none

def delivered (s : State) : List Value := s.received.filterMap ReceiveResult.value

inductive Place
  | task (t : TaskId)
  | queue
  | delivered
  | undelivered
  | released
  deriving DecidableEq

def content (s : State) : Place → List Value
  | .task t => (s.ops t).value.toList
  | .queue => s.queue
  | .delivered => delivered s
  | .undelivered => s.undelivered
  | .released => s.released

structure Delivery (cap : ℕ) (s : State) : Prop where
  capacity : s.capacity = max cap 1
  bounded : s.queue.length ≤ s.capacity
  placed : Ledger.Placed (content s) (· < s.nextValue)
  flow : delivered s ++ s.queue ++ s.drained = s.sent
  nodup : s.sent.Nodup
  here : s.receiverGone = false → s.undelivered = [] ∧ s.drained = []
  dropped : ∀ v ∈ s.drained, v ∈ s.undelivered ∨ v ∈ s.released
  held : ∀ t v, (s.ops t).value = some v → s.results v = none
  fresh : ∀ v, s.nextValue ≤ v → s.results v = none
  sent : ∀ v, s.results v = some .sent ↔ v ∈ s.sent
  failed : ∀ v r, s.results v = some r → r ≠ .sent → v ∈ s.released ∧ v ∉ s.sent

/-- A send that leaves with its value does not say it was sent. -/
def Leaving (s : State) : Prop := ∀ t v r, s.ops t = .leaving v r → r ≠ .sent

/-- Once a receive has been told the channel is closed, it is closed and empty. -/
def ClosedReports (s : State) : Prop := .closed ∈ s.received → s.sendingClosed = true ∧ s.queue = []

/-! ## Steps that move no value -/

/-- Nothing changes for the values. -/
structure SameValues (s s' : State) : Prop where
  capacity : s'.capacity = s.capacity
  queue : s'.queue = s.queue
  undelivered : s'.undelivered = s.undelivered
  drained : s'.drained = s.drained
  released : s'.released = s.released
  sent : s'.sent = s.sent
  results : s'.results = s.results
  nextValue : s'.nextValue = s.nextValue
  receiverGone : s'.receiverGone = s.receiverGone
  delivered : delivered s' = delivered s
  value : ∀ t, (s'.ops t).value = (s.ops t).value

lemma SameValues.content (h : SameValues s s') (p : Place) : content s' p = content s p := by
  cases p with
  | task t => simp only [Channel.content, h.value t]
  | queue => exact h.queue
  | delivered => exact h.delivered
  | undelivered => exact h.undelivered
  | released => exact h.released

lemma Delivery.same (h : Delivery cap s) (hs : SameValues s s') : Delivery cap s' := by
  refine ⟨?_, ?_, ?_, ?_, ?_, ?_, ?_, fun t v => ?_, ?_, ?_, ?_⟩
  · rw [hs.capacity]
    exact h.capacity
  · rw [hs.capacity, hs.queue]
    exact h.bounded
  · refine h.placed.same hs.content fun v => ?_
    rw [hs.nextValue]
  · rw [hs.delivered, hs.queue, hs.drained, hs.sent]
    exact h.flow
  · rw [hs.sent]
    exact h.nodup
  · rw [hs.receiverGone, hs.undelivered, hs.drained]
    exact h.here
  · rw [hs.undelivered, hs.drained, hs.released]
    exact h.dropped
  · rw [hs.value t, hs.results]
    exact h.held t v
  · rw [hs.nextValue, hs.results]
    exact h.fresh
  · rw [hs.results, hs.sent]
    exact h.sent
  · rw [hs.results, hs.sent, hs.released]
    exact h.failed

/-- A task goes on with the value it held, if any. -/
theorem value_update (ho : o.value = (s.ops t).value) (u : TaskId) :
    (update s.ops t o u).value = (s.ops u).value := by
  obtain rfl | hu := eq_or_ne u t
  · simp [ho]
  · simp [hu]

lemma SameValues.setOp (ho : o.value = (s.ops t).value) : SameValues s (s.setOp t o) :=
  ⟨rfl, rfl, rfl, rfl, rfl, rfl, rfl, rfl, rfl, rfl, value_update ho⟩

lemma sameValues_lists (s : State) (x : WaitList → Waiters WaitId) (z : Waits) (n : WaitId) :
    SameValues s { s with lists := x, waits := z, nextWait := n } :=
  ⟨rfl, rfl, rfl, rfl, rfl, rfl, rfl, rfl, rfl, rfl, fun _ => rfl⟩

lemma sameValues_notify (s : State) (e : End) : SameValues s (s.notify e) :=
  sameValues_lists s _ _ _

lemma sameValues_wakeEveryone (s : State) : SameValues s s.wakeEveryone :=
  sameValues_lists s _ _ _

lemma sameValues_returns (hx : x.value = none) (hop : (s.ops t).value = none) : SameValues s (s.returns t x) :=
  ⟨rfl, rfl, rfl, rfl, rfl, rfl, rfl, rfl, rfl, by simp [delivered, hx], value_update hop.symm⟩

lemma sameValues_unpark {id : ℕ} (ho : o.value = (s.ops t).value) : SameValues s (s.unpark t e id o) :=
  ⟨rfl, rfl, rfl, rfl, rfl, rfl, rfl, rfl, rfl, rfl, value_update ho⟩

lemma SendEntry.sameValues (h : SendEntry s t v r) : SameValues s r := by
  cases h with
  | first _ => exact sameValues_lists s _ _ _
  | again hop => exact sameValues_unpark (by rw [hop]; rfl)

lemma ReceiveEntry.sameValues (h : ReceiveEntry s t deadline r) : SameValues s r := by
  cases h with
  | first _ => exact sameValues_lists s _ _ _
  | again hop => exact sameValues_unpark (by rw [hop]; rfl)

lemma sameValues_park {op : ℕ → WaitId → Op} (hop : ∀ id w, (op id w).value = (s.ops t).value) :
    SameValues s (s.park t e op) :=
  ⟨rfl, rfl, rfl, rfl, rfl, rfl, rfl, rfl, rfl, rfl, value_update (hop _ _)⟩

/-! ## Steps that move a value -/

section

variable (h : Delivery cap s)

include h

lemma Delivery.notMem_sent (hop : (s.ops t).value = some v) : v ∉ s.sent := by
  intro hmem
  have htask : v ∈ content s (.task t) := by simp [content, hop]
  have helse : ∀ p, v ∈ content s p → p = .task t := fun p hp => h.placed.place_unique htask hp
  rw [← h.flow, mem_append, mem_append] at hmem
  rcases hmem with (hmem | hmem) | hmem
  · cases helse .delivered hmem
  · cases helse .queue hmem
  · rcases h.dropped v hmem with hmem | hmem
    · cases helse .undelivered hmem
    · cases helse .released hmem

lemma Delivery.value_ne (hop : (s.ops t).value = some v) (hu : u ≠ t) (hx : (s.ops u).value = some x) : x ≠ v := by
  rintro rfl
  have hplace := h.placed.place_unique (p := .task t) (q := .task u) (t := x)
    (by simp [content, hop]) (by simp [content, hx])
  cases hplace
  exact hu rfl

lemma Delivery.begin {wait : Bool} (hop : s.ops t = .none) :
    Delivery cap { s.setOp t (.send s.nextValue wait) with nextValue := s.nextValue + 1 } := by
  have hfresh := h.fresh s.nextValue le_rfl
  refine ⟨h.capacity, h.bounded, ?_, h.flow, h.nodup, h.here, h.dropped, fun u v hu => ?_,
    fun v hv => h.fresh v (Nat.le_of_succ_le hv), h.sent, h.failed⟩
  · refine h.placed.enter (t := s.nextValue) (p := .task t) (lt_irrefl _) (fun p hp => ?_) ?_
      fun v => Nat.lt_succ_iff_lt_or_eq
    · cases p with
      | task u =>
        have hu : u ≠ t := fun heq => hp (heq ▸ rfl)
        simp [content, hu]
      | _ => rfl
    · simp [content, hop, Op.value]
  · obtain rfl | hut := eq_or_ne u t
    · simp only [setOp_ops, update_self, Op.value, some.injEq] at hu
      rw [← hu]
      exact hfresh
    · simp only [setOp_ops, ne_eq, hut, not_false_eq_true, update_of_ne] at hu
      exact h.held u v hu

lemma Delivery.enqueue (hop : (s.ops t).value = some v) (hhere : s.receiverGone = false)
    (hroom : s.queue.length < s.capacity) : Delivery cap ((s.enqueue v).setOp t .none) := by
  have hnew := h.notMem_sent hop
  refine ⟨h.capacity, ?_, ?_, ?_, ?_, h.here, h.dropped, fun u x hu => ?_, fun x hx => ?_, fun x => ?_,
    fun x y hy hne => ?_⟩
  · simpa using succ_le_of_lt hroom
  · refine h.placed.move (p := .task t) (q := .queue) (by simp) (fun p hp hq => ?_) ?_ fun x => Iff.rfl
    · cases p with
      | task u =>
        have hu : u ≠ t := fun heq => hp (heq ▸ rfl)
        simp [content, hu]
      | queue => exact absurd rfl hq
      | _ => rfl
    · simp [content, hop, perm_append_singleton]
  · have hflow := h.flow
    rw [(h.here hhere).2, append_nil] at hflow
    simp only [delivered, setOp_received, enqueue_received, setOp_queue,
      enqueue_queue, setOp_drained, enqueue_drained, setOp_sent,
      enqueue_sent, (h.here hhere).2, append_nil, ← hflow, append_assoc]
  · simp only [setOp_sent, enqueue_sent]
    exact h.nodup.append (nodup_singleton v) (by simpa using hnew)
  · obtain rfl | hut := eq_or_ne u t
    · simp at hu
    · simp only [setOp_ops, ne_eq, hut, not_false_eq_true, update_of_ne, enqueue_ops] at hu
      simp only [setOp_results, enqueue_results, update_of_ne (h.value_ne hop hut hu)]
      exact h.held u x hu
  · have hv : v < s.nextValue := h.placed.alive_of_mem (p := .task t) (by simp [content, hop])
    have hne : x ≠ v := (hv.trans_le hx).ne'
    simp only [setOp_results, enqueue_results, update_of_ne hne]
    exact h.fresh x hx
  · obtain rfl | hx := eq_or_ne x v
    · simp
    · simp [hx, h.sent x]
  · obtain rfl | hx := eq_or_ne x v
    · simp only [setOp_results, enqueue_results, update_self, some.injEq] at hy
      exact absurd hy.symm hne
    · simp only [setOp_results, enqueue_results, update_of_ne hx] at hy
      simpa [hx] using h.failed x y hy hne

lemma Delivery.deliver (hqueue : s.queue = v :: rest) (hop : (s.ops t).value = none) :
    Delivery cap ((s.setQueue rest).returns t (.ok v)) := by
  have hvalue : ∀ u, (((s.setQueue rest).returns t (.ok v)).ops u).value = (s.ops u).value :=
    value_update hop.symm
  have hdelivered : delivered ((s.setQueue rest).returns t (.ok v)) = delivered s ++ [v] := by
    simp [delivered, ReceiveResult.value]
  refine ⟨h.capacity, ?_, ?_, ?_, h.nodup, h.here, h.dropped, fun u x hu => ?_, h.fresh, h.sent, h.failed⟩
  · have hlen := h.bounded
    rw [hqueue, length_cons] at hlen
    exact le_of_succ_le hlen
  · refine h.placed.move (p := .queue) (q := .delivered) (by simp) (fun p hp hq => ?_) ?_ fun x => Iff.rfl
    · cases p with
      | task u => simp only [content, hvalue u]
      | queue => exact absurd rfl hp
      | delivered => exact absurd rfl hq
      | _ => rfl
    · simp only [content, hqueue, hdelivered, returns_queue, setQueue_queue]
      rw [← append_assoc]
      exact perm_append_singleton v (rest ++ delivered s)
  · rw [hdelivered]
    simpa [hqueue] using h.flow
  · rw [hvalue u] at hu
    exact h.held u x hu

lemma Delivery.leave (hop : s.ops t = .leaving v x) (hx : x ≠ .sent) : Delivery cap { s.setOp t .none with
      released := s.released ++ [v], results := update s.results v (some x) } := by
  have hv : (s.ops t).value = some v := by
    rw [hop]
    rfl
  have hnew := h.notMem_sent hv
  refine ⟨h.capacity, h.bounded, ?_, h.flow, h.nodup, h.here, fun y hy => ?_, fun u y hu => ?_,
    fun y hy => ?_, fun y => ?_, fun y z hz hne => ?_⟩
  · refine h.placed.move (p := .task t) (q := .released) (by simp) (fun p hp hq => ?_) ?_ fun x => Iff.rfl
    · cases p with
      | task u =>
        have hu : u ≠ t := fun heq => hp (heq ▸ rfl)
        simp [content, hu]
      | released => exact absurd rfl hq
      | _ => rfl
    · simp [content, hv, perm_append_singleton]
  · exact (h.dropped y hy).imp_right (mem_append_left _)
  · obtain rfl | hut := eq_or_ne u t
    · simp at hu
    · simp only [setOp_ops, ne_eq, hut, not_false_eq_true, update_of_ne] at hu
      simp only [update_of_ne (h.value_ne hv hut hu)]
      exact h.held u y hu
  · have hlt : v < s.nextValue := h.placed.alive_of_mem (p := .task t) (by simp [content, hv])
    have hne : y ≠ v := (hlt.trans_le hy).ne'
    simp only [update_of_ne hne]
    exact h.fresh y hy
  · obtain rfl | hy := eq_or_ne y v
    · simp [hx, hnew]
    · simp [hy, h.sent y]
  · obtain rfl | hy := eq_or_ne y v
    · exact ⟨by simp, hnew⟩
    · simp only [update_of_ne hy] at hz
      obtain ⟨hmem, hnot⟩ := h.failed y z hz hne
      exact ⟨mem_append_left _ hmem, hnot⟩

lemma Delivery.drain (hhere : s.receiverGone = false) :
    Delivery cap { s with
      receiverGone := true, queue := [], undelivered := s.queue, drained := s.queue } := by
  obtain ⟨hund, hdrained⟩ := h.here hhere
  refine ⟨h.capacity, zero_le _, ?_, ?_, h.nodup, by simp, fun v hv => .inl hv, h.held, h.fresh, h.sent, h.failed⟩
  · refine h.placed.move (p := .queue) (q := .undelivered) (by simp) (fun p hp hq => ?_) ?_ fun x => Iff.rfl
    · cases p with
      | queue => exact absurd rfl hp
      | undelivered => exact absurd rfl hq
      | _ => rfl
    · simp [content, hund]
  · have hflow := h.flow
    rw [hdrained, append_nil] at hflow
    simpa [delivered] using hflow

lemma Delivery.drop :
    Delivery cap { s with undelivered := [], released := s.released ++ s.undelivered } := by
  refine ⟨h.capacity, h.bounded, ?_, h.flow, h.nodup, fun hhere => ⟨rfl, (h.here hhere).2⟩,
    fun v hv => .inr ?_, h.held, h.fresh, h.sent, fun v x hx hne => ?_⟩
  · refine h.placed.move (p := .undelivered) (q := .released) (by simp) (fun p hp hq => ?_) ?_ fun x => Iff.rfl
    · cases p with
      | undelivered => exact absurd rfl hp
      | released => exact absurd rfl hq
      | _ => rfl
    · simp [content, perm_append_comm]
  · exact mem_append.mpr (h.dropped v hv).symm
  · obtain ⟨hmem, hnot⟩ := h.failed v x hx hne
    exact ⟨mem_append_left _ hmem, hnot⟩

/-! ## Every step -/

lemma Delivery.sendPass (hop : (s.ops t).value = some v) (hs : SendPass s t v s') : Delivery cap s' := by
  cases hs with
  | closed _ | full _ => exact h.same (.setOp hop.symm)
  | sent _ hhere hroom =>
    have hstep : Delivery cap (((s.enqueue v).setOp t .none).valueAdded) :=
      (h.enqueue hop hhere hroom).same (sameValues_notify _ _)
    exact hstep
  | park _ _ _ => exact h.same (sameValues_park fun _ _ => hop.symm)

lemma Delivery.receivePass (hop : (s.ops t).value = none) (hs : ReceivePass s t deadline s') : Delivery cap s' := by
  cases hs with
  | @ok v rest hqueue =>
    have hstep : Delivery cap (((s.setQueue rest).returns t (.ok v)).roomMade) :=
      (h.deliver hqueue hop).same (sameValues_notify _ _)
    exact hstep
  | closed _ _ | timedOut _ => exact h.same (sameValues_returns rfl hop)
  | park _ _ => exact h.same (sameValues_park fun _ _ => hop.symm)

lemma Delivery.step (hl : Leaving s) (hs : Step s s') : Delivery cap s' := by
  cases hs with
  | same => exact h
  | tick | cancel => exact h.same ⟨rfl, rfl, rfl, rfl, rfl, rfl, rfl, rfl, rfl, rfl, fun _ => rfl⟩
  | claim _ _ | abandon _ _ => exact h.same (sameValues_lists s _ _ _)
  | send hop => exact h.begin hop
  | receive hop | selected hop => exact h.same (.setOp (by rw [hop]; rfl))
  | sendPass hin hpass =>
    obtain ⟨wait, hop⟩ := hin.op
    exact (h.same hin.sameValues).sendPass (by rw [hop]; rfl) hpass
  | receivePass hin hpass =>
    exact (h.same hin.sameValues).receivePass (by rw [hin.op]; rfl) hpass
  | sendCancelled hop _ =>
    exact (h.same (SendEntry.again hop).sameValues).same (.setOp (by simp [Op.value]))
  | receiveCancelled hop _ =>
    exact (h.same (ReceiveEntry.again hop).sameValues).same (sameValues_returns rfl (by simp [Op.value]))
  | leave hop => exact h.leave hop (hl _ _ _ hop)
  | close =>
    have hclosed : SameValues s { s with sendingClosed := true } :=
      ⟨rfl, rfl, rfl, rfl, rfl, rfl, rfl, rfl, rfl, rfl, fun _ => rfl⟩
    exact (h.same hclosed).same (sameValues_wakeEveryone _)
  | releaseSender =>
    have hclosed : SameValues s { s with sendingClosed := true, senderReleased := true } :=
      ⟨rfl, rfl, rfl, rfl, rfl, rfl, rfl, rfl, rfl, rfl, fun _ => rfl⟩
    exact (h.same hclosed).same (sameValues_wakeEveryone _)
  | releaseReceiver hhere => exact (h.drain hhere).same (sameValues_wakeEveryone _)
  | dropUndelivered => exact h.drop
  | select hop =>
    exact (h.same (sameValues_lists s _ _ _)).same (.setOp (by simp [hop, Op.value]))
  | watch hop _ _ | unwatch hop _ =>
    exact (h.same (sameValues_lists s _ _ _)).same (.setOp (by simp [hop, Op.value]))

end

lemma Leaving.updated (h : Leaving s) (hops : s'.ops = update s.ops t o) (ho : ∀ v x, o = .leaving v x → x ≠ .sent) :
    Leaving s' := by
  intro u v x hu
  rw [hops] at hu
  obtain rfl | hut := eq_or_ne u t
  · rw [update_self] at hu
    exact ho v x hu
  · rw [update_of_ne hut] at hu
    exact h u v x hu

lemma Leaving.sendEntry (h : Leaving s) (hin : SendEntry s t v r) : Leaving r := by
  cases hin with
  | first _ => exact h
  | again _ => exact h.updated rfl (by simp)

lemma Leaving.receiveEntry (h : Leaving s) (hin : ReceiveEntry s t deadline r) : Leaving r := by
  cases hin with
  | first _ => exact h
  | again _ => exact h.updated rfl (by simp)

lemma Leaving.step (h : Leaving s) (hs : Step s s') : Leaving s' := by
  cases hs with
  | same | tick | cancel | claim _ _ | close | releaseSender | releaseReceiver _ | dropUndelivered
  | abandon _ _ => exact h
  | send _ | receive _ | leave _ | select _ | watch _ _ _ | unwatch _ _ | selected _ =>
    exact h.updated rfl (by simp)
  | sendCancelled hop _ => exact (h.sendEntry (.again hop)).updated rfl (by simp)
  | receiveCancelled hop _ => exact (h.receiveEntry (.again hop)).updated rfl (by simp)
  | sendPass hin hpass => cases hpass <;> exact (h.sendEntry hin).updated rfl (by simp)
  | receivePass hin hpass => cases hpass <;> exact (h.receiveEntry hin).updated rfl (by simp)

/-! ## Closing -/

/-- Whether nothing can be sent any more. -/
def Shut (s : State) : Prop := s.sendingClosed = true ∨ s.receiverGone = true

lemma Shut.sendPass (h : Shut s) (hpass : SendPass s t v s') : Shut s' ∧ s'.sent = s.sent := by
  cases hpass with
  | closed _ | full _ | park _ _ _ => exact ⟨h, rfl⟩
  | sent hopen hhere _ =>
    rcases h with h | h
    · exact absurd (h.symm.trans hopen) (by simp)
    · exact absurd (h.symm.trans hhere) (by simp)

lemma Shut.receivePass (h : Shut s) (hpass : ReceivePass s t deadline s') : Shut s' ∧ s'.sent = s.sent := by
  cases hpass <;> exact ⟨h, rfl⟩

lemma Shut.step (h : Shut s) (hs : Step s s') : Shut s' ∧ s'.sent = s.sent := by
  cases hs with
  | close | releaseSender => exact ⟨.inl rfl, rfl⟩
  | releaseReceiver _ => exact ⟨.inr rfl, rfl⟩
  | @sendPass t v r _ hin hpass =>
    have hentry : Shut r ∧ r.sent = s.sent := by cases hin <;> exact ⟨h, rfl⟩
    obtain ⟨hshut, hsent⟩ := hentry.1.sendPass hpass
    exact ⟨hshut, hsent.trans hentry.2⟩
  | @receivePass t deadline r _ hin hpass =>
    have hentry : Shut r ∧ r.sent = s.sent := by cases hin <;> exact ⟨h, rfl⟩
    obtain ⟨hshut, hsent⟩ := hentry.1.receivePass hpass
    exact ⟨hshut, hsent.trans hentry.2⟩
  | _ => exact ⟨h, rfl⟩

lemma ClosedReports.returns (h : ClosedReports s) (hx : x ≠ .closed) : ClosedReports (s.returns t x) := by
  intro hmem
  rcases mem_append.mp hmem with hmem | hmem
  · exact h hmem
  · exact absurd (mem_singleton.mp hmem).symm hx

lemma ClosedReports.sendPass (h : ClosedReports s) (hs : SendPass s t v s') : ClosedReports s' := by
  cases hs with
  | closed _ | full _ | park _ _ _ => exact h
  | sent hopen _ _ =>
    -- nothing has been reported closed while sending is open
    intro hmem
    have hclosed := (h hmem).1
    rw [hopen] at hclosed
    cases hclosed

lemma ClosedReports.receivePass (h : ClosedReports s) (hs : ReceivePass s t deadline s') : ClosedReports s' := by
  cases hs with
  | @ok v rest hqueue =>
    have hpop : ClosedReports ((s.setQueue rest).roomMade) := by
      intro hmem
      have hnil := (h hmem).2
      rw [hqueue] at hnil
      cases hnil
    exact hpop.returns (by simp)
  | closed hqueue hclosed => exact fun _ => ⟨hclosed, hqueue⟩
  | timedOut _ => exact h.returns (by simp)
  | park _ _ => exact h

lemma ClosedReports.step (h : ClosedReports s) (hs : Step s s') : ClosedReports s' := by
  cases hs with
  | close | releaseSender =>
    intro hmem
    exact ⟨by simp [closeSending], by simpa [closeSending] using (h hmem).2⟩
  | releaseReceiver _ =>
    intro hmem
    exact ⟨by simpa [dropReceiver] using (h hmem).1, rfl⟩
  | sendPass hin hpass =>
    cases hin with
    | first _ => exact h.sendPass hpass
    | again _ => exact ClosedReports.sendPass (s := s.unpark _ _ _ _) h hpass
  | receivePass hin hpass =>
    cases hin with
    | first _ => exact h.receivePass hpass
    | again _ => exact ClosedReports.receivePass (s := s.unpark _ _ _ _) h hpass
  | receiveCancelled _ _ => exact ClosedReports.returns (s := s.unpark _ _ _ _) h (by simp)
  | _ => exact h

/-! ## Runs -/

lemma delivery_initial (cap : ℕ) : Delivery cap (initial cap) := by
  refine ⟨rfl, zero_le _, fun v => ⟨fun hv => absurd hv (not_lt_zero v), fun _ p => ?_⟩, rfl,
    .nil, fun _ => ⟨rfl, rfl⟩, by simp [initial], fun _ _ _ => rfl, fun _ _ => rfl,
    fun _ => by simp [initial], fun _ _ h => by simp [initial] at h⟩
  cases p <;> rfl

lemma values_of_reachable (h : Reachable (system cap) s) : Delivery cap s ∧ Leaving s ∧ ClosedReports s := by
  refine h.invariant (I := fun s => Delivery cap s ∧ Leaving s ∧ ClosedReports s) ?_ ?_
  · rintro s rfl
    exact ⟨delivery_initial cap, fun _ _ _ hop => by simp [initial] at hop, fun hmem => by simp [initial] at hmem⟩
  · rintro s l s' ⟨hd, hl, hc⟩ hstep
    have hs := step_cases hstep
    exact ⟨hd.step hl hs, hl.step hs, hc.step hs⟩

/-- Once a channel is closed at either end, the values sent are those sent by then. -/
theorem Shut.sent_eq (h : Shut s) (hs : Reachable ((system cap).startAt s) s') : s'.sent = s.sent := by
  have hrun : Shut s' ∧ s'.sent = s.sent := by
    refine hs.invariant (I := fun r => Shut r ∧ r.sent = s.sent) ?_ ?_
    · rintro r rfl
      exact ⟨h, rfl⟩
    · rintro r l r' ⟨hshut, hsent⟩ hstep
      obtain ⟨hshut', hsame⟩ := hshut.step (step_cases hstep)
      exact ⟨hshut', hsame.trans hsent⟩
  exact hrun.2

/-- **A channel neither loses, duplicates nor reorders values.** -/
theorem channel_values_kept (h : Transition.Reachable (system cap) s) :
    s.queue.length ≤ max cap 1 ∧
    -- a send is told its value was sent just when it was enqueued, and it was enqueued once
    (∀ v, s.results v = some .sent ↔ v ∈ s.sent) ∧ s.sent.Nodup ∧
    -- otherwise its value is released once, and neither enqueued nor delivered
    (∀ v x, s.results v = some x → x ≠ .sent → s.released.count v = 1 ∧ v ∉ s.sent ∧ v ∉ delivered s) ∧
    -- delivery is in the order of sending, and what is not delivered is queued, or was released with
    -- the receiver end
    delivered s ++ s.queue ++ s.drained = s.sent ∧
    (∀ v ∈ delivered s ++ s.queue, v ∉ s.released) ∧
    (∀ v ∈ s.drained, (s.undelivered ++ s.released).count v = 1) ∧
    (.closed ∈ s.received → s.sendingClosed = true ∧ s.queue = []) ∧
    (s.sendingClosed = true ∨ s.receiverGone = true →
      ∀ s', Transition.Reachable ((system cap).startAt s) s' → s'.sent = s.sent) := by
  obtain ⟨hd, -, hclosed⟩ := values_of_reachable h
  have hsent : ∀ v ∈ delivered s, v ∈ s.sent := by
    intro v hv
    rw [← hd.flow, append_assoc]
    exact mem_append_left _ hv
  refine ⟨hd.capacity ▸ hd.bounded, hd.sent, hd.nodup, fun v x hx hne => ?_, hd.flow, fun v hv => ?_,
    fun v hv => ?_, hclosed, fun hshut s' hs' => Shut.sent_eq hshut hs'⟩
  · obtain ⟨hmem, hnot⟩ := hd.failed v x hx hne
    exact ⟨hd.placed.count_eq_one (p := .released) hmem, hnot, fun hv => hnot (hsent v hv)⟩
  · rcases mem_append.mp hv with hv | hv
    · exact hd.placed.notMem_of_ne (p := .delivered) (q := .released) hv (by simp)
    · exact hd.placed.notMem_of_ne (p := .queue) (q := .released) hv (by simp)
  · rw [count_append]
    rcases hd.dropped v hv with hmem | hmem
    · have hone : s.undelivered.count v = 1 := hd.placed.count_eq_one (p := .undelivered) hmem
      have hnot : v ∉ s.released := hd.placed.notMem_of_ne (p := .undelivered) (q := .released) hmem (by simp)
      rw [hone, count_eq_zero.mpr hnot]
    · have hone : s.released.count v = 1 := hd.placed.count_eq_one (p := .released) hmem
      have hnot : v ∉ s.undelivered := hd.placed.notMem_of_ne (p := .released) (q := .undelivered) hmem (by simp)
      rw [hone, count_eq_zero.mpr hnot]

/-- On a channel of capacity 1 task 1 sends value 0; task 2 finds no room for value 1; task 3 waits, is woken
when task 4 has received value 0, and sends value 2; the receiver end goes away. -/
def exchange : List Label :=
  [.send 1 true, .enter 1, .send 2 false, .enter 2, .leave 2, .send 3 true, .enter 3, .receive 4 none,
    .enter 4, .relock 3 .ready, .releaseReceiver, .dropUndelivered]

/-- `exchange` sends two values, delivers one, and drops the refused one once. -/
theorem channel_values_kept_exchange : ∃ s, Transition.Reachable (system 1) s ∧ s.sent = [0, 2] ∧
    delivered s = [0] ∧ s.results 1 = some .full ∧ s.released.count 1 = 1 ∧ 1 ∉ s.sent ∧
    delivered s ++ s.queue ++ s.drained = s.sent := by
  have hrun : (run (system 1) (initial 1) exchange).isSome := by decide
  have hreach := Reachable.of_run (.start rfl) (some_get hrun).symm
  obtain ⟨-, -, -, hfailed, hflow, -⟩ := channel_values_kept hreach
  obtain ⟨hreleased, hnot, -⟩ := hfailed 1 .full rfl (by decide)
  exact ⟨_, hreach, rfl, rfl, rfl, hreleased, hnot, hflow⟩

end RocNet.Channel
