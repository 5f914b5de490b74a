import RocNet.Analysis.ChannelDelivery
import RocNet.Analysis.ChannelNotifications

/-!
# Selects that watch a channel

All `Select`s are woken at every change of the end they watch, so one that still sleeps found the end not ready, and
nothing has made it ready since (`Watching`).
-/

namespace RocNet.Channel

open Sched (TaskId WaitId Instant Woke)
open Function List Transition State

variable {s s' r : State} {t u : TaskId} {v : Value} {deadline : Option Instant} {o : Op}
  {e : End} {id : ℕ} {w : WaitId} {cap : ℕ}

/-! ## Watchers -/

/-- There is nothing to act on at an end, and the channel is open both ways. -/
def Quiet (s : State) (e : End) : Prop :=
  available s e = 0 ∧ s.sendingClosed = false ∧ s.receiverGone = false

/-- A `Select` that still waits has nothing to act on. -/
def Watching (s : State) : Prop :=
  ∀ e t id w, (s.ops t).Entry (.watchers e) id w → s.waits w = none → Quiet s e

lemma Watching.same (h : Watching s)
    (hentry : ∀ e t id w, (s'.ops t).Entry (.watchers e) id w → (s.ops t).Entry (.watchers e) id w)
    (hwaits : ∀ t w, (s.ops t).wait = some w → s'.waits w = none → s.waits w = none)
    (hquiet : ∀ e, Quiet s e → Quiet s' e) : Watching s' := by
  intro e t id w he hw
  have he := hentry e t id w he
  exact hquiet e (h e t id w he (hwaits t w he.wait hw))

lemma watcher_of_update (hops : s'.ops = update s.ops t o)
    (ho : ∀ e id w, ¬ o.Entry (.watchers e) id w) (e : End) (u : TaskId) (id : ℕ) (w : WaitId)
    (h : (s'.ops u).Entry (.watchers e) id w) : (s.ops u).Entry (.watchers e) id w := by
  rw [hops] at h
  obtain rfl | hu := eq_or_ne u t
  · rw [update_self] at h
    exact absurd h (ho e id w)
  · rwa [update_of_ne hu] at h

lemma Watching.setOp (h : Watching s) (hops : s'.ops = update s.ops t o) (ho : ∀ e id w, ¬ o.Entry (.watchers e) id w)
    (hwaits : s'.waits = s.waits) (hquiet : ∀ e, Quiet s e → Quiet s' e) : Watching s' :=
  h.same (watcher_of_update hops ho) (fun _ _ _ hw => by rwa [← hwaits]) hquiet

lemma Watching.park (h : Watching s) (hr : Registered s) {op : ℕ → WaitId → Op}
    (hop : ∀ i x e id w, ¬ (op i x).Entry (.watchers e) id w) : Watching (s.park t e op) := by
  refine h.same (watcher_of_update rfl (hop _ _)) (fun u w hw hnone => ?_) fun e hq => by cases e <;> exact hq
  rwa [park_waits, update_of_ne (Nat.ne_of_lt (hr.fresh u w hw))] at hnone

/-- One end is told, when nobody who watches the other still waits. -/
theorem Watching.notify (h : Watching s) (hr : Registered s) (hops : s'.ops = update s.ops t o)
    (ho : ∀ e id w, ¬ o.Entry (.watchers e) id w) (hlists : r.lists = s.lists) (hrwaits : r.waits = s.waits)
    (hwaits : s'.waits = (r.notify e).waits) (hother : ∀ f ≠ e, ¬ Quiet s f) : Watching s' := by
  intro f u id w hentry hw
  have hentry := watcher_of_update hops ho f u id w hentry
  rw [hwaits] at hw
  have hopen := (wakes_notify r e).none hw
  rw [hrwaits] at hopen
  obtain rfl | hf := eq_or_ne f e
  · have hlisted := hr.listed _ u id w hentry hopen
    rw [← hlists] at hlisted
    exact absurd hw (notify_watchers_ne_none ⟨id, hlisted⟩)
  · exact absurd (h f u id w hentry hopen) (hother f hf)

lemma Watching.wakeEveryone (hr : Registered s) : Watching s.wakeEveryone := by
  intro e t id w hentry hw
  have hlisted := hr.listed _ t id w hentry ((wakes_wakeEveryone s).none hw)
  exact absurd hw (wakeEveryone_ne_none ⟨id, hlisted⟩)

lemma Watching.sendPass (h : Watching s) (hr : Registered s) (hs : SendPass s t v s') : Watching s' := by
  cases hs with
  | closed _ | full _ =>
    exact h.setOp rfl (fun _ _ _ hx => hx) rfl fun e hq => by cases e <;> exact hq
  | sent _ _ hroom =>
    refine h.notify (r := s.enqueue v) (e := .receiver) hr rfl (fun _ _ _ hx => hx) rfl rfl rfl fun f hf hq => ?_
    cases f with
    | receiver => exact hf rfl
    | sender => exact absurd hq.1 (Nat.sub_ne_zero_of_lt hroom)
  | park _ _ _ => exact h.park hr fun _ _ _ _ _ hx => hx

lemma Watching.receivePass (h : Watching s) (hr : Registered s) (hs : ReceivePass s t deadline s') : Watching s' := by
  cases hs with
  | closed _ _ | timedOut _ =>
    exact h.setOp rfl (fun _ _ _ hx => hx) rfl fun e hq => by cases e <;> exact hq
  | @ok v rest hqueue =>
    refine h.notify (r := s.setQueue rest) (e := .sender) hr rfl (fun _ _ _ hx => hx) rfl rfl rfl fun f hf hq => ?_
    cases f with
    | sender => exact hf rfl
    | receiver =>
      have hlen := hq.1
      simp only [available, hqueue] at hlen
      cases hlen
  | park _ _ => exact h.park hr fun _ _ _ _ _ hx => hx

lemma Watching.sendEntry (h : Watching s) (hin : SendEntry s t v r) : Watching r := by
  cases hin with
  | first _ => exact h
  | again _ => exact h.setOp rfl (fun _ _ _ hx => hx) rfl fun e hq => by cases e <;> exact hq

lemma Watching.receiveEntry (h : Watching s) (hin : ReceiveEntry s t deadline r) : Watching r := by
  cases hin with
  | first _ => exact h
  | again _ => exact h.setOp rfl (fun _ _ _ hx => hx) rfl fun e hq => by cases e <;> exact hq

lemma quiet_of_ready (hready : ready s e = false) (hhere : s.gone e = false) : Quiet s e := by
  cases e with
  | receiver =>
    simp only [ready, Bool.or_eq_false_iff, Bool.not_eq_false', List.isEmpty_iff] at hready
    exact ⟨by simp [available, hready.1], hready.2, hhere⟩
  | sender =>
    simp only [ready, Bool.or_eq_false_iff, decide_eq_false_iff_not, not_lt] at hready
    exact ⟨Nat.sub_eq_zero_of_le hready.1.1, hready.1.2, hready.2⟩

lemma Watching.watch (h : Watching s) (hop : s.ops t = .select w ws) (hquiet : Quiet s e) :
    Watching ((s.setList (.watchers e) ((s.lists (.watchers e)).addWaker w)).setOp t
      (.select w ((e, (s.lists (.watchers e)).nextId) :: ws))) := by
  have hsame : ∀ {f}, Quiet s f → Quiet ((s.setList (.watchers e)
      ((s.lists (.watchers e)).addWaker w)).setOp t
      (.select w ((e, (s.lists (.watchers e)).nextId) :: ws))) f := fun {f} hq => by cases f <;> exact hq
  intro f u i x hentry hx
  obtain rfl | hu := eq_or_ne u t
  · simp only [setOp_ops, update_self, Op.entry_select, WaitList.watchers.injEq] at hentry
    obtain ⟨f', rfl, hmem, rfl⟩ := hentry
    rcases mem_cons.mp hmem with heq | hmem
    · cases heq
      exact hsame hquiet
    · refine hsame (h f u i x ?_ hx)
      rw [hop, Op.entry_select]
      exact ⟨f, rfl, hmem, rfl⟩
  · simp only [setOp_ops, ne_eq, hu, not_false_eq_true, update_of_ne, setList_ops] at hentry
    exact hsame (h f u i x hentry hx)

lemma Watching.step (h : Watching s) (hr : Registered s) (hs : Step s s') : Watching s' := by
  cases hs with
  | same => exact h
  | tick | cancel | dropUndelivered =>
    exact h.same (fun _ _ _ _ he => he) (fun _ _ _ hw => hw) fun e hq => by cases e <;> exact hq
  | @claim t w x _ _ =>
    refine h.same (fun _ _ _ _ he => he) (fun u y _ hy => ?_) fun e hq => by cases e <;> exact hq
    by_contra hended
    rw [setWaits_waits, Waits.wake_apply, if_neg fun hand => hended hand.2] at hy
    exact hended hy
  | send _ | receive _ | leave _ | selected _ =>
    exact h.setOp rfl (fun _ _ _ hx => hx) rfl fun e hq => by cases e <;> exact hq
  | sendPass hin hpass => exact (h.sendEntry hin).sendPass (hr.sendEntry hin) hpass
  | receivePass hin hpass => exact (h.receiveEntry hin).receivePass (hr.receiveEntry hin) hpass
  | sendCancelled hop _ =>
    exact (h.sendEntry (.again hop)).setOp rfl (fun _ _ _ hx => hx) rfl fun e hq => by cases e <;> exact hq
  | receiveCancelled hop _ =>
    exact (h.receiveEntry (.again hop)).setOp rfl (fun _ _ _ hx => hx) rfl fun e hq => by cases e <;> exact hq
  | close | releaseSender =>
    have hr' : Registered { s with sendingClosed := true } := hr.of_eq rfl rfl rfl rfl
    exact (Watching.wakeEveryone hr').same (fun _ _ _ _ he => he) (fun _ _ _ hw => hw) fun e hq => by
      cases e <;> exact hq
  | releaseReceiver _ =>
    have hr' : Registered { s with receiverGone := true } := hr.of_eq rfl rfl rfl rfl
    intro e t id w hentry hw
    exact absurd (Watching.wakeEveryone hr' e t id w hentry hw).2.2 (by simp)
  | @select t hop =>
    refine h.same (watcher_of_update rfl fun e id w hx => ?_) (fun u w hw hnone => ?_) fun e hq => by
      cases e <;> exact hq
    · cases hx.1
    · rwa [setOp_waits, beginWait_waits, update_of_ne (Nat.ne_of_lt (hr.fresh u w hw))] at hnone
  | watch hop hhere hready => exact h.watch hop (quiet_of_ready hready hhere)
  | @abandon t w ws hop hwait =>
    refine h.same (fun _ _ _ _ he => he) (fun u y _ hy => ?_) fun e hq => by cases e <;> exact hq
    by_cases hyw : y = w
    · rw [hyw]
      exact hwait
    · rwa [setWaits_waits, update_of_ne hyw] at hy
  | @unwatch t w ws e id hop hmem =>
    refine h.same (fun f u i x hentry => ?_) (fun _ _ _ hw => hw) fun e hq => by cases e <;> exact hq
    obtain rfl | hu := eq_or_ne u t
    · simp only [setOp_ops, update_self, Op.entry_select] at hentry
      obtain ⟨f', hf, hws, rfl⟩ := hentry
      rw [hop, Op.entry_select]
      exact ⟨f', hf, mem_of_mem_erase hws, rfl⟩
    · simpa [hu] using hentry

/-! ## Runs -/

structure Notified (s : State) : Prop where
  registered : Registered s
  occupied : Occupied s
  spent : ∀ e, Spent s e 0
  watching : Watching s

lemma notified_initial (cap : ℕ) : Notified (initial cap) := by
  have hno : ∀ {t l id w}, ¬ ((initial cap).ops t).Entry l id w := Op.Entry.not_of_wait rfl
  refine ⟨⟨?_, ?_, fun l t id w he => absurd he hno, fun l t u id w x he => absurd he hno,
    fun l t id w he => absurd he hno, ?_, ?_⟩, ⟨∅, by simp [initial]⟩, fun e => ?_,
    fun e t id w he => absurd he hno⟩
  · intro t w hw
    cases hw
  · intro t u w hw
    cases hw
  · intro l id w hmem
    cases hmem
  · intro t w ws hop
    cases hop
  · refine .of_none ⟨0, Tally.zero ?_⟩ ?_
    · rintro t ⟨id, w, he, -⟩
      exact hno he
    · rintro t ⟨id, w, he, -⟩
      exact hno he

lemma notified_of_reachable (h : Reachable (system cap) s) : Notified s := by
  refine h.invariant ?_ ?_
  · rintro s rfl
    exact notified_initial cap
  · intro s l s' hn hstep
    have hs := step_cases hstep
    exact ⟨hn.registered.step hs, hn.occupied.step hs,
      spent_step hn.spent hn.registered hn.occupied hs, hn.watching.step hn.registered hs⟩

/-- **A notification is never spent on a task that cannot act on it.** -/
theorem channel_notifications_kept (h : Transition.Reachable (system cap) s) :
    -- while a receiver sleeps, there are no more values than receivers on their way
    (∀ t, Unclaimed s .receiver t → s.sendingClosed = false ∧ ∃ n, Tally (Woken s .receiver) n ∧ s.queue.length ≤ n) ∧
    -- while a sender sleeps, there is no more room than senders on their way
    (∀ t, Unclaimed s .sender t → s.sendingClosed = false ∧ s.receiverGone = false ∧
      ∃ n, Tally (Woken s .sender) n ∧ s.capacity - s.queue.length ≤ n) ∧
    -- a `Select` that sleeps has nothing to act on
    (∀ t id w, (s.ops t).Entry (.watchers .receiver) id w → s.waits w = none →
      s.queue = [] ∧ s.sendingClosed = false ∧ s.receiverGone = false) ∧
    ∀ t id w, (s.ops t).Entry (.watchers .sender) id w → s.waits w = none →
      s.queue.length = s.capacity ∧ s.sendingClosed = false ∧ s.receiverGone = false := by
  have hn := notified_of_reachable h
  refine ⟨fun t ht => ?_, fun t ht => ?_, fun t id w hentry hw => ?_, fun t id w hentry hw => ?_⟩
  · obtain ⟨n, hcount, hbound⟩ := hn.spent .receiver
    obtain ⟨hopen, hle⟩ := hbound ⟨t, ht⟩
    exact ⟨hopen, n, hcount, hle⟩
  · obtain ⟨n, hcount, hbound⟩ := hn.spent .sender
    obtain ⟨⟨hopen, hhere⟩, hle⟩ := hbound ⟨t, ht⟩
    exact ⟨hopen, hhere, n, hcount, hle⟩
  · obtain ⟨hnone, hopen⟩ := hn.watching .receiver t id w hentry hw
    exact ⟨length_eq_zero_iff.mp hnone, hopen⟩
  · obtain ⟨hnone, hopen⟩ := hn.watching .sender t id w hentry hw
    have hbounded := (values_of_reachable h).1.bounded
    exact ⟨le_antisymm hbounded (Nat.le_of_sub_eq_zero hnone), hopen⟩

/-- Tasks 1, 2 and 3 wait to receive, and task 1 is cancelled. Task 4 sends: the notification passes
over task 1, which has not left the list yet, and goes to task 2. -/
def passedOver : List Label :=
  [.receive 1 none, .enter 1, .receive 2 none, .enter 2, .receive 3 none, .enter 3, .cancel 1,
    .claim 1 .cancelled, .send 4 true, .enter 4]

/-- After `passedOver` a receiver sleeps with a value queued, and a woken one will take it. -/
theorem channel_notifications_kept_passedOver : ∃ s, Transition.Reachable (system 2) s ∧
    Unclaimed s .receiver 3 ∧ s.queue.length = 1 ∧ ∃ n, Tally (Woken s .receiver) n ∧ 1 ≤ n := by
  have hrun : (run (system 2) (initial 2) passedOver).isSome := by decide
  have hreach := Reachable.of_run (.start rfl) (Option.some_get hrun).symm
  have hsleeps : Unclaimed ((run (system 2) (initial 2) passedOver).get hrun) .receiver 3 := ⟨3, 3, ⟨rfl, rfl⟩, rfl⟩
  obtain ⟨n, hcount, hle⟩ := ((channel_notifications_kept hreach).1 3 hsleeps).2
  exact ⟨_, hreach, hsleeps, rfl, n, hcount, hle⟩

end RocNet.Channel
