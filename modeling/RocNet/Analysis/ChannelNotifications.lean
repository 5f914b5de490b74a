import RocNet.Analysis.ChannelWaiting
import RocNet.Library.Tally

/-!
# A channel's notifications reach tasks that act on them

Plain waiters are woken one at a time, one for each value or slot. While a receiver sleeps, there are no more values
queued than receivers woken and on their way to the mutex; senders and free slots are alike (`Spent`).
-/

namespace RocNet.Channel

open Sched (TaskId WaitId Instant Woke)
open Function List State Nat

variable {s s' r : State} {t u : TaskId} {v : Value} {deadline : Option Instant} {o : Op}
  {l : WaitList} {e f : End} {id : ℕ} {w x : WaitId} {j k : ℕ}

/-! ## The count -/

/-- How many tasks at an end could go on: one for each value, or for each free slot. -/
def available (s : State) : End → ℕ
  | .receiver => s.queue.length
  | .sender => s.capacity - s.queue.length

def OpenFor (s : State) : End → Prop
  | .receiver => s.sendingClosed = false
  | .sender => s.sendingClosed = false ∧ s.receiverGone = false

/-- A task is parked at an end, and nobody has claimed its wait. -/
def Unclaimed (s : State) (e : End) (t : TaskId) : Prop :=
  ∃ id w, (s.ops t).Entry (.waiters e) id w ∧ s.waits w = none

/-- A task was parked at an end, has been woken with Ready, and has not taken the mutex again. -/
def Woken (s : State) (e : End) (t : TaskId) : Prop :=
  ∃ id w, (s.ops t).Entry (.waiters e) id w ∧ s.waits w = some (.claimed .ready)

/-- While a task sleeps at an end, no more could go on than have been told, but for `k`. -/
def Spent (s : State) (e : End) (k : ℕ) : Prop :=
  ∃ n, Tally (Woken s e) n ∧ ((∃ t, Unclaimed s e t) → OpenFor s e ∧ available s e ≤ n + k)

/-- If no more than `k` are due before, no more than `j` are after. -/
def Bounds (k j : ℕ) (s s' : State) (e : End) : Prop :=
  ∀ n, OpenFor s e ∧ available s e ≤ n + k → OpenFor s' e ∧ available s' e ≤ n + j

/-- Who could go on depends on the queue and on whether the channel is open. -/
theorem Bounds.refl (hqueue : s'.queue = s.queue) (hcapacity : s'.capacity = s.capacity)
    (hclosed : s'.sendingClosed = s.sendingClosed) (hgone : s'.receiverGone = s.receiverGone) : Bounds k k s s' e := by
  cases e <;> simp [Bounds, OpenFor, available, *]

lemma Spent.of (h : Spent s e k) (hwoken : ∀ t, Woken s' e t ↔ Woken s e t)
    (hunclaimed : ∀ t, Unclaimed s' e t → Unclaimed s e t) (hbound : Bounds k j s s' e) : Spent s' e j := by
  obtain ⟨n, hn, hspent⟩ := h
  exact ⟨n, hn.congr hwoken, fun ⟨t, ht⟩ => hbound n (hspent ⟨t, hunclaimed t ht⟩)⟩

lemma Spent.mono (h : Spent s e k) (hk : k ≤ j) : Spent s e j :=
  h.of (fun _ => Iff.rfl) (fun _ => id) fun n hn => ⟨hn.1, le_trans hn.2 (Nat.add_le_add_left hk n)⟩

/-- With nothing to act on, or nobody asleep, nothing is due. -/
theorem Spent.settle (h : Spent s e k) (hnone : (∃ t, Unclaimed s e t) → available s e = 0) : Spent s e 0 := by
  obtain ⟨n, hn, hbound⟩ := h
  exact ⟨n, hn, fun hu => ⟨(hbound hu).1, by rw [hnone hu]; exact zero_le _⟩⟩

/-! ## Waking -/

lemma Registered.not_has (h : Registered s) (hentry : (s.ops t).Entry (.waiters e) id w)
    (hl : l ≠ .waiters e) : ¬ (s.lists l).Has w := by
  rintro ⟨i, hmem⟩
  obtain ⟨u, hu⟩ := h.entry l i w hmem
  cases h.sole u t w hu.wait hentry.wait
  exact hl (hentry.plain hu).1

lemma Registered.notify_waits_other (h : Registered s) (hentry : (s.ops t).Entry (.waiters f) id w)
    (hf : f ≠ e) : (s.notify e).waits w = s.waits w := by
  refine (wakes_notify s e).eq_of_not ?_
  rintro (hhas | hhas)
  · exact h.not_has hentry (by simpa using hf.symm) hhas
  · exact h.not_has hentry (by simp) hhas

lemma Spent.notify_other (h : Spent s f k) (hr : Registered s) (hf : f ≠ e) : Spent (s.notify e) f k := by
  refine h.of (fun t => ?_) (fun t => ?_) (.refl rfl rfl rfl rfl)
  · refine exists_congr fun id => exists_congr fun w => and_congr_right fun hentry => ?_
    rw [hr.notify_waits_other hentry hf]
  · rintro ⟨id, w, hentry, hw⟩
    exact ⟨id, w, hentry, (wakes_notify s e).none hw⟩

/-- **Telling an end settles one.** Either nobody sleeps there, or one that did is counted now. -/
theorem Spent.notify (h : Spent s e 1) (hr : Registered s) : Spent (s.notify e) e 0 := by
  obtain ⟨n, hn, hbound⟩ := h
  have hunclaimed : ∀ t, Unclaimed (s.notify e) e t → Unclaimed s e t := by
    rintro t ⟨id, w, hentry, hw⟩
    exact ⟨id, w, hentry, (wakes_notify s e).none hw⟩
  have hplain : ∀ {t id w}, (s.ops t).Entry (.waiters e) id w →
      (s.notify e).waits w = ((s.lists (.waiters e)).wakeOne s.waits).2 w := fun hentry =>
    (Waiters.wakes_wakeAll _ _).eq_of_not (hr.not_has hentry (by simp))
  rcases (s.lists (.waiters e)).wakeOne_cases s.waits with ⟨hall, -, heq⟩ | ⟨a, ha, hopen, heq, -⟩
  · refine ⟨n, hn.congr fun t => ?_, fun ⟨t, ht⟩ => ?_⟩
    · refine exists_congr fun id => exists_congr fun w => and_congr_right fun hentry => ?_
      rw [hplain hentry, heq]
    · obtain ⟨id, w, hentry, hw⟩ := hunclaimed t ht
      exact absurd hw (hall (id, w) (hr.listed _ t id w hentry hw))
  · obtain ⟨t₀, ht₀⟩ := hr.entry _ a.1 a.2 ha
    refine ⟨n + 1, hn.insert (a := t₀) ?_ ?_ fun t ht => ?_, fun ⟨t, ht⟩ => ?_⟩
    · rintro ⟨id, w, hentry, hw⟩
      obtain ⟨-, -, rfl⟩ := ht₀.plain hentry
      rw [hopen] at hw
      cases hw
    · refine ⟨a.1, a.2, ht₀, ?_⟩
      rw [hplain ht₀, heq, Waits.wake_apply, if_pos ⟨rfl, hopen⟩]
    · refine exists_congr fun id => exists_congr fun w => and_congr_right fun hentry => ?_
      have hne : w ≠ a.2 := fun hw => ht (hr.sole t t₀ w hentry.wait (hw ▸ ht₀.wait))
      rw [hplain hentry, heq, Waits.wake_apply, if_neg fun hand => hne hand.1]
    · exact Bounds.refl (k := 0) rfl rfl rfl rfl (n + 1) (hbound ⟨t, hunclaimed t ht⟩)

/-! ## Parking and going on -/

lemma entry_update (hops : s'.ops = update s.ops t o) (ht : ∀ id w, o.Entry l id w ↔ (s.ops t).Entry l id w)
    (u : TaskId) (id : ℕ) (w : WaitId) : (s'.ops u).Entry l id w ↔ (s.ops u).Entry l id w := by
  rw [hops]
  obtain rfl | hu := eq_or_ne u t
  · rw [update_self]
    exact ht id w
  · rw [update_of_ne hu]

lemma Spent.same (h : Spent s e k)
    (hentry : ∀ t id w, (s'.ops t).Entry (.waiters e) id w ↔ (s.ops t).Entry (.waiters e) id w)
    (hwaits : ∀ t id w, (s.ops t).Entry (.waiters e) id w → s'.waits w = s.waits w) (hbound : Bounds k j s s' e) :
    Spent s' e j := by
  refine h.of (fun t => ?_) (fun t => ?_) hbound
  · refine exists_congr fun id => exists_congr fun w => ?_
    rw [hentry t id w]
    exact and_congr_right fun he => by rw [hwaits t id w he]
  · rintro ⟨id, w, he, hw⟩
    have he := (hentry t id w).mp he
    exact ⟨id, w, he, hwaits t id w he ▸ hw⟩

/-- A task takes the mutex again: if it had been told, one that could go on is no longer counted. -/
theorem Spent.unpark (h : Spent s e 0) (hentry : (s.ops t).Entry (.waiters e) id w) (ho : o.wait = none)
    (hk : s.waits w = some (.claimed .ready) → 1 ≤ k) : Spent (s.unpark t e id o) e k := by
  obtain ⟨n, hn, hbound⟩ := h
  have hself : ∀ i x, ¬ ((s.unpark t e id o).ops t).Entry (.waiters e) i x := by
    intro i x
    rw [unpark_ops, update_self]
    exact Op.Entry.not_of_wait ho
  have hother : ∀ u ≠ t, (s.unpark t e id o).ops u = s.ops u := by
    intro u hu
    simp [hu]
  have hwoken : ∀ u ≠ t, (Woken (s.unpark t e id o) e u ↔ Woken s e u) := by
    intro u hu
    unfold Woken
    rw [hother u hu]
    rfl
  have hunclaimed : ∀ u, Unclaimed (s.unpark t e id o) e u → Unclaimed s e u := by
    rintro u ⟨i, x, hu, hx⟩
    have hut : u ≠ t := fun heq => hself i x (heq ▸ hu)
    rw [hother u hut] at hu
    exact ⟨i, x, hu, hx⟩
  have hsame : Bounds 0 0 s (s.unpark t e id o) e := .refl rfl rfl rfl rfl
  by_cases hready : s.waits w = some (.claimed .ready)
  · have hnot : ¬ Woken (s.unpark t e id o) e t := fun ⟨i, x, hx, _⟩ => hself i x hx
    refine ⟨n - 1, hn.erase ⟨id, w, hentry, hready⟩ hnot hwoken, fun ⟨u, hu⟩ => ?_⟩
    obtain ⟨hopen, hle⟩ := hsame n (hbound ⟨u, hunclaimed u hu⟩)
    have hone := hk hready
    exact ⟨hopen, by omega⟩
  · have hnot : ¬ Woken s e t := by
      rintro ⟨i, x, hx, hw⟩
      obtain ⟨-, -, rfl⟩ := hentry.plain hx
      exact hready hw
    refine ⟨n, hn.congr fun u => ?_, fun ⟨u, hu⟩ => ?_⟩
    · obtain rfl | hu := eq_or_ne u t
      · exact ⟨fun ⟨i, x, hx, _⟩ => absurd hx (hself i x), fun hw => absurd hw hnot⟩
      · exact hwoken u hu
    · obtain ⟨hopen, hle⟩ := hsame n (hbound ⟨u, hunclaimed u hu⟩)
      exact ⟨hopen, by omega⟩

lemma Spent.unpark_other (h : Spent s f k) (hentry : (s.ops t).Entry (.waiters e) id w)
    (ho : o.wait = none) (hf : f ≠ e) : Spent (s.unpark t e id o) f k := by
  refine h.same (entry_update rfl fun i x => ?_) (fun _ _ _ _ => rfl) (.refl rfl rfl rfl rfl)
  refine iff_of_false (Op.Entry.not_of_wait ho) fun hx => hf ?_
  simpa using (hentry.plain hx).1

lemma Spent.park (h : Spent s e k) (hr : Registered s) {op : ℕ → WaitId → Op}
    (hold : ∀ id w, ¬ (s.ops t).Entry (.waiters e) id w) (hop : ∀ id w i x, (op id w).Entry (.waiters e) i x → x = w)
    (hopen : OpenFor s e) (havailable : available s e = 0) : Spent (s.park t e op) e 0 := by
  obtain ⟨n, hn, -⟩ := h
  refine ⟨n, hn.congr fun u => ?_, fun _ => ?_⟩
  · obtain rfl | hu := eq_or_ne u t
    · refine iff_of_false ?_ fun ⟨i, x, hx, _⟩ => hold i x hx
      rintro ⟨i, x, hx, hw⟩
      -- the new wait is unclaimed, or claimed by the task's own cancellation
      rw [park_ops, update_self] at hx
      cases hop _ _ _ _ hx
      simp only [park_waits, update_self] at hw
      split at hw <;> simp at hw
    · refine exists_congr fun i => exists_congr fun x => ?_
      rw [park_ops, update_of_ne hu]
      refine and_congr_right fun hx => ?_
      rw [park_waits, update_of_ne (Nat.ne_of_lt (hr.fresh u x hx.wait))]
  · exact Bounds.refl (s := s) (k := 0) rfl rfl rfl rfl n ⟨hopen, by omega⟩

lemma Spent.park_other (h : Spent s f k) (hr : Registered s) {op : ℕ → WaitId → Op}
    (hold : ∀ id w, ¬ (s.ops t).Entry (.waiters f) id w)
    (hop : ∀ id w i x, ¬ (op id w).Entry (.waiters f) i x) : Spent (s.park t e op) f k := by
  refine h.same (entry_update rfl fun i x => iff_of_false (hop _ _ i x) (hold i x))
    (fun u i x hx => ?_) (.refl rfl rfl rfl rfl)
  rw [park_waits, update_of_ne (Nat.ne_of_lt (hr.fresh u x hx.wait))]

/-! ## The two loops -/

lemma Spent.setOp (h : Spent s e k) (hold : ∀ id w, ¬ (s.ops t).Entry (.waiters e) id w) (ho : o.wait = none)
    (hops : s'.ops = update s.ops t o) (hwaits : s'.waits = s.waits) (hbound : Bounds k k s s' e) : Spent s' e k :=
  h.same (entry_update hops fun _ _ => iff_of_false (Op.Entry.not_of_wait ho) (hold _ _))
    (fun _ _ _ _ => by rw [hwaits]) hbound

lemma spent_sendPass (hr : Registered s) (hop : ∃ wait, s.ops t = .send v wait) (hs : SendPass s t v s')
    (hsend : Spent s .sender 1) (hrecv : Spent s .receiver 0) (e : End) : Spent s' e 0 := by
  have hold : ∀ e id w, ¬ (s.ops t).Entry (.waiters e) id w := by
    obtain ⟨wait, hop⟩ := hop
    rw [hop]
    exact fun e id w => Op.Entry.not_of_wait rfl
  have hset : ∀ {x : SendResult}, Spent s .sender 0 → Spent (s.setOp t (.leaving v x)) e 0 := by
    intro x hsend
    cases e with
    | sender => exact hsend.setOp (hold _) rfl rfl rfl (.refl rfl rfl rfl rfl)
    | receiver => exact hrecv.setOp (hold _) rfl rfl rfl (.refl rfl rfl rfl rfl)
  cases hs with
  | closed hclosed =>
    refine hset (hsend.settle fun hu => ?_)
    obtain ⟨n, -, hbound⟩ := hsend
    obtain ⟨hopen, hhere⟩ := (hbound hu).1
    rw [hopen, hhere] at hclosed
    simp at hclosed
  | full hfull => exact hset (hsend.settle fun _ => Nat.sub_eq_zero_of_le hfull)
  | sent hopen hhere hroom =>
    have hr' : Registered (s.enqueue v) := hr.of_eq rfl rfl rfl rfl
    have hdone : Spent ((s.enqueue v).notify .receiver) e 0 := by
      cases e with
      | sender =>
        have htaken : Spent (s.enqueue v) .sender 0 := by
          refine hsend.of (fun _ => Iff.rfl) (fun _ => id) fun n hn => ⟨hn.1, ?_⟩
          have hle := hn.2
          simp only [available, enqueue_capacity, enqueue_queue, length_append, length_singleton] at hle ⊢
          omega
        exact htaken.notify_other hr' (by simp)
      | receiver =>
        have hadded : Spent (s.enqueue v) .receiver 1 :=
          hrecv.of (fun _ => Iff.rfl) (fun _ => id) fun n hn => ⟨hn.1, by simpa [available] using hn.2⟩
        exact Spent.notify hadded hr'
    exact hdone.setOp (hold e) rfl rfl rfl (.refl rfl rfl rfl rfl)
  | park hopen hhere hfull =>
    cases e with
    | sender =>
      exact hsend.park hr (hold _) (fun _ _ _ _ hx => hx.2) ⟨hopen, hhere⟩ (Nat.sub_eq_zero_of_le hfull)
    | receiver => exact hrecv.park_other hr (hold _) fun _ _ _ _ hx => hx

lemma spent_receivePass (hr : Registered s) (hop : s.ops t = .receive deadline) (hs : ReceivePass s t deadline s')
    (hrecv : Spent s .receiver 1) (hsend : Spent s .sender 0) (e : End) : Spent s' e 0 := by
  have hold : ∀ e id w, ¬ (s.ops t).Entry (.waiters e) id w := by
    rw [hop]
    exact fun e id w => Op.Entry.not_of_wait rfl
  have hreturns : ∀ {x : ReceiveResult}, s.queue = [] → Spent (s.returns t x) e 0 := by
    intro x hqueue
    cases e with
    | sender => exact hsend.setOp (hold _) rfl rfl rfl (.refl rfl rfl rfl rfl)
    | receiver =>
      have hnone : Spent s .receiver 0 := hrecv.settle fun _ => by simp [available, hqueue]
      exact hnone.setOp (hold _) rfl rfl rfl (.refl rfl rfl rfl rfl)
  cases hs with
  | @ok v rest hqueue =>
    have hr' : Registered (s.setQueue rest) := hr.of_eq rfl rfl rfl rfl
    have hdone : Spent ((s.setQueue rest).notify .sender) e 0 := by
      cases e with
      | receiver =>
        have htaken : Spent (s.setQueue rest) .receiver 0 := by
          refine hrecv.of (fun _ => Iff.rfl) (fun _ => id) fun n hn => ⟨hn.1, ?_⟩
          simpa [available, hqueue] using hn.2
        exact htaken.notify_other hr' (by simp)
      | sender =>
        have hadded : Spent (s.setQueue rest) .sender 1 := by
          refine hsend.of (fun _ => Iff.rfl) (fun _ => id) fun n hn => ⟨hn.1, ?_⟩
          have hle := hn.2
          simp only [available, setQueue_capacity, setQueue_queue, hqueue, length_cons] at hle ⊢
          omega
        exact Spent.notify hadded hr'
    exact hdone.setOp (hold e) rfl rfl rfl (.refl rfl rfl rfl rfl)
  | closed hqueue _ | timedOut hqueue => exact hreturns hqueue
  | park hqueue hopen =>
    cases e with
    | receiver =>
      exact hrecv.park hr (hold _) (fun _ _ _ _ hx => hx.2) hopen (by simp [available, hqueue])
    | sender => exact hsend.park_other hr (hold _) fun _ _ _ _ hx => hx

/-! ## Every step -/

/-- Finitely many tasks are in an operation. -/
def Occupied (s : State) : Prop := ∃ F : Finset TaskId, ∀ t, s.ops t ≠ .none → t ∈ F

lemma Occupied.step (h : Occupied s) (hs : Step s s') : Occupied s' := by
  classical
  obtain ⟨F, hF⟩ := h
  obtain ⟨t, o, hops⟩ := hs.ops_eq
  refine ⟨insert t F, fun u hu => ?_⟩
  by_cases hut : u = t
  · rw [hut]
    exact Finset.mem_insert_self t F
  · rw [hops, update_of_ne hut] at hu
    exact Finset.mem_insert_of_mem (hF u hu)

lemma Spent.of_none (hn : ∃ n, Tally (Woken s e) n) (hu : ∀ t, ¬ Unclaimed s e t) : Spent s e 0 := by
  obtain ⟨n, hn⟩ := hn
  exact ⟨n, hn, fun ⟨t, ht⟩ => absurd ht (hu t)⟩

lemma wakeEveryone_settles (hr : Registered s) (ho : Occupied s) (e : End) :
    (∃ n, Tally (Woken s.wakeEveryone e) n) ∧ ∀ t, ¬ Unclaimed s.wakeEveryone e t := by
  obtain ⟨F, hF⟩ := ho
  constructor
  · refine Tally.exists_of_finset (F := F) fun t ⟨id, w, hentry, _⟩ => hF t fun hop => ?_
    rw [wakeEveryone_ops, hop] at hentry
    exact Op.Entry.not_of_wait rfl hentry
  · rintro t ⟨id, w, hentry, hw⟩
    have hlisted := hr.listed _ t id w hentry ((wakes_wakeEveryone s).none hw)
    exact wakeEveryone_ne_none ⟨id, hlisted⟩ hw

lemma Spent.setWaits (h : Spent s e k) {y : Waits} (hy : ∀ t id w, (s.ops t).Entry (.waiters e) id w →
      y w = s.waits w ∨ s.waits w = none ∧ y w ≠ none ∧ y w ≠ some (.claimed .ready)) : Spent (s.setWaits y) e k := by
  refine h.of (fun t => ?_) (fun t => ?_) (.refl rfl rfl rfl rfl)
  · refine exists_congr fun id => exists_congr fun w => and_congr_right fun hentry => ?_
    rcases hy t id w hentry with heq | ⟨hnone, -, hready⟩
    · rw [setWaits_waits, heq]
    · exact iff_of_false hready (by rw [hnone]; simp)
  · rintro ⟨id, w, hentry, hw⟩
    refine ⟨id, w, hentry, ?_⟩
    rcases hy t id w hentry with heq | ⟨hnone, -, -⟩
    · exact heq ▸ hw
    · exact hnone

lemma spent_step (h : ∀ e, Spent s e 0) (hr : Registered s) (ho : Occupied s) (hs : Step s s')
    (e : End) : Spent s' e 0 := by
  have hidle : ∀ {u : TaskId} {l id w}, s.ops u = .none → ¬ (s.ops u).Entry l id w :=
    fun hop => by rw [hop]; exact Op.Entry.not_of_wait rfl
  have hselect : ∀ {u : TaskId} {w ws id x}, s.ops u = .select w ws → ¬ (s.ops u).Entry (.waiters e) id x := by
    intro u w ws id x hop hentry
    rw [hop] at hentry
    cases e <;> exact hentry
  cases hs with
  | same => exact h e
  | tick | cancel | dropUndelivered =>
    exact (h e).same (fun _ _ _ => Iff.rfl) (fun _ _ _ _ => rfl) (.refl rfl rfl rfl rfl)
  | @claim t w x hwait hready =>
    refine (h e).setWaits fun u id y hentry => ?_
    rw [Waits.wake_apply]
    split
    · next hand =>
      refine .inr ⟨hand.2, by simp, fun heq => ?_⟩
      cases heq
      obtain ⟨ws, hop⟩ := hready rfl
      cases hr.sole u t y hentry.wait (hand.1 ▸ hwait)
      exact hselect hop hentry
    · exact .inl rfl
  | send hop | receive hop =>
    exact (h e).setOp (fun _ _ => hidle hop) rfl rfl rfl (.refl rfl rfl rfl rfl)
  | sendPass hin hpass =>
    refine spent_sendPass (hr.sendEntry hin) hin.op hpass ?_ ?_ e
    · cases hin with
      | first _ => exact (h .sender).mono (zero_le 1)
      | again hop => exact (h .sender).unpark (by rw [hop]; exact ⟨rfl, rfl⟩) rfl fun _ => le_refl 1
    · cases hin with
      | first _ => exact h .receiver
      | @again id w hop =>
        exact (h .receiver).unpark_other (e := .sender) (w := w) (by rw [hop]; exact ⟨rfl, rfl⟩) rfl (by simp)
  | receivePass hin hpass =>
    refine spent_receivePass (hr.receiveEntry hin) hin.op hpass ?_ ?_ e
    · cases hin with
      | first _ => exact (h .receiver).mono (zero_le 1)
      | again hop => exact (h .receiver).unpark (by rw [hop]; exact ⟨rfl, rfl⟩) rfl fun _ => le_refl 1
    · cases hin with
      | first _ => exact h .sender
      | @again id w hop =>
        exact (h .sender).unpark_other (e := .receiver) (w := w) (by rw [hop]; exact ⟨rfl, rfl⟩) rfl (by simp)
  | @sendCancelled t v i w hop hwait =>
    -- `wake_one` passes over a wait that was claimed by a canceller
    have hentry : (s.ops t).Entry (.waiters .sender) i w := by rw [hop]; exact ⟨rfl, rfl⟩
    have hin : Spent (s.unpark t .sender i (.send v true)) e 0 := by
      cases e with
      | sender => exact (h .sender).unpark hentry rfl fun hready => by rw [hwait] at hready; cases hready
      | receiver => exact (h .receiver).unpark_other hentry rfl (by simp)
    exact hin.setOp (fun _ _ => by simpa using Op.Entry.not_of_wait rfl) rfl rfl rfl (.refl rfl rfl rfl rfl)
  | @receiveCancelled t deadline i w hop hwait =>
    have hentry : (s.ops t).Entry (.waiters .receiver) i w := by rw [hop]; exact ⟨rfl, rfl⟩
    have hin : Spent (s.unpark t .receiver i (.receive deadline)) e 0 := by
      cases e with
      | receiver => exact (h .receiver).unpark hentry rfl fun hready => by rw [hwait] at hready; cases hready
      | sender => exact (h .sender).unpark_other hentry rfl (by simp)
    exact hin.setOp (fun _ _ => by simpa using Op.Entry.not_of_wait rfl) rfl rfl rfl (.refl rfl rfl rfl rfl)
  | leave hop =>
    exact (h e).setOp (fun _ _ => by rw [hop]; exact Op.Entry.not_of_wait rfl) rfl rfl rfl (.refl rfl rfl rfl rfl)
  | close | releaseSender =>
    have hr' : Registered { s with sendingClosed := true } := hr.of_eq rfl rfl rfl rfl
    obtain ⟨hn, hu⟩ := wakeEveryone_settles hr' (show Occupied { s with sendingClosed := true } from ho) e
    exact .of_none hn hu
  | releaseReceiver _ =>
    have hr' : Registered { s with receiverGone := true } := hr.of_eq rfl rfl rfl rfl
    obtain ⟨hn, hu⟩ := wakeEveryone_settles hr' (show Occupied { s with receiverGone := true } from ho) e
    exact .of_none hn hu
  | @select t hop =>
    refine (h e).same (entry_update rfl fun id w => iff_of_false ?_ (hidle hop))
      (fun u id w hentry => ?_) (.refl rfl rfl rfl rfl)
    · cases e <;> exact fun hentry => hentry
    · simp [Nat.ne_of_lt (hr.fresh u w hentry.wait)]
  | watch hop _ _ | unwatch hop _ =>
    refine (h e).same (entry_update rfl fun id w => iff_of_false ?_ (hselect hop))
      (fun _ _ _ _ => rfl) (.refl rfl rfl rfl rfl)
    cases e <;> exact fun hentry => hentry
  | @abandon t w ws hop hwait =>
    refine (h e).setWaits fun u id y hentry => ?_
    by_cases hy : y = w
    · cases hr.sole u t y hentry.wait (by rw [hop, hy]; rfl)
      exact absurd hentry (hselect hop)
    · exact .inl (update_of_ne hy _ _)
  | selected hop =>
    exact (h e).setOp (fun _ _ => hselect hop) rfl rfl rfl (.refl rfl rfl rfl rfl)

end RocNet.Channel
