import RocNet.Model.ChannelSteps

/-!
# Tasks and the entries of a channel's wait lists

A task that waits at a channel, or watches it in a `Select`, has an entry in one of the four lists until its wait
ends, and every entry is of such a task.
-/

namespace RocNet.Channel

open Waiters Nat
open Sched (TaskId WaitId Instant Woke)
open Function List State

variable {s s' r : State} {t u : TaskId} {v : Value} {deadline : Option Instant} {o : Op}
  {l : WaitList} {e : End} {id : ℕ} {w x : WaitId}

/-! ## Entries -/

/-- The entries an operation has made, and not removed. -/
def Op.Entry : Op → WaitList → ℕ → WaitId → Prop
  | .sendParked _ i x, .waiters .sender, id, w => id = i ∧ w = x
  | .receiveParked _ i x, .waiters .receiver, id, w => id = i ∧ w = x
  | .select x ws, .watchers e, id, w => (e, id) ∈ ws ∧ w = x
  | _, _, _, _ => False

lemma Op.Entry.wait (h : o.Entry l id w) : o.wait = some w := by
  unfold Op.Entry at h
  split at h
  · rw [h.2]
    rfl
  · rw [h.2]
    rfl
  · rw [h.2]
    rfl
  · cases h

lemma Op.Entry.not_of_wait (ho : o.wait = Option.none) : ¬ o.Entry l id w := by
  intro h
  rw [h.wait] at ho
  cases ho

variable {ws : List (End × ℕ)}

lemma Op.entry_select : (Op.select x ws).Entry l id w ↔ ∃ e, l = .watchers e ∧ (e, id) ∈ ws ∧ w = x := by
  cases l with
  | waiters e | watchers e => simp [Op.Entry]

lemma Op.Entry.plain (h : o.Entry (.waiters e) id w) (h' : o.Entry k i x) : k = .waiters e ∧ i = id ∧ x = w := by
  cases o with
  | sendParked v j y =>
    cases e with
    | sender =>
      cases k with
      | waiters f =>
        cases f with
        | sender => exact ⟨rfl, h'.1.trans h.1.symm, h'.2.trans h.2.symm⟩
        | receiver => cases h'
      | watchers f => cases h'
    | receiver => cases h
  | receiveParked d j y =>
    cases e with
    | receiver =>
      cases k with
      | waiters f =>
        cases f with
        | receiver => exact ⟨rfl, h'.1.trans h.1.symm, h'.2.trans h.2.symm⟩
        | sender => cases h'
      | watchers f => cases h'
    | sender => cases h
  | _ => cases e <;> cases h

structure Registered (s : State) : Prop where
  fresh : ∀ t w, (s.ops t).wait = some w → w < s.nextWait
  sole : ∀ t u w, (s.ops t).wait = some w → (s.ops u).wait = some w → t = u
  below : ∀ l t id w, (s.ops t).Entry l id w → id ≤ (s.lists l).next
  unique : ∀ l t u id w x, (s.ops t).Entry l id w → (s.ops u).Entry l id x → t = u
  listed : ∀ l t id w, (s.ops t).Entry l id w → s.waits w = none → (id, w) ∈ (s.lists l).list
  entry : ∀ l id w, (id, w) ∈ (s.lists l).list → ∃ t, (s.ops t).Entry l id w
  nodup : ∀ t w ws, s.ops t = .select w ws → ws.Nodup

/-! ## A list that changes -/

variable {k : WaitList} {a : ℕ × WaitId} {lists : WaitList → Waiters WaitId}

lemma mem_update_addWaker : a ∈ (update lists k ((lists k).addWaker w) l).list ↔
    a ∈ (lists l).list ∨ l = k ∧ a = ((lists k).nextId, w) := by
  obtain rfl | hl := eq_or_ne l k
  · simp
  · simp [hl]

lemma le_update_addWaker : (lists l).next ≤ (update lists k ((lists k).addWaker w) l).next := by
  obtain rfl | hl := eq_or_ne l k
  · simp
  · simp [hl]

lemma mem_update_remove : a ∈ (update lists k ((lists k).remove id) l).list ↔
    a ∈ (lists l).list ∧ (l = k → a.1 ≠ id) := by
  obtain rfl | hl := eq_or_ne l k
  · simp
  · simp [hl]

lemma le_update_remove : (lists l).next ≤ (update lists k ((lists k).remove id) l).next := by
  obtain rfl | hl := eq_or_ne l k
  · simp
  · simp [hl]

/-! ## Waking -/

lemma Registered.wake (h : Registered s) (hops : s'.ops = s.ops) (hnext : s'.nextWait = s.nextWait)
    (hids : ∀ l, (s'.lists l).next = (s.lists l).next) (hsub : ∀ l, (s'.lists l).list ⊆ (s.lists l).list)
    (hkeep : ∀ l id w, (id, w) ∈ (s.lists l).list → s'.waits w = none → (id, w) ∈ (s'.lists l).list)
    (hwaits : ∀ w, s'.waits w = none → s.waits w = none) : Registered s' := by
  refine ⟨?_, ?_, ?_, ?_, ?_, ?_, ?_⟩
  · rw [hops, hnext]
    exact h.fresh
  · rw [hops]
    exact h.sole
  · intro l t id w hentry
    rw [hops] at hentry
    rw [hids l]
    exact h.below l t id w hentry
  · rw [hops]
    exact h.unique
  · intro l t id w hentry hw
    rw [hops] at hentry
    exact hkeep l id w (h.listed l t id w hentry (hwaits w hw)) hw
  · intro l id w hmem
    rw [hops]
    exact h.entry l id w (hsub l hmem)
  · rw [hops]
    exact h.nodup

/-- The waits in either list of an end. -/
def State.Has (s : State) (e : End) (w : WaitId) : Prop :=
  (s.lists (.waiters e)).Has w ∨ (s.lists (.watchers e)).Has w

lemma wakes_notify (s : State) (e : End) : Waits.Wakes (s.Has e) s.waits (s.notify e).waits :=
  ((Waiters.wakes_wakeOne _ _).mono fun _ hw => .inl hw).trans
    ((wakes_wakeAll _ _).mono fun _ hw => .inr hw)

lemma notify_watchers_ne_none (h : (s.lists (.watchers e)).Has w) : (s.notify e).waits w ≠ none :=
  Waiters.wakeAll_ne_none h

/-- What is left of a list, and why. -/
theorem notify_list (s : State) (e : End) (l : WaitList) : ((s.notify e).lists l).next = (s.lists l).next ∧
    ((s.notify e).lists l).list ⊆ (s.lists l).list ∧ ∀ id w, (id, w) ∈ (s.lists l).list → (s.notify e).waits w = none →
      (id, w) ∈ ((s.notify e).lists l).list := by
  by_cases hwatch : l = .watchers e
  · subst hwatch
    simp only [notify_lists, update_self, Waiters.wakeAll_next, Waiters.wakeAll_list]
    refine ⟨trivial, nil_subset _, fun id w hmem hw => ?_⟩
    exact absurd hw (notify_watchers_ne_none ⟨id, hmem⟩)
  · by_cases hwait : l = .waiters e
    · subst hwait
      simp only [notify_lists, update_of_ne hwatch, update_self, Waiters.wakeOne_next]
      refine ⟨trivial, fun a ha => Waiters.mem_of_mem_wakeOne ha, fun id w hmem hw => ?_⟩
      have hopen := (wakes_notify s e).none hw
      rcases (s.lists (.waiters e)).wakeOne_cases s.waits with ⟨hall, -, -⟩ | ⟨a, -, ha, hwoken, hrest⟩
      · exact absurd hopen (hall (id, w) hmem)
      · rcases hrest (id, w) hmem with heq | hended | hleft
        · -- the one that is told
          have hnone := (wakes_wakeAll _ _).none hw
          rw [hwoken, ← heq, Waits.wake_apply, if_pos ⟨rfl, hopen⟩] at hnone
          cases hnone
        · exact absurd hopen hended
        · exact hleft
    · simp only [notify_lists, update_of_ne hwatch, update_of_ne hwait]
      exact ⟨trivial, fun _ ha => ha, fun _ _ hmem _ => hmem⟩

lemma Registered.notify (h : Registered s) (e : End) : Registered (s.notify e) :=
  h.wake rfl rfl (fun l => (notify_list s e l).1) (fun l => (notify_list s e l).2.1)
    (fun l => (notify_list s e l).2.2) fun _ hw => (wakes_notify s e).none hw

lemma wakes_lists (s : State) (ls : List WaitList) (x : Waits) : Waits.Wakes (fun w => ∃ l, (s.lists l).Has w) x
      (ls.foldl (fun x l => ((s.lists l).wakeAll x).2) x) := by
  induction ls generalizing x with
  | nil => exact .refl _ x
  | cons l ls ih =>
    exact ((wakes_wakeAll _ x).mono fun w hw => ⟨l, hw⟩).trans (ih _)

lemma lists_ne_none {ls : List WaitList} (hl : l ∈ ls) (h : (s.lists l).Has w) (x : Waits) :
    ls.foldl (fun x l => ((s.lists l).wakeAll x).2) x w ≠ none := by
  induction ls generalizing x with
  | nil => cases hl
  | cons k ls ih =>
    rcases mem_cons.mp hl with rfl | hl
    · intro hnone
      exact Waiters.wakeAll_ne_none h ((wakes_lists s ls _).none hnone)
    · exact ih hl _

lemma wakes_wakeEveryone (s : State) : Waits.Wakes (fun w => ∃ l, (s.lists l).Has w) s.waits s.wakeEveryone.waits :=
  wakes_lists s _ s.waits

lemma wakeEveryone_ne_none (h : (s.lists l).Has w) : s.wakeEveryone.waits w ≠ none := by
  refine lists_ne_none (l := l) ?_ h s.waits
  rcases l with (_ | _) | (_ | _) <;> simp

section

variable (h : Registered s)

include h

lemma Registered.wakeEveryone : Registered s.wakeEveryone :=
  h.wake rfl rfl (fun _ => rfl) (fun _ => nil_subset _)
    (fun _ id _ hmem hw => absurd hw (wakeEveryone_ne_none ⟨id, hmem⟩))
    fun _ hw => (wakes_wakeEveryone s).none hw

/-! ## Entering and leaving the lists -/

/-- **The rule for one task's step.** Task `t` goes on as `o`: its wait is the one it had or a new one,
its entries are old ones or under new ids, and what the others have stays. -/
theorem Registered.change (hops : s'.ops = update s.ops t o) (hnext : s.nextWait ≤ s'.nextWait)
    (hwait : ∀ w, o.wait = some w → w < s'.nextWait ∧ ((s.ops t).wait = some w ∨ s.nextWait ≤ w))
    (hwaits : ∀ w < s.nextWait, s'.waits w = s.waits w) (hids : ∀ l, (s.lists l).next ≤ (s'.lists l).next)
    (hnew : ∀ l id w, o.Entry l id w → id ≤ (s'.lists l).next ∧ ((s.ops t).Entry l id w ∨ (s.lists l).next < id))
    (hlisted : ∀ l id w, o.Entry l id w → s'.waits w = none → (id, w) ∈ (s'.lists l).list)
    (hothers : ∀ l id w, (id, w) ∈ (s.lists l).list → ¬ (s.ops t).Entry l id w →
      (id, w) ∈ (s'.lists l).list) (hentry : ∀ l id w, (id, w) ∈ (s'.lists l).list →
      o.Entry l id w ∨ (id, w) ∈ (s.lists l).list ∧ ¬ (s.ops t).Entry l id w)
    (hnodup : ∀ w ws, o = .select w ws → ws.Nodup) : Registered s' := by
  have hself : s'.ops t = o := by rw [hops, update_self]
  have hother : ∀ {u}, u ≠ t → s'.ops u = s.ops u := fun hu => by rw [hops, update_of_ne hu]
  have hsole : ∀ {u w}, u ≠ t → o.wait = some w → (s.ops u).wait ≠ some w := by
    intro u w hu ho hw
    rcases (hwait w ho).2 with hold | hfresh
    · exact hu (h.sole u t w hw hold)
    · exact absurd (h.fresh u w hw) (not_lt.mpr hfresh)
  have hunique : ∀ {u l id w x}, u ≠ t → o.Entry l id w → ¬ (s.ops u).Entry l id x := by
    intro u l id w x hu ho hx
    rcases (hnew l id w ho).2 with hold | hfresh
    · exact hu (h.unique l u t id x w hx hold)
    · exact absurd (h.below l u id x hx) (not_le.mpr hfresh)
  refine ⟨fun u w hw => ?_, fun u u' w hw hw' => ?_, fun l u id w hu => ?_, fun l u u' id w x hu hu' => ?_,
    fun l u id w hu hw => ?_, fun l id w hmem => ?_, fun u w ws hu => ?_⟩
  · obtain rfl | hut := eq_or_ne u t
    · rw [hself] at hw
      exact (hwait w hw).1
    · rw [hother hut] at hw
      exact lt_of_lt_of_le (h.fresh u w hw) hnext
  · obtain rfl | hut := eq_or_ne u t
    · by_cases hut' : u' = u
      · exact hut'.symm
      · rw [hself] at hw
        rw [hother hut'] at hw'
        exact absurd hw' (hsole hut' hw)
    · rw [hother hut] at hw
      by_cases hut' : u' = t
      · subst hut'
        rw [hself] at hw'
        exact absurd hw (hsole hut hw')
      · rw [hother hut'] at hw'
        exact h.sole u u' w hw hw'
  · obtain rfl | hut := eq_or_ne u t
    · rw [hself] at hu
      exact (hnew l id w hu).1
    · rw [hother hut] at hu
      exact le_trans (h.below l u id w hu) (hids l)
  · obtain rfl | hut := eq_or_ne u t
    · by_cases hut' : u' = u
      · exact hut'.symm
      · rw [hself] at hu
        rw [hother hut'] at hu'
        exact absurd hu' (hunique hut' hu)
    · rw [hother hut] at hu
      by_cases hut' : u' = t
      · subst hut'
        rw [hself] at hu'
        exact absurd hu (hunique hut hu')
      · rw [hother hut'] at hu'
        exact h.unique l u u' id w x hu hu'
  · obtain rfl | hut := eq_or_ne u t
    · rw [hself] at hu
      exact hlisted l id w hu hw
    · rw [hother hut] at hu
      rw [hwaits w (h.fresh u w hu.wait)] at hw
      exact hothers l id w (h.listed l u id w hu hw) fun ht => hut (h.unique l u t id w w hu ht)
  · rcases hentry l id w hmem with ho | ⟨hmem, hnot⟩
    · exact ⟨t, hself ▸ ho⟩
    · obtain ⟨u, hu⟩ := h.entry l id w hmem
      have hut : u ≠ t := fun heq => hnot (heq ▸ hu)
      exact ⟨u, (hother hut).symm ▸ hu⟩
  · obtain rfl | hut := eq_or_ne u t
    · rw [hself] at hu
      exact hnodup w ws hu
    · rw [hother hut] at hu
      exact h.nodup u w ws hu

lemma Registered.setOp (hops : s'.ops = update s.ops t o)
    (hlists : s'.lists = s.lists) (hwaits : s'.waits = s.waits) (hnext : s'.nextWait = s.nextWait)
    (hold : ∀ l id w, ¬ (s.ops t).Entry l id w) (ho : o.wait = none) : Registered s' := by
  have hno : ∀ l id w, ¬ o.Entry l id w := fun l id w => Op.Entry.not_of_wait ho
  refine h.change hops hnext.symm.le (fun w hw => ?_) (fun w _ => by rw [hwaits]) (fun l => by rw [hlists])
    (fun l id w he => absurd he (hno l id w)) (fun l id w he => absurd he (hno l id w))
    (fun l id w hmem _ => hlists ▸ hmem) (fun l id w hmem => .inr ⟨hlists ▸ hmem, hold l id w⟩) fun w ws heq => ?_
  · rw [ho] at hw
    cases hw
  · rw [heq] at ho
    cases ho

lemma Registered.unpark (hentry : (s.ops t).Entry (.waiters e) id w)
    (ho : o.wait = none) : Registered (s.unpark t e id o) := by
  have hno : ∀ l id w, ¬ o.Entry l id w := fun l id w => Op.Entry.not_of_wait ho
  refine h.change rfl le_rfl (fun w hw => ?_) (fun w _ => rfl) (fun l => le_update_remove)
    (fun l id w he => absurd he (hno l id w)) (fun l id w he => absurd he (hno l id w)) (fun l i x hmem hnot => ?_)
    (fun l i x hmem => .inr ?_) fun w ws heq => ?_
  · rw [ho] at hw
    cases hw
  · refine mem_update_remove.mpr ⟨hmem, ?_⟩
    rintro rfl hi
    obtain ⟨u, hu⟩ := h.entry _ i x hmem
    cases hi
    cases h.unique _ u t _ x w hu hentry
    exact hnot hu
  · obtain ⟨hmem, hid⟩ := mem_update_remove.mp hmem
    exact ⟨hmem, fun hx => hid (hentry.plain hx).1 (hentry.plain hx).2.1⟩
  · rw [heq] at ho
    cases ho

lemma Registered.park {op : ℕ → WaitId → Op} (hold : ∀ l id w, ¬ (s.ops t).Entry l id w)
    (hwait : ∀ id w, (op id w).wait = some w)
    (hop : ∀ id w l i x, (op id w).Entry l i x ↔ l = .waiters e ∧ i = id ∧ x = w) : Registered (s.park t e op) := by
  refine h.change rfl (le_succ _) (fun w hw => ?_) (fun w hw => ?_) (fun l => le_update_addWaker) (fun l i x he => ?_)
    (fun l i x he hx => ?_) (fun l i x hmem _ => mem_update_addWaker.mpr (.inl hmem)) (fun l i x hmem => ?_)
    fun w ws heq => ?_
  · rw [hwait] at hw
    cases hw
    exact ⟨lt_succ_self _, .inr le_rfl⟩
  · simp [hw.ne]
  · obtain ⟨rfl, rfl, rfl⟩ := (hop _ _ l i x).mp he
    simp [Waiters.nextId]
  · obtain ⟨rfl, rfl, rfl⟩ := (hop _ _ l i x).mp he
    exact mem_update_addWaker.mpr (.inr ⟨rfl, rfl⟩)
  · rcases mem_update_addWaker.mp hmem with hmem | ⟨rfl, heq⟩
    · exact .inr ⟨hmem, hold l i x⟩
    · cases heq
      exact .inl ((hop _ _ _ _ _).mpr ⟨rfl, rfl, rfl⟩)
  · have hentry := (hop (s.lists (.waiters e)).nextId s.nextWait _ _ _).mpr ⟨rfl, rfl, rfl⟩
    rw [heq] at hentry
    cases e <;> cases hentry

lemma Registered.select (hold : ∀ l id w, ¬ (s.ops t).Entry l id w) :
    Registered ((s.beginWait t).setOp t (.select s.nextWait [])) := by
  have hno : ∀ l id w, ¬ (Op.select s.nextWait []).Entry l id w := by
    rintro (_ | _) id w hentry
    · cases hentry
    · cases hentry.1
  refine h.change rfl (le_succ _) (fun w hw => ?_) (fun w hw => ?_) (fun l => le_rfl)
    (fun l i x he => absurd he (hno l i x)) (fun l i x he => absurd he (hno l i x))
    (fun l i x hmem _ => hmem) (fun l i x hmem => .inr ⟨hmem, hold l i x⟩) fun w ws heq => ?_
  · cases hw
    exact ⟨lt_succ_self _, .inr le_rfl⟩
  · simp [hw.ne]
  · cases heq
    exact .nil

lemma Registered.watch (hop : s.ops t = .select w ws) :
    Registered ((s.setList (.watchers e) ((s.lists (.watchers e)).addWaker w)).setOp t
      (.select w ((e, (s.lists (.watchers e)).nextId) :: ws))) := by
  have hold : ∀ l i x, (s.ops t).Entry l i x ↔ ∃ f, l = .watchers f ∧ (f, i) ∈ ws ∧ x = w := by
    intro l i x
    rw [hop, Op.entry_select]
  refine h.change rfl le_rfl (fun x hx => ?_) (fun x _ => rfl) (fun l => le_update_addWaker) (fun l i x he => ?_)
    (fun l i x he hx => ?_) (fun l i x hmem _ => mem_update_addWaker.mpr (.inl hmem)) (fun l i x hmem => ?_)
    fun x ws' heq => ?_
  · have hwait : (s.ops t).wait = some x := by rwa [hop]
    exact ⟨h.fresh t x hwait, .inl hwait⟩
  · obtain ⟨f, rfl, hmem, rfl⟩ := Op.entry_select.mp he
    rcases mem_cons.mp hmem with heq | hmem
    · cases heq
      simp [Waiters.nextId]
    · have hentry := (hold _ i x).mpr ⟨f, rfl, hmem, rfl⟩
      exact ⟨le_trans (h.below _ t i x hentry) le_update_addWaker, .inl hentry⟩
  · obtain ⟨f, rfl, hmem, rfl⟩ := Op.entry_select.mp he
    rcases mem_cons.mp hmem with heq | hmem
    · cases heq
      exact mem_update_addWaker.mpr (.inr ⟨rfl, rfl⟩)
    · exact mem_update_addWaker.mpr (.inl (h.listed _ t i x ((hold _ i x).mpr ⟨f, rfl, hmem, rfl⟩) hx))
  · rcases mem_update_addWaker.mp hmem with hmem | ⟨rfl, heq⟩
    · by_cases hentry : (s.ops t).Entry l i x
      · -- an entry of the task's that was there is there still
        obtain ⟨f, rfl, hws, rfl⟩ := (hold l i x).mp hentry
        exact .inl (Op.entry_select.mpr ⟨f, rfl, mem_cons_of_mem _ hws, rfl⟩)
      · exact .inr ⟨hmem, hentry⟩
    · cases heq
      exact .inl (Op.entry_select.mpr ⟨e, rfl, mem_cons_self, rfl⟩)
  · cases heq
    refine nodup_cons.mpr ⟨fun hmem => ?_, h.nodup t w ws hop⟩
    have hbelow := h.below _ t _ w ((hold _ _ w).mpr ⟨e, rfl, hmem, rfl⟩)
    exact absurd hbelow (not_succ_le_self _)

lemma Registered.unwatch (hop : s.ops t = .select w ws)
    (hmem : (e, id) ∈ ws) : Registered ((s.setList (.watchers e) ((s.lists (.watchers e)).remove id)).setOp t
      (.select w (ws.erase (e, id)))) := by
  have hnodup := h.nodup t w ws hop
  have hold : ∀ l i x, (s.ops t).Entry l i x ↔ ∃ f, l = .watchers f ∧ (f, i) ∈ ws ∧ x = w := by
    intro l i x
    rw [hop, Op.entry_select]
  refine h.change rfl le_rfl (fun x hx => ?_) (fun x _ => rfl) (fun l => le_update_remove) (fun l i x he => ?_)
    (fun l i x he hx => ?_) (fun l i x hi hnot => ?_) (fun l i x hi => ?_) fun x ws' heq => ?_
  · have hwait : (s.ops t).wait = some x := by rwa [hop]
    exact ⟨h.fresh t x hwait, .inl hwait⟩
  · obtain ⟨f, rfl, hws, rfl⟩ := Op.entry_select.mp he
    have hentry := (hold _ i x).mpr ⟨f, rfl, mem_of_mem_erase hws, rfl⟩
    exact ⟨le_trans (h.below _ t i x hentry) le_update_remove, .inl hentry⟩
  · obtain ⟨f, rfl, hws, rfl⟩ := Op.entry_select.mp he
    obtain ⟨hne, hws⟩ := hnodup.mem_erase_iff.mp hws
    refine mem_update_remove.mpr ⟨h.listed _ t i x ((hold _ i x).mpr ⟨f, rfl, hws, rfl⟩) hx, fun hf heq => hne ?_⟩
    cases hf
    exact heq ▸ rfl
  · refine mem_update_remove.mpr ⟨hi, ?_⟩
    rintro rfl heq
    cases heq
    obtain ⟨u, hu⟩ := h.entry _ _ x hi
    cases h.unique _ u t _ x w hu ((hold _ _ w).mpr ⟨e, rfl, hmem, rfl⟩)
    exact hnot hu
  · obtain ⟨hi, hid⟩ := mem_update_remove.mp hi
    by_cases hentry : (s.ops t).Entry l i x
    · obtain ⟨f, rfl, hws, rfl⟩ := (hold l i x).mp hentry
      refine .inl (Op.entry_select.mpr ⟨f, rfl, hnodup.mem_erase_iff.mpr ⟨fun heq => ?_, hws⟩, rfl⟩)
      cases heq
      exact hid rfl rfl
    · exact .inr ⟨hi, hentry⟩
  · cases heq
    exact hnodup.erase _

/-! ## Every step -/

lemma Registered.of_eq (hops : s'.ops = s.ops) (hlists : s'.lists = s.lists)
    (hwaits : s'.waits = s.waits) (hnext : s'.nextWait = s.nextWait) : Registered s' :=
  h.wake hops hnext (fun l => by rw [hlists]) (fun l => by rw [hlists]; exact List.Subset.refl _)
    (fun l id w hmem _ => by rwa [hlists]) fun w hw => by rwa [← hwaits]

lemma Registered.sendEntry (hin : SendEntry s t v r) : Registered r := by
  cases hin with
  | first _ => exact h
  | @again id w hop => exact h.unpark (e := .sender) (w := w) (by rw [hop]; exact ⟨rfl, rfl⟩) rfl

lemma Registered.receiveEntry (hin : ReceiveEntry s t deadline r) : Registered r := by
  cases hin with
  | first _ => exact h
  | @again id w hop => exact h.unpark (e := .receiver) (w := w) (by rw [hop]; exact ⟨rfl, rfl⟩) rfl

lemma Registered.sendPass (hop : ∃ wait, s.ops t = .send v wait) (hs : SendPass s t v s') : Registered s' := by
  have hold : ∀ l id w, ¬ (s.ops t).Entry l id w := by
    obtain ⟨wait, hop⟩ := hop
    rw [hop]
    exact fun l id w => Op.Entry.not_of_wait rfl
  cases hs with
  | closed _ | full _ => exact h.setOp rfl rfl rfl rfl hold rfl
  | sent _ _ _ =>
    have henqueue : Registered (s.enqueue v) := h.of_eq rfl rfl rfl rfl
    exact (henqueue.notify .receiver).setOp rfl rfl rfl rfl hold rfl
  | park _ _ _ =>
    refine h.park hold (fun _ _ => rfl) fun id w l i x => ?_
    rcases l with (_ | _) | _ <;> simp [Op.Entry]

lemma Registered.receivePass (hop : s.ops t = .receive deadline)
    (hs : ReceivePass s t deadline s') : Registered s' := by
  have hold : ∀ l id w, ¬ (s.ops t).Entry l id w := by
    rw [hop]
    exact fun l id w => Op.Entry.not_of_wait rfl
  cases hs with
  | closed _ _ | timedOut _ => exact h.setOp rfl rfl rfl rfl hold rfl
  | @ok v rest _ =>
    have hpop : Registered (s.setQueue rest) := h.of_eq rfl rfl rfl rfl
    exact (hpop.notify .sender).setOp rfl rfl rfl rfl hold rfl
  | park _ _ =>
    refine h.park hold (fun _ _ => rfl) fun id w l i x => ?_
    rcases l with (_ | _) | _ <;> simp [Op.Entry]

lemma Registered.setWaits {x : Waits} (hx : ∀ w, x w = none → s.waits w = none) : Registered (s.setWaits x) :=
  h.wake rfl rfl (fun _ => rfl) (fun _ => List.Subset.refl _) (fun _ _ _ hmem _ => hmem) hx

lemma Registered.step (hs : Step s s') : Registered s' := by
  have hidle : ∀ {u : TaskId} {l id w}, s.ops u = .none → ¬ (s.ops u).Entry l id w :=
    fun hop => by rw [hop]; exact Op.Entry.not_of_wait rfl
  cases hs with
  | same => exact h
  | tick | cancel | dropUndelivered => exact h.of_eq rfl rfl rfl rfl
  | @claim t w x _ _ =>
    refine h.setWaits fun y hy => ?_
    by_contra hended
    rw [Waits.wake_apply, if_neg fun hand => hended hand.2] at hy
    exact hended hy
  | send hop | receive hop => exact h.setOp rfl rfl rfl rfl (fun _ _ _ => hidle hop) rfl
  | sendPass hin hpass => exact (h.sendEntry hin).sendPass hin.op hpass
  | receivePass hin hpass => exact (h.receiveEntry hin).receivePass hin.op hpass
  | sendCancelled hop _ =>
    exact (h.sendEntry (.again hop)).setOp rfl rfl rfl rfl (fun _ _ _ => by simpa using Op.Entry.not_of_wait rfl) rfl
  | receiveCancelled hop _ =>
    exact (h.receiveEntry (.again hop)).setOp rfl rfl rfl rfl (fun _ _ _ => by simpa using Op.Entry.not_of_wait rfl) rfl
  | leave hop =>
    exact h.setOp rfl rfl rfl rfl (fun _ _ _ => by rw [hop]; exact Op.Entry.not_of_wait rfl) rfl
  | close | releaseSender =>
    have hclosed : Registered { s with sendingClosed := true } := h.of_eq rfl rfl rfl rfl
    exact hclosed.wakeEveryone.of_eq rfl rfl rfl rfl
  | releaseReceiver _ =>
    have hgone : Registered { s with receiverGone := true } := h.of_eq rfl rfl rfl rfl
    exact hgone.wakeEveryone.of_eq rfl rfl rfl rfl
  | select hop => exact h.select fun _ _ _ => hidle hop
  | watch hop _ _ => exact h.watch hop
  | @abandon t w ws _ hwait =>
    refine h.setWaits fun y hy => ?_
    by_cases hyw : y = w
    · rw [hyw]
      exact hwait
    · rwa [update_of_ne hyw] at hy
  | unwatch hop hmem => exact h.unwatch hop hmem
  | selected hop =>
    refine h.setOp rfl rfl rfl rfl (fun l id w hentry => ?_) rfl
    rw [hop, Op.entry_select] at hentry
    obtain ⟨f, -, hmem, -⟩ := hentry
    cases hmem

end

end RocNet.Channel
