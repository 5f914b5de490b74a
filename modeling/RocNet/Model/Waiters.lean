import RocNet.Model.Scheduler

/-!
# Wait lists

`Waiters` (sched.rs:1312-1377): the tasks waiting for some condition, kept under the mutex of the state the condition
is about.

Of the waits themselves only this much matters to the owner of a list: a wait is ended at most once, by whoever claims
it first, and waking a wait that has ended reaches nobody. `Waits` says how each has ended, if it has. A waiting task
may also run again earlier.

A plain thread's waker (`WakerKind::Thread`) is left out: Roc code always runs in a task.
-/

namespace RocNet

open List
open Sched (WaitId Woke)

/-! ## Waits -/

/-- How a wait ended: a wake-up claimed it, or its task took it back (`MultiWait::abandon`). -/
inductive Ending
  | claimed (r : Woke)
  | abandoned
  deriving DecidableEq, Repr

/-- How each wait has ended, if it has. -/
abbrev Waits := WaitId → Option Ending

namespace Waits

variable {e : Waits} {w x : WaitId} {r : Woke}

/-- `wake`: the wait ends this way, unless it has ended already. -/
def wake (e : Waits) (w : WaitId) (r : Woke) : Waits :=
  if e w = none then Function.update e w (some (.claimed r)) else e

/-- Wake some waits, one after the other. -/
def wakeEach (e : Waits) (ws : List WaitId) : Waits :=
  ws.foldl (fun e w => e.wake w .ready) e

lemma wake_apply : e.wake w r x = if x = w ∧ e x = none then some (.claimed r) else e x := by
  unfold wake
  obtain rfl | hx := eq_or_ne x w
  · by_cases he : e x = none
    · simp [he]
    · simp [he]
  · by_cases he : e w = none
    · simp [he, hx]
    · simp [he, hx]

lemma wakeEach_apply : e.wakeEach ws x = if x ∈ ws ∧ e x = none then some (.claimed .ready) else e x := by
  induction ws generalizing e with
  | nil => simp [wakeEach]
  | cons w ws ih =>
    have hcons : e.wakeEach (w :: ws) = (e.wake w .ready).wakeEach ws := rfl
    rw [hcons, ih, wake_apply]
    by_cases he : e x = none
    · obtain rfl | hx := eq_or_ne x w
      · simp [he]
      · simp [he, hx]
    · simp [he]

lemma wakeEach_ne_none (h : x ∈ ws) : e.wakeEach ws x ≠ none := by
  rw [wakeEach_apply]
  split
  · simp
  · next hx => exact fun he => hx ⟨h, he⟩

/-- From `e` to `e'` some waits of `P` were woken, and nothing else happened. -/
def Wakes (P : WaitId → Prop) (e e' : Waits) : Prop :=
  ∀ w, e' w = e w ∨ P w ∧ e w = none ∧ e' w = some (.claimed .ready)

namespace Wakes

variable {P Q : WaitId → Prop} {e' e'' : Waits}

lemma refl (P : WaitId → Prop) (e : Waits) : Wakes P e e := fun _ => .inl rfl

lemma mono (h : Wakes P e e') (hPQ : ∀ w, P w → Q w) : Wakes Q e e' :=
  fun w => (h w).imp_right fun ⟨hP, hrest⟩ => ⟨hPQ w hP, hrest⟩

lemma trans (h : Wakes P e e') (h' : Wakes P e' e'') : Wakes P e e'' := by
  intro w
  rcases h' w with heq | ⟨hP, hnone, hready⟩
  · rw [heq]
    exact h w
  · rcases h w with heq | ⟨-, -, hready'⟩
    · exact .inr ⟨hP, heq ▸ hnone, hready⟩
    · rw [hready'] at hnone
      cases hnone

lemma none (h : Wakes P e e') (hw : e' w = none) : e w = none := by
  rcases h w with heq | ⟨-, -, hready⟩
  · exact heq ▸ hw
  · rw [hready] at hw
    cases hw

lemma eq_of_not (h : Wakes P e e') (hw : ¬ P w) : e' w = e w :=
  (h w).resolve_right fun hwoken => hw hwoken.1

end Wakes

lemma wakes_wake (e : Waits) (w : WaitId) : Wakes (· = w) e (e.wake w .ready) := by
  intro x
  rw [wake_apply]
  split
  · next hx => exact .inr ⟨hx.1, hx.2, rfl⟩
  · exact .inl rfl

lemma wakes_wakeEach (e : Waits) (ws : List WaitId) : Wakes (· ∈ ws) e (e.wakeEach ws) := by
  intro x
  rw [wakeEach_apply]
  split
  · next hx => exact .inr ⟨hx.1, hx.2, rfl⟩
  · exact .inl rfl

end Waits

/-! ## The lists -/

/-- Entries under increasing ids, each with what it takes to wake it. -/
structure Waiters (α : Type) where
  list : List (ℕ × α)
  next : ℕ
  ordered : list.Pairwise fun a b => a.1 < b.1
  bounded : ∀ a ∈ list, a.1 ≤ next

namespace Waiters

section Lists

variable {α : Type}

def new : Waiters α := ⟨[], 0, .nil, by simp⟩

/-- The id the next waiter added will get. -/
def nextId (x : Waiters α) : ℕ := x.next + 1

/-- The entries of `l`, some of those of `x`. -/
def restrict (x : Waiters α) (l : List (ℕ × α)) (h : l.Sublist x.list) : Waiters α where
  list := l
  next := x.next
  ordered := x.ordered.sublist h
  bounded := fun a ha => x.bounded a (h.subset ha)

def addWaker (x : Waiters α) (w : α) : Waiters α where
  list := x.list ++ [(x.nextId, w)]
  next := x.nextId
  ordered := by
    refine List.pairwise_append.mpr ⟨x.ordered, List.pairwise_singleton _ _, fun a ha b hb => ?_⟩
    rw [List.mem_singleton.mp hb]
    exact Nat.lt_succ_of_le (x.bounded a ha)
  bounded := by
    intro a ha
    rcases List.mem_append.mp ha with ha | ha
    · exact Nat.le_succ_of_le (x.bounded a ha)
    · rw [List.mem_singleton.mp ha]

def remove (x : Waiters α) (id : ℕ) : Waiters α :=
  x.restrict (x.list.filter fun a => decide (a.1 ≠ id)) List.filter_sublist

/-- How many entries stand before id `first`; those from it on are at the back. -/
def keep (x : Waiters α) (first : ℕ) : ℕ := (x.list.takeWhile fun a => decide (a.1 < first)).length

/-- What `wake_from` leaves. -/
def before (x : Waiters α) (first : ℕ) : Waiters α :=
  x.restrict (x.list.take (x.keep first)) (List.take_sublist _ _)

/-- What `wake_from` takes off to wake, in order. -/
def drainFrom (x : Waiters α) (first : ℕ) : List α := (x.list.drop (x.keep first)).map Prod.snd

end Lists

/-- The list after the first entry whose wait had not ended, and that entry's wait. -/
def firstWaiting (e : Waits) : List (ℕ × WaitId) → List (ℕ × WaitId) × Option WaitId
  | [] => ([], none)
  | (_, w) :: rest => if e w = none then (rest, some w) else firstWaiting e rest

lemma firstWaiting_suffix (e : Waits) (l : List (ℕ × WaitId)) : (firstWaiting e l).1 <:+ l := by
  induction l with
  | nil => exact suffix_refl []
  | cons a l ih =>
    unfold firstWaiting
    split
    · exact suffix_cons a l
    · exact ih.trans (suffix_cons a l)

/-- Wake the first task that is still waiting, dropping the entries before it. -/
def wakeOne (x : Waiters WaitId) (e : Waits) : Waiters WaitId × Waits :=
  (x.restrict (firstWaiting e x.list).1 (firstWaiting_suffix e x.list).sublist,
    match (firstWaiting e x.list).2 with
    | none => e
    | some w => e.wake w .ready)

def wakeAll (x : Waiters WaitId) (e : Waits) : Waiters WaitId × Waits :=
  (x.restrict [] (List.nil_sublist _), e.wakeEach (x.list.map Prod.snd))

/-! ## What each does -/

section Lists

variable {α : Type} {x : Waiters α} {w : α} {id first : ℕ} {a b : ℕ × α}

@[simp]
lemma new_list : (new : Waiters α).list = [] := rfl

@[simp]
lemma mem_addWaker : a ∈ (x.addWaker w).list ↔ a ∈ x.list ∨ a = (x.nextId, w) := by
  simp [addWaker]

@[simp]
lemma addWaker_next : (x.addWaker w).next = x.next + 1 := rfl

@[simp]
lemma mem_remove : a ∈ (x.remove id).list ↔ a ∈ x.list ∧ a.1 ≠ id := by
  simp [remove, restrict]

@[simp]
lemma remove_next : (x.remove id).next = x.next := rfl

/-- The entries stand in the order of their ids. -/
theorem take_keep_eq_filter {l : List (ℕ × α)} (h : l.Pairwise fun a b => a.1 < b.1) :
    l.take (l.takeWhile fun a => decide (a.1 < first)).length = l.filter (fun a => decide (a.1 < first)) ∧
      l.drop (l.takeWhile fun a => decide (a.1 < first)).length = l.filter fun a => decide (first ≤ a.1) := by
  induction l with
  | nil => exact ⟨rfl, rfl⟩
  | cons c l ih =>
    obtain ⟨hc, hl⟩ := pairwise_cons.mp h
    by_cases hlt : c.1 < first
    · obtain ⟨htake, hdrop⟩ := ih hl
      simp [hlt, htake, hdrop, not_le.mpr hlt]
    · have hge : ∀ b ∈ l, first ≤ b.1 := fun b hb => (not_lt.mp hlt).trans (hc b hb).le
      have hkeep : l.filter (fun a => decide (first ≤ a.1)) = l :=
        filter_eq_self.mpr fun b hb => by simpa using hge b hb
      have hnone : l.filter (fun a => decide (a.1 < first)) = [] :=
        filter_eq_nil_iff.mpr fun b hb => by simpa using hge b hb
      simp [hlt, hnone, hkeep, not_lt.mp hlt]

@[simp]
lemma mem_before : a ∈ (x.before first).list ↔ a ∈ x.list ∧ a.1 < first := by
  have hlist : (x.before first).list = x.list.filter fun a => decide (a.1 < first) := (take_keep_eq_filter x.ordered).1
  rw [hlist, mem_filter, decide_eq_true_eq]

@[simp]
lemma before_next : (x.before first).next = x.next := rfl

lemma mem_drainFrom : w ∈ x.drainFrom first ↔ ∃ id, (id, w) ∈ x.list ∧ first ≤ id := by
  have hlist : x.drainFrom first = (x.list.filter fun a => decide (first ≤ a.1)).map Prod.snd :=
    congrArg _ (take_keep_eq_filter x.ordered).2
  rw [hlist, List.mem_map]
  constructor
  · rintro ⟨a, ha, rfl⟩
    obtain ⟨ha, hid⟩ := mem_filter.mp ha
    exact ⟨a.1, ha, by simpa using hid⟩
  · rintro ⟨id, hmem, hid⟩
    exact ⟨(id, w), mem_filter.mpr ⟨hmem, by simpa using hid⟩, rfl⟩

end Lists

variable {x : Waiters WaitId} {e : Waits} {w : WaitId} {a : ℕ × WaitId}

@[simp]
lemma wakeAll_list : (x.wakeAll e).1.list = [] := rfl

@[simp]
lemma wakeAll_next : (x.wakeAll e).1.next = x.next := rfl

@[simp]
lemma wakeOne_next : (x.wakeOne e).1.next = x.next := rfl

/-- **`wake_one` reaches a task that waits, if there is one.** Either all waits had ended, and
nothing is left, or one that had not is claimed. -/
theorem wakeOne_cases (x : Waiters WaitId) (e : Waits) :
    ((∀ a ∈ x.list, e a.2 ≠ none) ∧ (x.wakeOne e).1.list = [] ∧ (x.wakeOne e).2 = e) ∨
    ∃ a ∈ x.list, e a.2 = none ∧ (x.wakeOne e).2 = e.wake a.2 .ready ∧
      ∀ b ∈ x.list, b = a ∨ e b.2 ≠ none ∨ b ∈ (x.wakeOne e).1.list := by
  have hlist : ∀ l : List (ℕ × WaitId), ((∀ a ∈ l, e a.2 ≠ none) ∧ firstWaiting e l = ([], none)) ∨
      ∃ a ∈ l, e a.2 = none ∧ (firstWaiting e l).2 = some a.2 ∧
        ∀ b ∈ l, b = a ∨ e b.2 ≠ none ∨ b ∈ (firstWaiting e l).1 := by
    intro l
    induction l with
    | nil => exact .inl ⟨by simp, rfl⟩
    | cons c l ih =>
      by_cases hc : e c.2 = none
      · refine .inr ⟨c, mem_cons_self, hc, by simp [firstWaiting, hc], fun b hb => ?_⟩
        rcases mem_cons.mp hb with hb | hb
        · exact .inl hb
        · exact .inr (.inr (by simpa [firstWaiting, hc] using hb))
      · have hskip : firstWaiting e (c :: l) = firstWaiting e l := by simp [firstWaiting, hc]
        rw [hskip]
        rcases ih with ⟨hall, hnil⟩ | ⟨a, ha, hopen, hfirst, hrest⟩
        · refine .inl ⟨fun b hb => ?_, hnil⟩
          rcases mem_cons.mp hb with rfl | hb
          · exact hc
          · exact hall b hb
        · refine .inr ⟨a, mem_cons_of_mem c ha, hopen, hfirst, fun b hb => ?_⟩
          rcases mem_cons.mp hb with rfl | hb
          · exact .inr (.inl hc)
          · exact hrest b hb
  rcases hlist x.list with ⟨hall, hnil⟩ | ⟨a, ha, hopen, hfirst, hrest⟩
  · refine .inl ⟨hall, ?_, ?_⟩
    · simp [wakeOne, restrict, hnil]
    · simp [wakeOne, hnil]
  · refine .inr ⟨a, ha, hopen, ?_, hrest⟩
    simp [wakeOne, hfirst]

/-- The waits of the entries. -/
def Has (x : Waiters WaitId) (w : WaitId) : Prop := ∃ id, (id, w) ∈ x.list

lemma wakes_wakeOne (x : Waiters WaitId) (e : Waits) : Waits.Wakes x.Has e (x.wakeOne e).2 := by
  rcases x.wakeOne_cases e with ⟨-, -, heq⟩ | ⟨a, ha, -, heq, -⟩
  · rw [heq]
    exact .refl _ e
  · rw [heq]
    refine (e.wakes_wake a.2).mono ?_
    rintro w rfl
    exact ⟨a.1, ha⟩

lemma wakes_wakeAll (x : Waiters WaitId) (e : Waits) : Waits.Wakes x.Has e (x.wakeAll e).2 := by
  refine (e.wakes_wakeEach _).mono fun w hw => ?_
  obtain ⟨a, ha, rfl⟩ := List.mem_map.mp hw
  exact ⟨a.1, ha⟩

/-- `wake_all` leaves no wait of the list. -/
theorem wakeAll_ne_none (h : x.Has w) : (x.wakeAll e).2 w ≠ none := by
  obtain ⟨id, hmem⟩ := h
  exact Waits.wakeEach_ne_none (List.mem_map.mpr ⟨(id, w), hmem, rfl⟩)

/-- What `wake_one` leaves in the list was there. -/
theorem mem_of_mem_wakeOne (h : a ∈ (x.wakeOne e).1.list) : a ∈ x.list :=
  (firstWaiting_suffix e x.list).subset h

end Waiters

end RocNet
