import Mathlib.Data.List.Range
import RocNet.Library.Ledger
import RocNet.Analysis.ResourceWaiting

/-!
# Where the slots of a heap are

Every slot is in one place: the free list, a reservation, live, or being closed by a task that has
released its handle. Each step moves one slot at most from one place to another.
-/

namespace RocNet.Resource

open Ledger
open Sched (TaskId WaitId Woke)
open Function List State

variable {x : Layout} {maxTasks : ℕ} {s s' : State} {t u : TaskId} {l : Label} {i r : ℕ}

/-! ## Places -/

inductive Place
  | free
  | reserved (t : TaskId)
  | live
  | closing (t : TaskId)
  deriving DecidableEq, Repr

/-- The reservations of a task. -/
def State.reservations (s : State) (t : TaskId) : List ℕ := (s.ops t).slots ++ s.held t

def places (x : Layout) (s : State) : Place → List ℕ
  | .free => s.heap.free
  | .reserved t => s.reservations t
  | .live => (List.range x.capacity).filter s.heap.live
  | .closing t => (s.closing t).map Prod.fst

/-- Every slot is in one place, once. -/
def Conserved (x : Layout) (s : State) : Prop := Placed (places x s) (· < x.capacity)

lemma mem_live_iff : i ∈ places x s .live ↔ i < x.capacity ∧ s.heap.live i := by
  simp [places]

lemma Conserved.lt_of_reserved (h : Conserved x s) (hmem : i ∈ s.reservations t) : i < x.capacity := by
  have hlt := Placed.alive_of_mem (p := Place.reserved t) h hmem
  exact hlt

lemma Conserved.not_live_of_reserved (h : Conserved x s) (hmem : i ∈ s.reservations t) : s.heap.live i = false := by
  rw [← Bool.not_eq_true]
  intro hlive
  have hplace := Placed.place_unique h (show i ∈ places x s (.reserved t) from hmem)
    (mem_live_iff.mpr ⟨h.lt_of_reserved hmem, hlive⟩)
  cases hplace

/-! ## Moves -/

lemma Conserved.reserve (h : Conserved x s) (t : TaskId)
    (hperm : (s'.heap.free ++ s'.reservations t).Perm (s.heap.free ++ s.reservations t))
    (hothers : ∀ u ≠ t, s'.reservations u = s.reservations u) (hlive : s'.heap.live = s.heap.live)
    (hclosing : s'.closing = s.closing) : Conserved x s' := by
  refine Placed.move (p := .free) (q := .reserved t) h nofun ?_ hperm fun _ => Iff.rfl
  intro p hfree ht
  cases p with
  | free => exact absurd rfl hfree
  | reserved u => exact hothers u fun heq => ht (heq ▸ rfl)
  | live => simp only [places, hlive]
  | closing u => simp only [places, hclosing]

lemma filterMap_update_some {β : Type} {n : ℕ} {f : ℕ → Option β} {b : β} (hi : i < n) (hf : f i = none) :
    ((range n).filterMap (update f i (some b))).Perm (b :: (range n).filterMap f) := by
  induction n with
  | zero => omega
  | succ n ih =>
    simp only [range_succ, filterMap_append]
    by_cases hin : i = n
    · have hbelow : (range n).filterMap (update f i (some b)) = (range n).filterMap f := by
        apply filterMap_congr
        intro j hj
        rw [update_of_ne]
        have := mem_range.mp hj
        omega
      subst hin
      simp [hbelow, hf]
    · have hlast : update f i (some b) n = f n := update_of_ne (Ne.symm hin) _ _
      simp only [filterMap_cons, hlast]
      exact (ih (by omega)).append_right _

/-- The list of live slots, when one of them is added. -/
theorem filter_update_true {n : ℕ} {f : ℕ → Bool} (hi : i < n) (hf : f i = false) :
    ((range n).filter (update f i true)).Perm (i :: (range n).filter f) := by
  have hguard : Option.guard (update f i true) = update (Option.guard f) i (some i) := by
    funext j
    by_cases hj : j = i
    · simp [hj, Option.guard]
    · simp [hj, Option.guard]
  rw [← filterMap_eq_filter, ← filterMap_eq_filter, hguard]
  exact filterMap_update_some hi (by simp [Option.guard, hf])

lemma Conserved.occupy (h : Conserved x s) (hop : s.ops t = .inserts (i :: todo)) :
    Conserved x (s.occupy t i todo) := by
  have hmem : i ∈ s.reservations t := by simp [State.reservations, hop, Op.slots]
  refine Placed.move (p := .reserved t) (q := .live) h nofun ?_ ?_ fun _ => Iff.rfl
  · intro p ht hlive
    cases p with
    | free | closing u => rfl
    | reserved u =>
      have hne : u ≠ t := fun heq => ht (heq ▸ rfl)
      simp [places, State.reservations, hne]
    | live => exact absurd rfl hlive
  · have hlive := filter_update_true (h.lt_of_reserved hmem) (h.not_live_of_reserved hmem)
    have hafter : (s.occupy t i todo).reservations t = todo ++ s.held t := by
      simp [State.reservations, Op.slots]
    have hbefore : s.reservations t = i :: (todo ++ s.held t) := by
      simp [State.reservations, hop, Op.slots]
    simp only [places, hafter, hbefore, occupy_heap]
    exact (Perm.append_left _ hlive).trans perm_middle

lemma Conserved.vacate (h : Conserved x s) (hi : i < x.capacity) (hlive : s.heap.live i) (r : ℕ) :
    Conserved x (s.vacate t i r) := by
  refine Placed.move (p := .live) (q := .closing t) h nofun ?_ ?_ fun _ => Iff.rfl
  · intro p hlive ht
    cases p with
    | free | reserved u => rfl
    | live => exact absurd rfl hlive
    | closing u =>
      have hne : u ≠ t := fun heq => ht (heq ▸ rfl)
      simp [places, hne]
  · have hback : update (update s.heap.live i false) i true = s.heap.live := by
      rw [update_idem, ← hlive, update_eq_self]
    have hperm := filter_update_true (f := update s.heap.live i false) hi (by simp)
    rw [hback] at hperm
    simp only [places, vacate_heap, vacate_closing, update_self, map_cons]
    exact perm_middle.trans (Perm.append_right _ hperm.symm)

lemma Conserved.free (h : Conserved x s) (hclosing : s.closing t = (i, none) :: rest) :
    Conserved x ((s.setHeap (s.heap.freeSlot i)).setClosing t rest) := by
  refine Placed.move (p := .free) (q := .closing t) h nofun ?_ ?_ fun _ => Iff.rfl
  · intro p hfree ht
    cases p with
    | free => exact absurd rfl hfree
    | reserved u | live => rfl
    | closing u =>
      have hne : u ≠ t := fun heq => ht (heq ▸ rfl)
      simp [places, hne]
  · simp only [places, setClosing_heap, setHeap_heap, Heap.freeSlot_free,
      setClosing_closing, update_self, hclosing, map_cons]
    exact perm_middle.symm

lemma lt_of_baseIndex (hbase : x.baseIndex address = some i) : i < x.capacity := by
  unfold Layout.baseIndex at hbase
  split at hbase
  · split at hbase
    · next hslot =>
      cases hbase
      exact hslot.2
    · cases hbase
  · cases hbase

/-! ## Every step -/

lemma Conserved.same (h : Conserved x s) (hfree : s'.heap.free = s.heap.free)
    (hreserved : ∀ u, s'.reservations u = s.reservations u) (hlive : s'.heap.live = s.heap.live)
    (hclosing : ∀ u, (s'.closing u).map Prod.fst = (s.closing u).map Prod.fst) : Conserved x s' := by
  refine Placed.same h ?_ fun _ => Iff.rfl
  intro p
  cases p with
  | free => exact hfree
  | reserved u => exact hreserved u
  | live => simp only [places, hlive]
  | closing u => exact hclosing u

lemma Conserved.turn (h : Conserved x s) (t : TaskId) (hperm : (s'.heap.free ++ ((s'.ops t).slots ++ s'.held t)).Perm
      (s.heap.free ++ ((s.ops t).slots ++ s.held t))) (hothers : ∀ u ≠ t, s'.ops u = s.ops u ∧ s'.held u = s.held u)
    (hlive : s'.heap.live = s.heap.live) (hclosing : s'.closing = s.closing) : Conserved x s' := by
  apply h.reserve t hperm _ hlive hclosing
  intro u hne
  obtain ⟨hops, hheld⟩ := hothers u hne
  simp only [State.reservations, hops, hheld]

/-- The tasks that wait for a slot are in `reserve`. -/
def Reserving (s : State) : Prop := ∀ t, s.heap.parked t ≠ none → s.ops t = .reserving

/-- A task that is not in `reserve` does something else. -/
theorem Reserving.turn (h : Reserving s) (hop : s.ops t ≠ .reserving)
    (hparked : s'.heap.parked = s.heap.parked) (hops : ∀ u ≠ t, s'.ops u = s.ops u) : Reserving s' := by
  intro u hu
  rw [hparked] at hu
  by_cases heq : u = t
  · exact absurd (h t (heq ▸ hu)) hop
  · rw [hops u heq]
    exact h u hu

lemma Reserving.pass (h : Reserving s) (ht : s'.heap.parked t ≠ none → s'.ops t = .reserving)
    (hothers : ∀ u ≠ t, s'.heap.parked u = s.heap.parked u ∧ s'.ops u = s.ops u) : Reserving s' := by
  intro u hu
  obtain rfl | heq := eq_or_ne u t
  · exact ht hu
  · obtain ⟨hparked, hops⟩ := hothers u heq
    rw [hparked] at hu
    rw [hops]
    exact h u hu

lemma Reserving.step (h : Reserving s) (hstep : Step x maxTasks s l s') : Reserving s' := by
  cases hstep with
  | refused | cancel | claim | tryReserve | drop | release | close | free | taskEnds => exact h
  | @enterGot t i rest hop hparked hfree =>
    exact h.pass (t := t) (by simp [hparked]) (by simp +contextual)
  | @enterWaiting t hop hparked hfree =>
    exact h.pass (t := t) (fun _ => hop) (by simp +contextual)
  | @relockGot t _ id i w rest hparked hfree | @relockCancelled t _ id w hparked hwait | @reserve t hop =>
    exact h.pass (t := t) (by simp) (by simp +contextual)
  | @relockWaiting t _ id w hparked hfree =>
    exact h.pass (t := t) (fun _ => h t (by simp [hparked])) (by simp +contextual)
  | @insert t _ hop | @channelNew t _ _ hop | @taskSpawn t hop | @spawnedOk t _ hop
  | @spawnedFail t _ hop | @occupy t _ _ hop | @store t _ _ _ _ hop | @stamp t _ _ _ _ hop
  | @channelSecond t _ _ _ hop | @channelFull t _ hop | @channelBack t _ hop | @spawnTake t _ _ hop
  | @spawnFull t hop | @spawnUncount t hop | @spawnUndo t _ hop | @spawnBack t _ hop =>
    exact h.turn (t := t) (by simp [hop]) rfl (by simp +contextual)

lemma Conserved.step (h : Conserved x s) (hreserving : Reserving s) (hstep : Step x maxTasks s l s') :
    Conserved x s' := by
  cases hstep with
  | refused | cancel | claim | taskEnds => exact h
  | enterWaiting | relockWaiting => exact h.same rfl (fun _ => rfl) rfl fun _ => rfl
  | @tryReserve t i rest hop hfree =>
    refine h.turn t ?_ (by simp +contextual) rfl rfl
    simp [hop, hfree, Op.slots, perm_middle]
  | @enterGot t i rest hop hparked hfree | @channelNew t a rest hop hfree | @spawnTake t a rest hop hfree =>
    refine h.turn t ?_ (by simp +contextual) rfl rfl
    simp [hfree, hop, Op.slots, perm_middle]
  | @relockGot t reported id i w rest hparked hfree =>
    have hop := hreserving t (by simp [hparked])
    refine h.turn t ?_ (by simp +contextual) rfl rfl
    simp [hfree, hop, Op.slots, perm_middle]
  | @relockCancelled t reported id w hparked hwait =>
    have hop := hreserving t (by simp [hparked])
    refine h.turn t ?_ (by simp +contextual) rfl rfl
    simp [hop, Op.slots]
  | @insert t i hop hmem =>
    refine h.turn t ?_ (by simp +contextual) rfl rfl
    simpa [hop, Op.slots] using (perm_cons_erase hmem).symm.append_left s.heap.free
  | @drop t i hop hmem =>
    refine h.turn t ?_ (by simp +contextual) rfl rfl
    have herase := (perm_cons_erase hmem).symm
    simpa [hop, Op.slots] using perm_middle.symm.trans (herase.append_left s.heap.free)
  | release hop hbase howner hlive => exact h.vacate (lt_of_baseIndex hbase) hlive _
  | @close t i r rest hop hclosing =>
    refine h.same rfl (fun _ => rfl) rfl fun u => ?_
    by_cases hu : u = t
    · simp [hu, hclosing]
    · simp [hu]
  | free hop hclosing => exact h.free hclosing
  | @reserve t hop | @taskSpawn t hop _ | @spawnFull t hop _ | @spawnUncount t hop | @spawnedOk t _ hop
  | @spawnedFail t _ hop | @spawnUndo t _ hop | @store t _ _ _ _ hop | @channelFull t _ hop _ =>
    refine h.turn t ?_ (by simp +contextual) rfl rfl
    simp [hop, Op.slots]
  | occupy hop => exact h.occupy hop
  | @stamp t i r g todo hop =>
    refine h.turn t ?_ (by simp +contextual) rfl rfl
    by_cases htodo : todo = [] <;> simp [hop, htodo, Op.slots]
  | @channelSecond t a b rest hop hfree =>
    refine h.turn t ?_ (by simp +contextual) rfl rfl
    have hfirst : (rest ++ a :: b :: s.held t).Perm (rest ++ b :: a :: s.held t) :=
      (Perm.swap b a _).append_left rest
    simpa [hfree, hop, Op.slots] using hfirst.trans perm_middle
  | @channelBack t a hop | @spawnBack t a hop =>
    refine h.turn t ?_ (by simp +contextual) rfl rfl
    simpa [hop, Op.slots] using perm_middle.symm

lemma reserving_initial : Reserving (initial x) := by
  intro t ht
  exact absurd rfl ht

lemma conserved_initial : Conserved x (initial x) := by
  have hother : ∀ p ≠ Place.free, places x (initial x) p = [] := by
    intro p hp
    cases p with
    | free => exact absurd rfl hp
    | reserved u | closing u => rfl
    | live => exact filter_eq_nil_iff.mpr fun _ _ => by simp [initial, Heap.new]
  intro i
  refine ⟨fun hi => ⟨.free, fun p => ?_⟩, fun hi p => ?_⟩
  · by_cases hp : p = .free
    · rw [hp, if_pos rfl]
      exact count_eq_one_of_mem nodup_range (mem_range.mpr hi)
    · rw [hother p hp, if_neg hp, count_nil]
  · by_cases hp : p = .free
    · rw [hp, count_eq_zero]
      exact fun hmem => hi (mem_range.mp hmem)
    · rw [hother p hp, count_nil]

end RocNet.Resource
