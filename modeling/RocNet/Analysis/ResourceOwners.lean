import RocNet.Analysis.ResourceSlots

/-!
# Where the resources of a heap are

An inserted resource is in one place: being stored by its `insert`, owned by the holder of its handle, about to be
dropped by a task that released the handle, or dropped.
-/

namespace RocNet.Resource

open Ledger
open Sched (TaskId WaitId Woke)
open Function List State

variable {x : Layout} {maxTasks : ℕ} {s s' : State} {t u : TaskId} {l : Label} {i j r : ℕ} {g : UInt64}

/-! ## What a step does about resources -/

/-- The slot, resource and generation of an `insert` that has not returned. -/
def Op.making : Op → Option (ℕ × ℕ × UInt64)
  | .storing i r g _ | .stamping i r g _ => some (i, r, g)
  | _ => Option.none

/-- The slots a task is closing, with the resources it is yet to drop. -/
def State.pending (s : State) (t : TaskId) : List (ℕ × ℕ) :=
  (s.closing t).filterMap fun e => e.2.map fun r => (e.1, r)

/-- Nothing happens to any resource. -/
structure Quiet (s s' : State) : Prop where
  slots : s'.slots = s.slots
  owner : s'.owner = s.owner
  issued : s'.issued = s.issued
  released : s'.released = s.released
  dropped : s'.dropped = s.dropped
  generations : s'.heap.generations = s.heap.generations
  live : s'.heap.live = s.heap.live
  ops : ∀ t, s'.ops t = s.ops t ∨ (s'.ops t).making = none ∧ (s.ops t).making = none
  pending : ∀ t, s'.pending t = s.pending t

/-- The steps that are about a resource, and the others. -/
inductive Turn (x : Layout) (s : State) : State → Prop
  | quiet {s' : State} (h : Quiet s s') : Turn x s s'
  | occupy {t : TaskId} {i : ℕ} {todo : List ℕ} (hop : s.ops t = .inserts (i :: todo)) : Turn x s (s.occupy t i todo)
  | store {t : TaskId} {i r : ℕ} {g : UInt64} {todo : List ℕ} (hop : s.ops t = .storing i r g todo) :
      Turn x s ((s.setSlot i ⟨(s.slots i).token, some r⟩).setOp t (.stamping i r g todo))
  | stamp {t : TaskId} {i r : ℕ} {g : UInt64} {todo : List ℕ} (hop : s.ops t = .stamping i r g todo) :
      Turn x s (s.stamp t i r g todo)
  | release {t : TaskId} {i r : ℕ} (hlt : i < x.capacity) (howner : s.owner i = some r) : Turn x s (s.vacate t i r)
  | close {t : TaskId} {i r : ℕ} {rest : List (ℕ × Option ℕ)}
      (hclosing : s.closing t = (i, some r) :: rest) :
      Turn x s { s.setClosing t ((i, none) :: rest) with dropped := s.dropped ++ [r] }

lemma quiet_of_op (hop : s.ops t = o') (hbefore : o'.making = none) (hafter : o.making = none) :
    ∀ u, update s.ops t o u = s.ops u ∨ (update s.ops t o u).making = none ∧ (s.ops u).making = none := by
  intro u
  obtain rfl | hu := eq_or_ne u t
  · right
    simp [hop, hbefore, hafter]
  · left
    simp [hu]

lemma Step.turn (hreserving : Reserving s) (hstep : Step x maxTasks s l s') : Turn x s s' := by
  cases hstep with
  | occupy hop => exact .occupy hop
  | store hop => exact .store hop
  | stamp hop => exact .stamp hop
  | release _ hbase howner hlive => exact .release (lt_of_baseIndex hbase) howner
  | close _ hclosing => exact .close hclosing
  | refused | cancel | claim | tryReserve | enterWaiting | relockWaiting | drop | taskEnds =>
    exact .quiet ⟨rfl, rfl, rfl, rfl, rfl, rfl, rfl, fun _ => .inl rfl, fun _ => rfl⟩
  | @free t i rest hop hclosing =>
    refine .quiet ⟨rfl, rfl, rfl, rfl, rfl, rfl, rfl, fun _ => .inl rfl, fun u => ?_⟩
    by_cases hu : u = t
    · simp [State.pending, hu, hclosing]
    · simp [State.pending, hu]
  | @relockGot t _ id i w rest hparked hfree | @relockCancelled t _ id w hparked hwait =>
    have hop := hreserving t (by simp [hparked])
    exact .quiet ⟨rfl, rfl, rfl, rfl, rfl, rfl, rfl, quiet_of_op hop rfl rfl, fun _ => rfl⟩
  | reserve hop | enterGot hop | insert hop | channelNew hop | taskSpawn hop | spawnedOk hop
  | spawnedFail hop | channelSecond hop | channelFull hop | channelBack hop | spawnTake hop
  | spawnFull hop | spawnUncount hop | spawnUndo hop | spawnBack hop =>
    exact .quiet ⟨rfl, rfl, rfl, rfl, rfl, rfl, rfl, quiet_of_op hop rfl rfl, fun _ => rfl⟩

/-! ## What was issued for a slot -/

def slotOf (issued : List (ℕ × UInt64)) (r : ℕ) : Option ℕ := issued[r]?.map Prod.fst

/-- The resource is the last one that was inserted into the slot. -/
def Latest (issued : List (ℕ × UInt64)) (i r : ℕ) : Prop :=
  slotOf issued r = some i ∧ ∀ r', r < r' → slotOf issued r' ≠ some i

section Issued

variable {issued : List (ℕ × UInt64)}

lemma slotOf_lt (h : slotOf issued r = some i) : r < issued.length := by
  obtain ⟨e, he, -⟩ := Option.map_eq_some_iff.mp h
  exact List.getElem?_eq_some_iff.mp he |>.1

lemma slotOf_append_of_lt (hr : r < issued.length) : slotOf (issued ++ [e]) r = slotOf issued r := by
  rw [slotOf, List.getElem?_append_left hr]
  rfl

lemma slotOf_append_length : slotOf (issued ++ [e]) issued.length = some e.1 := by
  rw [slotOf, List.getElem?_concat_length]
  rfl

lemma Latest.unique (h : Latest issued i r) (h' : Latest issued i r') : r = r' := by
  rcases Nat.lt_trichotomy r r' with hlt | heq | hgt
  · exact absurd h'.1 (h.2 r' hlt)
  · exact heq
  · exact absurd h.1 (h'.2 r hgt)

lemma latest_append_self : Latest (issued ++ [(i, g)]) i issued.length := by
  refine ⟨slotOf_append_length, fun r' hlt heq => ?_⟩
  have := slotOf_lt heq
  simp at this
  omega

lemma latest_append_of_ne (hne : j ≠ i) : Latest (issued ++ [(j, g)]) i r ↔ Latest issued i r := by
  have hslot : ∀ r', slotOf (issued ++ [(j, g)]) r' = some i ↔ slotOf issued r' = some i := by
    intro r'
    rcases Nat.lt_trichotomy r' issued.length with hlt | heq | hgt
    · rw [slotOf_append_of_lt hlt]
    · subst heq
      rw [slotOf_append_length]
      simp [slotOf, hne]
    · have hbeyond : (issued ++ [(j, g)]).length ≤ r' := by
        rw [length_append, length_singleton]
        omega
      simp [slotOf, List.getElem?_eq_none hbeyond, List.getElem?_eq_none hgt.le]
  simp only [Latest, ne_eq, hslot]

end Issued

/-! ## Every resource is somewhere -/

inductive Spot
  | making (t : TaskId)
  | owned
  | closing (t : TaskId)
  | dropped
  deriving DecidableEq, Repr

def spots (x : Layout) (s : State) : Spot → List ℕ
  | .making t => (s.ops t).making.toList.map fun e => e.2.1
  | .owned => (List.range x.capacity).filterMap s.owner
  | .closing t => (s.pending t).map Prod.snd
  | .dropped => s.dropped

def Accounted (x : Layout) (s : State) : Prop := Placed (spots x s) (· < s.issued.length)

/-- What the slots hold. -/
structure Filled (x : Layout) (s : State) : Prop where
  maker : ∀ {t i r g}, (s.ops t).making = some (i, r, g) →
    i < x.capacity ∧ s.heap.live i = true ∧ Latest s.issued i r ∧ g = s.heap.generations i
  stored : ∀ {t i r g todo}, s.ops t = .stamping i r g todo → (s.slots i).resource = some r
  owner : ∀ {i r}, s.owner i = some r → i < x.capacity ∧ s.heap.live i = true ∧ Latest s.issued i r ∧
    s.slots i = ⟨token (s.heap.generations i) i, some r⟩
  holder : ∀ {i}, s.heap.live i = true → (∃ r, s.owner i = some r) ∨ ∃ t r g, (s.ops t).making = some (i, r, g)
  pending : ∀ {t i r}, (i, r) ∈ s.pending t → slotOf s.issued r = some i
  latest : ∀ {i r}, Latest s.issued i r → s.issued[r]?.map Prod.snd = some (s.heap.generations i)

lemma mem_owned (h : Filled x s) (howner : s.owner i = some r) : r ∈ spots x s .owned :=
  mem_filterMap.mpr ⟨i, mem_range.mpr (h.owner howner).1, howner⟩

lemma mem_making (hmaking : (s.ops t).making = some (i, r, g)) : r ∈ spots x s (.making t) := by
  simp [spots, hmaking]

lemma Filled.owner_eq_none (h : Filled x s) (haccounted : Accounted x s)
    (hmaking : (s.ops t).making = some (i, r, g)) : s.owner i = none := by
  cases howner : s.owner i with
  | none => rfl
  | some r' =>
    obtain rfl := (h.owner howner).2.2.1.unique (h.maker hmaking).2.2.1
    have hspot := Placed.place_unique haccounted (mem_owned h howner) (mem_making hmaking)
    cases hspot

lemma Filled.maker_unique (h : Filled x s) (haccounted : Accounted x s) (hmaking : (s.ops t).making = some (i, r, g))
    (hother : (s.ops u).making = some (i, r', g')) : u = t := by
  obtain rfl := (h.maker hmaking).2.2.1.unique (h.maker hother).2.2.1
  have hspot := Placed.place_unique haccounted (mem_making hmaking) (mem_making hother)
  cases hspot
  rfl

lemma Accounted.turn (h : Accounted x s) (hfilled : Filled x s) (hturn : Turn x s s') : Accounted x s' := by
  cases hturn with
  | quiet hquiet =>
    refine Placed.same h ?_ fun _ => by rw [hquiet.issued]
    intro p
    cases p with
    | making t =>
      rcases hquiet.ops t with heq | ⟨hafter, hbefore⟩
      · simp only [spots, heq]
      · simp only [spots, hafter, hbefore]
    | owned => simp only [spots, hquiet.owner]
    | closing t => simp only [spots, hquiet.pending]
    | dropped => exact hquiet.dropped
  | @occupy t i todo hop =>
    refine Placed.enter (p := .making t) (t := s.issued.length) h (lt_irrefl _) ?_ ?_ ?_
    · intro p hp
      cases p with
      | making u =>
        have hne : u ≠ t := fun heq => hp (heq ▸ rfl)
        simp [spots, hne]
      | _ => rfl
    · simp [spots, hop, Op.making]
    · intro u
      rw [occupy_issued, length_append, length_singleton]
      omega
  | @store t i r g todo hop =>
    refine Placed.same h ?_ fun _ => Iff.rfl
    intro p
    cases p with
    | making u =>
      by_cases hu : u = t
      · simp [spots, hu, hop, Op.making]
      · simp [spots, hu]
    | _ => rfl
  | @stamp t i r g todo hop =>
    have hmaking : (s.ops t).making = some (i, r, g) := by rw [hop]; rfl
    have hdone : (if todo = [] then Op.none else Op.inserts todo).making = none := by
      split <;> rfl
    refine Placed.move (p := .making t) (q := .owned) h nofun ?_ ?_ fun _ => Iff.rfl
    · intro p ht howned
      cases p with
      | making u =>
        have hne : u ≠ t := fun heq => ht (heq ▸ rfl)
        simp [spots, hne]
      | owned => exact absurd rfl howned
      | _ => rfl
    · have howned := filterMap_update_some (b := r) (hfilled.maker hmaking).1 (hfilled.owner_eq_none h hmaking)
      simpa [spots, hdone, hmaking] using howned
  | @release t i r hlt howner =>
    have hresource : (s.slots i).resource = some r := by rw [(hfilled.owner howner).2.2.2]
    refine Placed.move (p := .owned) (q := .closing t) h nofun ?_ ?_ fun _ => Iff.rfl
    · intro p howned ht
      cases p with
      | owned => exact absurd rfl howned
      | closing u =>
        have hne : u ≠ t := fun heq => ht (heq ▸ rfl)
        simp [spots, State.pending, hne]
      | _ => rfl
    · have hback : update (update s.owner i none) i (some r) = s.owner := by
        rw [update_idem, ← howner, update_eq_self]
      have hperm := filterMap_update_some (f := update s.owner i none) (b := r) hlt (by simp)
      rw [hback] at hperm
      have hpending : (s.vacate t i r).pending t = (i, r) :: s.pending t := by
        simp [State.pending, hresource]
      simp only [spots, hpending, vacate_owner, map_cons]
      exact perm_middle.trans (hperm.symm.append_right _)
  | @close t i r rest hclosing =>
    refine Placed.move (p := .closing t) (q := .dropped) h nofun ?_ ?_ fun _ => Iff.rfl
    · intro p ht hdropped
      cases p with
      | dropped => exact absurd rfl hdropped
      | closing u =>
        have hne : u ≠ t := fun heq => ht (heq ▸ rfl)
        simp [spots, State.pending, hne]
      | _ => rfl
    · simp only [spots, State.pending, setClosing_closing, update_self, hclosing,
        filterMap_cons, Option.map_none, Option.map_some, map_cons, ← append_assoc]
      exact perm_append_singleton _ _

/-! ## What the slots hold -/

section

variable (h : Filled x s)

include h

lemma Filled.quiet (hquiet : Quiet s s') : Filled x s' where
  maker := by
    intro t i r g hmaking
    rcases hquiet.ops t with heq | ⟨hnone, -⟩
    · rw [hquiet.live, hquiet.issued, hquiet.generations]
      exact h.maker (heq ▸ hmaking)
    · rw [hnone] at hmaking
      cases hmaking
  stored := by
    intro t i r g todo hop
    rcases hquiet.ops t with heq | ⟨hnone, -⟩
    · rw [hquiet.slots]
      exact h.stored (heq ▸ hop)
    · rw [hop] at hnone
      cases hnone
  owner := by
    rw [hquiet.owner, hquiet.live, hquiet.issued, hquiet.generations, hquiet.slots]
    exact h.owner
  holder := by
    intro i hlive
    rw [hquiet.live] at hlive
    rw [hquiet.owner]
    rcases h.holder hlive with howner | ⟨t, r, g, hmaking⟩
    · exact .inl howner
    · rcases hquiet.ops t with heq | ⟨-, hnone⟩
      · exact .inr ⟨t, r, g, heq ▸ hmaking⟩
      · rw [hnone] at hmaking
        cases hmaking
  pending := by
    intro t i r
    rw [hquiet.pending, hquiet.issued]
    exact h.pending
  latest := by
    rw [hquiet.issued, hquiet.generations]
    exact h.latest

lemma Filled.occupy (hop : s.ops t = .inserts (i :: todo)) (hlt : i < x.capacity) (hdead : s.heap.live i = false) :
    Filled x (s.occupy t i todo) := by
  have hne : ∀ {j}, s.heap.live j → j ≠ i := by
    rintro j hlive rfl
    simp [hdead] at hlive
  have hkeep : ∀ {j r}, s.heap.live j = true → Latest s.issued j r →
      (s.occupy t i todo).heap.live j = true ∧ Latest (s.occupy t i todo).issued j r ∧
        (s.occupy t i todo).heap.generations j = s.heap.generations j := by
    intro j r hlive hlatest
    refine ⟨?_, ?_, ?_⟩
    · simp [hlive, update_apply]
    · exact (latest_append_of_ne (hne hlive).symm).mpr hlatest
    · simp [hne hlive]
  refine ⟨?_, ?_, ?_, ?_, ?_, ?_⟩
  · intro u j r g hmaking
    obtain rfl | hu := eq_or_ne u t
    · simp only [occupy_ops, update_self, Op.making, Option.some.injEq, Prod.mk.injEq] at hmaking
      obtain ⟨rfl, rfl, rfl⟩ := hmaking
      exact ⟨hlt, by simp, latest_append_self, by simp⟩
    · simp only [occupy_ops, update_of_ne hu] at hmaking
      obtain ⟨hj, hlive, hlatest, hg⟩ := h.maker hmaking
      obtain ⟨hlive', hlatest', hg'⟩ := hkeep hlive hlatest
      exact ⟨hj, hlive', hlatest', hg.trans hg'.symm⟩
  · intro u j r g todo' hstamping
    by_cases hu : u = t
    · simp [hu] at hstamping
    · simp only [occupy_ops, update_of_ne hu] at hstamping
      exact h.stored hstamping
  · intro j r howner
    obtain ⟨hj, hlive, hlatest, hslot⟩ := h.owner howner
    obtain ⟨hlive', hlatest', hg'⟩ := hkeep hlive hlatest
    exact ⟨hj, hlive', hlatest', hg' ▸ hslot⟩
  · intro j hlive
    obtain rfl | hj := eq_or_ne j i
    · exact .inr ⟨t, _, _, by simp [Op.making]; exact ⟨rfl, rfl⟩⟩
    · have hbefore : s.heap.live j := by simpa [hj] using hlive
      rcases h.holder hbefore with howner | ⟨u, r, g, hmaking⟩
      · exact .inl howner
      · have hu : u ≠ t := by
          rintro rfl
          simp [hop, Op.making] at hmaking
        exact .inr ⟨u, r, g, by simpa [hu] using hmaking⟩
  · intro u j r hmem
    have hslot := h.pending hmem
    exact (slotOf_append_of_lt (slotOf_lt hslot)).trans hslot
  · intro j r hlatest
    obtain rfl | hj := eq_or_ne j i
    · obtain rfl := hlatest.unique latest_append_self
      simp
    · have hbefore := (latest_append_of_ne (Ne.symm hj)).mp hlatest
      have hget := h.latest hbefore
      simp only [occupy_issued, List.getElem?_append_left (slotOf_lt hbefore.1), hget]
      simp [hj]

lemma Filled.store (haccounted : Accounted x s) (hop : s.ops t = .storing i r g todo) :
    Filled x ((s.setSlot i ⟨(s.slots i).token, some r⟩).setOp t (.stamping i r g todo)) := by
  have hmaking : (s.ops t).making = some (i, r, g) := by rw [hop]; rfl
  have hsame : ∀ u, (((s.setSlot i ⟨(s.slots i).token, some r⟩).setOp t (.stamping i r g todo)).ops u).making =
      (s.ops u).making := by
    intro u
    by_cases hu : u = t
    · simp [hu, hop, Op.making]
    · simp [hu]
  refine ⟨?_, ?_, ?_, ?_, h.pending, h.latest⟩
  · intro u j r' g' hu
    rw [hsame] at hu
    exact h.maker hu
  · intro u j r' g' todo' hstamping
    by_cases hu : u = t
    · simp only [hu, setOp_ops, update_self, Op.stamping.injEq] at hstamping
      obtain ⟨rfl, rfl, -, -⟩ := hstamping
      simp
    · have hbefore : s.ops u = .stamping j r' g' todo' := by simpa [hu] using hstamping
      have hj : j ≠ i := by
        rintro rfl
        exact hu (h.maker_unique haccounted hmaking (by rw [hbefore]; rfl))
      simpa [hj] using h.stored hbefore
  · intro j r' howner
    have hbefore : s.owner j = some r' := howner
    have hj : j ≠ i := by
      rintro rfl
      rw [h.owner_eq_none haccounted hmaking] at hbefore
      cases hbefore
    simpa [hj] using h.owner hbefore
  · intro j hlive
    rcases h.holder hlive with howner | ⟨u, r', g', hu⟩
    · exact .inl howner
    · exact .inr ⟨u, r', g', (hsame u).trans hu⟩

lemma Filled.stamp (hop : s.ops t = .stamping i r g todo) : Filled x (s.stamp t i r g todo) := by
  have hmaking : (s.ops t).making = some (i, r, g) := by rw [hop]; rfl
  obtain ⟨hlt, hlive, hlatest, hg⟩ := h.maker hmaking
  have hdone : (if todo = [] then Op.none else Op.inserts todo).making = none := by
    split <;> rfl
  refine ⟨?_, ?_, ?_, ?_, h.pending, h.latest⟩
  · intro u j r' g' hu
    by_cases hut : u = t
    · simp [hut, hdone] at hu
    · simp only [stamp_ops, update_of_ne hut] at hu
      exact h.maker hu
  · intro u j r' g' todo' hstamping
    by_cases hut : u = t
    · have hnone := hdone
      simp only [hut, stamp_ops, update_self] at hstamping
      rw [hstamping] at hnone
      cases hnone
    · simp only [stamp_ops, update_of_ne hut] at hstamping
      have hbefore := h.stored hstamping
      obtain rfl | hj := eq_or_ne j i
      · simpa using hbefore
      · simpa [hj] using hbefore
  · intro j r' howner
    obtain rfl | hj := eq_or_ne j i
    · obtain rfl : r = r' := by simpa using howner
      refine ⟨hlt, hlive, hlatest, ?_⟩
      simp [← hg, h.stored hop]
    · have hbefore : s.owner j = some r' := by simpa [hj] using howner
      simpa [hj] using h.owner hbefore
  · intro j hlive'
    by_cases hj : j = i
    · exact .inl ⟨r, by simp [hj]⟩
    · rcases h.holder hlive' with ⟨r', howner⟩ | ⟨u, r', g', hu⟩
      · exact .inl ⟨r', by simpa [hj] using howner⟩
      · have hut : u ≠ t := by
          rintro rfl
          rw [hmaking] at hu
          cases hu
          exact hj rfl
        exact .inr ⟨u, r', g', by simpa [hut] using hu⟩

lemma Filled.release (haccounted : Accounted x s) (howner : s.owner i = some r) : Filled x (s.vacate t i r) := by
  obtain ⟨hlt, hlive, hlatest, hslot⟩ := h.owner howner
  have hkeep : ∀ {j}, j ≠ i → (s.vacate t i r).heap.live j = s.heap.live j := by
    intro j hj
    simp [hj]
  refine ⟨?_, h.stored, ?_, ?_, ?_, h.latest⟩
  · intro u j r' g' hmaking
    have hbefore : (s.ops u).making = some (j, r', g') := hmaking
    have hj : j ≠ i := by
      rintro rfl
      rw [h.owner_eq_none haccounted hbefore] at howner
      cases howner
    rw [hkeep hj]
    exact h.maker hbefore
  · intro j r' howner'
    have hj : j ≠ i := by
      rintro rfl
      simp at howner'
    rw [hkeep hj]
    exact h.owner (by simpa [hj] using howner')
  · intro j hlive'
    have hj : j ≠ i := by
      rintro rfl
      simp at hlive'
    rw [hkeep hj] at hlive'
    rcases h.holder hlive' with ⟨r', howner'⟩ | hmaking
    · exact .inl ⟨r', by simpa [hj] using howner'⟩
    · exact .inr hmaking
  · intro u j r' hmem
    by_cases hu : u = t
    · have hpending : (s.vacate t i r).pending t = (i, r) :: s.pending t := by
        simp [State.pending, hslot]
      rw [hu, hpending] at hmem
      rcases mem_cons.mp hmem with heq | hbefore
      · cases heq
        exact hlatest.1
      · exact h.pending hbefore
    · exact h.pending (t := u) (by simpa [State.pending, hu] using hmem)

lemma Filled.close (hclosing : s.closing t = (i, some r) :: rest) :
    Filled x { s.setClosing t ((i, none) :: rest) with dropped := s.dropped ++ [r] } := by
  refine ⟨h.maker, h.stored, h.owner, h.holder, ?_, h.latest⟩
  intro u j r' hmem
  obtain rfl | hu := eq_or_ne u t
  · have hbefore : (j, r') ∈ s.pending u := by
      simp only [State.pending, hclosing, filterMap_cons, Option.map_some]
      apply mem_cons_of_mem
      simpa [State.pending] using hmem
    exact h.pending hbefore
  · exact h.pending (t := u) (by simpa [State.pending, hu] using hmem)

lemma Filled.turn (haccounted : Accounted x s) (hconserved : Conserved x s) (hturn : Turn x s s') : Filled x s' := by
  cases hturn with
  | quiet hquiet => exact h.quiet hquiet
  | @occupy t i todo hop =>
    have hmem : i ∈ s.reservations t := by simp [State.reservations, hop, Op.slots]
    exact h.occupy hop (hconserved.lt_of_reserved hmem) (hconserved.not_live_of_reserved hmem)
  | store hop => exact h.store haccounted hop
  | stamp hop => exact h.stamp hop
  | release hlt howner => exact h.release haccounted howner
  | close hclosing => exact h.close hclosing

end

def Released (x : Layout) (s : State) : Prop :=
  ∀ r, r ∈ s.released ↔ (∃ t, r ∈ spots x s (.closing t)) ∨ r ∈ s.dropped

lemma exists_closing_iff (hothers : ∀ u ≠ t, s'.closing u = s.closing u) : (∃ u, r ∈ spots x s' (.closing u)) ↔
      r ∈ spots x s' (.closing t) ∨ ∃ u, u ≠ t ∧ r ∈ spots x s (.closing u) := by
  have hspot : ∀ u ≠ t, spots x s' (.closing u) = spots x s (.closing u) := by
    intro u hu
    simp only [spots, State.pending, hothers u hu]
  constructor
  · rintro ⟨u, hu⟩
    by_cases heq : u = t
    · exact .inl (heq ▸ hu)
    · exact .inr ⟨u, heq, hspot u heq ▸ hu⟩
  · rintro (ht | ⟨u, hne, hu⟩)
    · exact ⟨t, ht⟩
    · exact ⟨u, (hspot u hne).symm ▸ hu⟩

lemma Released.turn (h : Released x s) (hfilled : Filled x s) (hturn : Turn x s s') : Released x s' := by
  intro r'
  have hbefore := h r'
  cases hturn with
  | quiet hquiet => simpa only [spots, hquiet.released, hquiet.dropped, hquiet.pending] using hbefore
  | occupy | store | stamp => exact hbefore
  | @release t i r hlt howner =>
    have hresource : (s.slots i).resource = some r := by rw [(hfilled.owner howner).2.2.2]
    have ht : r' ∈ spots x (s.vacate t i r) (.closing t) ↔ r' = r ∨ r' ∈ spots x s (.closing t) := by
      simp [spots, State.pending, hresource]
    rw [exists_closing_iff (t := t) fun _ _ => rfl] at hbefore
    rw [exists_closing_iff (s := s) (t := t) (by simp +contextual), ht, vacate_released,
      vacate_dropped, mem_append, mem_singleton, hbefore]
    simp only [or_comm, or_assoc, or_left_comm]
  | @close t i r rest hclosing =>
    have ht : r' ∈ spots x s (.closing t) ↔ r' = r ∨ r' ∈ spots x
        { s.setClosing t ((i, none) :: rest) with dropped := s.dropped ++ [r] } (.closing t) := by
      simp [spots, State.pending, hclosing]
    rw [exists_closing_iff (t := t) fun _ _ => rfl, ht] at hbefore
    rw [exists_closing_iff (s := s) (t := t) (by simp +contextual), mem_append, mem_singleton]
    refine hbefore.trans ?_
    simp only [or_comm, or_assoc, or_left_comm]

/-! ## Every run -/

/-- What is true of a heap at any time. -/
structure Sound (x : Layout) (s : State) : Prop where
  reserving : Reserving s
  conserved : Conserved x s
  accounted : Accounted x s
  filled : Filled x s
  released : Released x s

lemma Sound.step (h : Sound x s) (hstep : step x maxTasks s l = some s') : Sound x s' := by
  have hcases := step_cases hstep
  have hturn := hcases.turn h.reserving
  exact
    { reserving := h.reserving.step hcases
      conserved := h.conserved.step h.reserving hcases
      accounted := h.accounted.turn h.filled hturn
      filled := h.filled.turn h.accounted h.conserved hturn
      released := h.released.turn h.filled hturn }

lemma sound_initial : Sound x (initial x) where
  reserving := reserving_initial
  conserved := conserved_initial
  accounted := by
    have hempty : ∀ p, spots x (initial x) p = [] := by
      intro p
      cases p with
      | owned => exact filterMap_eq_nil_iff.mpr fun _ _ => rfl
      | _ => rfl
    intro r
    refine ⟨fun hr => absurd hr (Nat.not_lt_zero r), fun _ p => ?_⟩
    rw [hempty p, count_nil]
  filled := by
    refine ⟨nofun, nofun, nofun, nofun, nofun, ?_⟩
    intro i r hlatest
    exact absurd (slotOf_lt hlatest.1) (Nat.not_lt_zero r)
  released := by
    intro r
    simp [spots, State.pending, initial]

lemma sound_of_reachable (hreach : Transition.Reachable (system x maxTasks) s) : Sound x s := by
  refine Transition.Reachable.invariant ?_ ?_ hreach
  · rintro _ rfl
    exact sound_initial
  · intro a l b hsound hstep
    exact hsound.step hstep

end RocNet.Resource
