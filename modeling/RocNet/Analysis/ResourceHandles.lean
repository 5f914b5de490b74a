import Mathlib.Data.Nat.Bitwise
import RocNet.Analysis.ResourceOwners

/-!
# Looking up a handle

`get` compares the token of the slot that the handle points to with the slot's own generation. A handle gives its
resource while it is held, and nothing once it was released, as long as no later `insert` uses its slot.
-/

namespace RocNet.Resource

open Option Ledger
open Sched (TaskId)
open Transition

variable {x : Layout} {maxTasks : ℕ} {s s' : State} {t : TaskId} {l : Label} {i r : ℕ} {g : UInt64}

/-! ## Tokens -/

lemma toNat_token (hi : i < 2 ^ 16) : (token g i).toNat = (g.toNat <<< 16 % 2 ^ 64) ||| i := by
  have hmod : i % 2 ^ 64 = i := Nat.mod_eq_of_lt (by omega)
  rw [token, UInt64.toNat_or, UInt64.toNat_shiftLeft, UInt64.toNat_ofNat', hmod]
  rfl

lemma token_index (hi : i < 2 ^ 16) : token g i &&& indexMask = UInt64.ofNat i := by
  have hshift : g.toNat <<< 16 % 2 ^ 64 % 2 ^ 16 = 0 := by
    rw [Nat.shiftLeft_eq]
    omega
  have hmask : indexMask.toNat = 2 ^ 16 - 1 := rfl
  apply UInt64.toNat_inj.mp
  rw [UInt64.toNat_and, toNat_token hi, hmask, Nat.and_two_pow_sub_one_eq_mod, Nat.or_mod_two_pow, hshift,
    Nat.zero_or, UInt64.toNat_ofNat']
  omega

lemma toNat_token_shiftRight (hi : i < 2 ^ 16) : (token g i >>> 16).toNat = g.toNat % 2 ^ 48 := by
  have hlow : i >>> 16 = 0 := by
    rw [Nat.shiftRight_eq_div_pow]
    omega
  have hsixteen : (16 : UInt64).toNat % 64 = 16 := rfl
  rw [UInt64.toNat_shiftRight, toNat_token hi, hsixteen, Nat.shiftRight_or_distrib, hlow, Nat.or_zero,
    Nat.shiftLeft_eq, Nat.shiftRight_eq_div_pow]
  omega

lemma token_generation_iff (hi : i < 2 ^ 16) : token g i >>> 16 = g ↔ g.toNat < 2 ^ 48 := by
  rw [← UInt64.toNat_inj, toNat_token_shiftRight hi]
  omega

/-! ## `get` -/

lemma payloadIndex_payload : x.payloadIndex (x.payload i) = if i < x.capacity then some i else none := by
  have hstride := x.stride_gt
  have hpos : 0 < x.stride := by omega
  have hoffset : x.base i - x.start = i * x.stride := Nat.add_sub_cancel_left _ _
  have hmod : (x.base i - x.start) % x.stride = 0 := by
    rw [hoffset]
    exact Nat.mul_mod_left i x.stride
  have hdiv : (x.base i - x.start) / x.stride = i := by
    rw [hoffset]
    exact Nat.mul_div_cancel i hpos
  have hstart : x.start ≤ x.base i := Nat.le_add_right _ _
  rw [Layout.payloadIndex, Layout.payload, if_pos (Nat.le_add_left _ _), Nat.add_sub_cancel,
    Layout.baseIndex, if_pos hstart, hmod, hdiv]
  simp

lemma lt_two_pow_of_lt_capacity (hi : i < x.capacity) : i < 2 ^ 16 := by
  have hcap := x.capacity_le
  omega

/-- The handle that is held gives its resource, while the generation fits in the token. -/
theorem Filled.get_eq_some (h : Filled x s) (howner : s.owner i = some r)
    (hfits : (s.heap.generations i).toNat < 2 ^ 48) : s.get x (x.payload i) = some r := by
  obtain ⟨hi, hlive, -, hslot⟩ := h.owner howner
  have hi16 := lt_two_pow_of_lt_capacity hi
  simp only [State.get, payloadIndex_payload, if_pos hi, hslot, token_index hi16, hlive,
    (token_generation_iff hi16).mpr hfits, and_self, if_true]

lemma get_eq_none (hdead : s.heap.live i = false) : s.get x (x.payload i) = none := by
  rw [State.get, payloadIndex_payload]
  by_cases hi : i < x.capacity
  · simp [hi, hdead]
  · simp [hi]

/-! ## Handles that were returned -/

lemma Sound.spot_of_released (h : Sound x s) (hreleased : r ∈ s.released) :
    ∃ p, r ∈ spots x s p ∧ p ≠ .owned ∧ ∀ t, p ≠ .making t := by
  rcases (h.released r).mp hreleased with ⟨t, ht⟩ | hdropped
  · exact ⟨.closing t, ht, nofun, nofun⟩
  · exact ⟨.dropped, hdropped, nofun, nofun⟩

lemma Sound.returned_of_released (h : Sound x s) (hreleased : r ∈ s.released) :
    ∀ t g, (s.ops t).making ≠ some (i, r, g) := by
  obtain ⟨p, hp, -, hmaking⟩ := h.spot_of_released hreleased
  intro t g hmaker
  exact hmaking t (Placed.place_unique h.accounted (mem_making hmaker) hp)

lemma Sound.not_live_of_released (h : Sound x s) (hlatest : Latest s.issued i r)
    (hreleased : r ∈ s.released) : s.heap.live i = false := by
  rw [← Bool.not_eq_true]
  intro hlive
  rcases h.filled.holder hlive with ⟨r', howner⟩ | ⟨t, r', g, hmaker⟩
  · obtain rfl := hlatest.unique (h.filled.owner howner).2.2.1
    obtain ⟨p, hp, howned, -⟩ := h.spot_of_released hreleased
    exact howned (Placed.place_unique h.accounted (mem_owned h.filled howner) hp)
  · obtain rfl := hlatest.unique (h.filled.maker hmaker).2.2.1
    exact h.returned_of_released hreleased t g hmaker

lemma Latest.slot_unique (h : Latest issued i r) (h' : Latest issued j r) : i = j :=
  some_injective _ (h.1.symm.trans h'.1)

lemma Sound.owner_of_returned (h : Sound x s) (hlatest : Latest s.issued i r)
    (hreturned : ∀ t g, (s.ops t).making ≠ some (i, r, g)) (hheld : r ∉ s.released) : s.owner i = some r := by
  obtain ⟨p, hp⟩ := (h.accounted r).1 (slotOf_lt hlatest.1)
  have hmem : r ∈ spots x s p := List.count_pos_iff.mp (by rw [hp.count_eq_one]; exact Nat.one_pos)
  cases p with
  | making t =>
    obtain ⟨⟨j, r', g⟩, hmaking, rfl⟩ := List.mem_map.mp hmem
    have hmaker : (s.ops t).making = some (j, r', g) := mem_toList.mp hmaking
    obtain rfl := hlatest.slot_unique (h.filled.maker hmaker).2.2.1
    exact absurd hmaker (hreturned t g)
  | owned =>
    obtain ⟨j, -, howner⟩ := List.mem_filterMap.mp hmem
    obtain rfl := hlatest.slot_unique (h.filled.owner howner).2.2.1
    exact howner
  | closing t => exact absurd ((h.released r).mpr (.inl ⟨t, hmem⟩)) hheld
  | dropped => exact absurd ((h.released r).mpr (.inr hmem)) hheld

/-! ## Runs that do not use a slot again -/

/-- The slot that a step makes live. -/
def filling (s : State) : Label → Option ℕ
  | .next t =>
    match s.ops t with
    | .inserts (i :: _) => some i
    | _ => none
  | _ => none

/-- An `insert` does not use the slot of `r` again, and its generation fits in a token. -/
def Spares (r : ℕ) (s : State) (l : Label) : Prop :=
  ∀ i ∈ filling s l, slotOf s.issued r ≠ some i ∧ (s.heap.generations i + 1).toNat < 2 ^ 48

instance (r : ℕ) (s : State) (l : Label) : Decidable (Spares r s l) :=
  inferInstanceAs (Decidable (∀ i ∈ filling s l, _))

lemma Step.issued (hstep : Step x maxTasks s l s') :
    (s'.issued = s.issued ∧ s'.heap.generations = s.heap.generations) ∨
      ∃ t i todo, filling s l = some i ∧ s.ops t = .inserts (i :: todo) ∧ s' = s.occupy t i todo := by
  cases hstep with
  | @occupy t i todo hop => exact .inr ⟨t, i, todo, by simp [filling, hop], hop, rfl⟩
  | _ => exact .inl ⟨rfl, rfl⟩

lemma latest_of_spares (hreach : ReachableBy (system x maxTasks) (Spares r) s)
    (hslot : slotOf s.issued r = some i) : Latest s.issued i r := by
  have hall : ∀ i, slotOf s.issued r = some i → Latest s.issued i r := by
    refine ReachableBy.invariant (I := fun a => ∀ i, slotOf a.issued r = some i → Latest a.issued i r) ?_ ?_ hreach
    · rintro _ rfl i hi
      exact absurd (slotOf_lt hi) (Nat.not_lt_zero r)
    · intro a l b hspares hlatest hstep i hi
      rcases (step_cases hstep).issued with ⟨hissued, -⟩ | ⟨t, j, todo, hfilling, -, rfl⟩
      · rw [hissued] at hi ⊢
        exact hlatest i hi
      · rcases lt_or_ge r a.issued.length with hlt | hge
        · have hbefore : slotOf a.issued r = some i := by
            rw [← slotOf_append_of_lt hlt]
            exact hi
          have hne : j ≠ i := by
            rintro rfl
            exact (hspares j hfilling).1 hbefore
          exact (latest_append_of_ne hne).mpr (hlatest i hbefore)
        · have hlt := slotOf_lt hi
          obtain rfl : r = a.issued.length := by
            simp at hlt
            omega
          obtain rfl : j = i := some_injective _ (slotOf_append_length.symm.trans hi)
          exact latest_append_self
  exact hall i hslot

lemma generation_lt_of_spares (hreach : ReachableBy (system x maxTasks) (Spares r) s) :
    ∀ i, (s.heap.generations i).toNat < 2 ^ 48 := by
  refine ReachableBy.invariant (I := fun a => ∀ i, (a.heap.generations i).toNat < 2 ^ 48) ?_ ?_ hreach
  · rintro _ rfl i
    exact Nat.two_pow_pos 48
  · intro a l b hspares hlt hstep i
    rcases (step_cases hstep).issued with ⟨-, hgenerations⟩ | ⟨t, j, todo, hfilling, -, rfl⟩
    · rw [hgenerations]
      exact hlt i
    · obtain rfl | hi := eq_or_ne i j
      · simpa using (hspares i hfilling).2
      · simpa [hi] using hlt i

/-- **Handles.** In every run in which no later `insert` uses the slot of `r`, and generations fit in
tokens, the handle that was returned for `r` gives `r` until it is released, and is invalid from then on. -/
theorem get_of_slot_spared (hreach : ReachableBy (system x maxTasks) (Spares r) s)
    (hslot : slotOf s.issued r = some i) (hreturned : ∀ t g, (s.ops t).making ≠ some (i, r, g)) :
    s.get x (x.payload i) = if r ∈ s.released then none else some r := by
  have hsound := sound_of_reachable hreach.reachable
  have hlatest := latest_of_spares hreach hslot
  split
  · next hreleased => exact get_eq_none (hsound.not_live_of_released hlatest hreleased)
  · next hheld =>
    have howner := hsound.owner_of_returned hlatest hreturned hheld
    exact hsound.filled.get_eq_some howner (generation_lt_of_spares hreach i)

/-- A heap with two slots of 16 bytes. -/
def twoSlots : Layout where
  capacity := 2
  start := 4096
  stride := 16
  capacity_pos := by decide
  capacity_le := by decide
  stride_gt := by decide

/-- Task 0 takes a slot, which is `i`, and inserts a resource. -/
def insertOne (i : ℕ) : List Label := [.tryReserve 0, .insert 0 i, .next 0, .next 0, .next 0]

def releaseOne (i : ℕ) : List Label := [.release 0 (twoSlots.base i), .close 0, .free 0]

/-- Two resources are inserted, and the handle of the first is released. -/
theorem get_of_slot_spared_twoSlots :
    ∃ s, ReachableBy (system twoSlots 1) (Spares 0) s ∧ s.get twoSlots (twoSlots.payload 1) = some 1 ∧
      s.get twoSlots (twoSlots.payload 0) = none := by
  obtain ⟨s, hreach, hs⟩ := exists_reachableBy_of_runBy (system twoSlots 1) (Spares 0) rfl
    (insertOne 0 ++ insertOne 1 ++ releaseOne 0) (fun s => decide (0 ∈ s.released ∧ slotOf s.issued 0 = some 0 ∧ s.get
    twoSlots (twoSlots.payload 1) = some 1)) (by decide)
  obtain ⟨hreleased, hslot, hother⟩ := of_decide_eq_true hs
  have hreturned : ∀ t g, (s.ops t).making ≠ some (0, 0, g) :=
    (sound_of_reachable hreach.reachable).returned_of_released hreleased
  have hget := get_of_slot_spared hreach hslot hreturned
  rw [if_pos hreleased] at hget
  exact ⟨s, hreach, hother, hget⟩

/-- When the slot is used again, the handle that was released gives the resource of the other. -/
theorem released_handle_gets_another :
    ∃ s, Reachable (system twoSlots 1) s ∧ 0 ∈ s.released ∧ slotOf s.issued 0 = some 0 ∧
      s.get twoSlots (twoSlots.payload 0) = some 1 := by
  obtain ⟨s, hreach, hs⟩ := exists_reachable_of_run (system twoSlots 1) rfl (insertOne 0 ++ releaseOne 0 ++ insertOne 0)
    (fun s => decide (0 ∈ s.released ∧ slotOf s.issued 0 = some 0 ∧ s.get twoSlots (twoSlots.payload 0) = some 1))
    (by decide)
  exact ⟨s, hreach, of_decide_eq_true hs⟩

end RocNet.Resource
