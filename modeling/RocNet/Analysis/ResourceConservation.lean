import RocNet.Analysis.ResourceHandles

/-!
# Slots and resources are conserved

Tokens and pairs of slot and generation tell inserts apart up to the widths of their fields: 48 bits in a token, 64 in
the heap.
-/

namespace RocNet.Resource

open List Option Ledger State UInt64
open Sched (TaskId)
open Transition

variable {x : Layout} {maxTasks : ℕ} {s s' : State} {t : TaskId} {l : Label} {i r n : ℕ} {g : UInt64}
  {issued : List (ℕ × UInt64)}

/-! ## Generations -/

/-- How many inserts a slot has had. -/
def insertsInto (issued : List (ℕ × UInt64)) (i : ℕ) : ℕ := (issued.map Prod.fst).count i

lemma insertsInto_append (j : ℕ) :
    insertsInto (issued ++ [(i, g)]) j = insertsInto issued j + if i = j then 1 else 0 := by
  by_cases hij : i = j
  · simp [insertsInto, hij]
  · simp [insertsInto, hij]

lemma insertsInto_le_of_sublist {l l' : List (ℕ × UInt64)} (h : l.Sublist l') (i : ℕ) :
    insertsInto l i ≤ insertsInto l' i :=
  (h.map Prod.fst).count_le i

/-- Generations count inserts, in 64 bits. -/
structure Counted (s : State) : Prop where
  current : ∀ i, s.heap.generations i = UInt64.ofNat (insertsInto s.issued i)
  each : ∀ {r i g}, s.issued[r]? = some (i, g) → g = UInt64.ofNat (insertsInto (s.issued.take (r + 1)) i)

lemma Counted.occupy (h : Counted s) (t : TaskId) (i : ℕ) (todo : List ℕ) :
    Counted (s.occupy t i todo) where
  current := by
    intro j
    rw [occupy_issued, insertsInto_append]
    obtain rfl | hij := eq_or_ne i j
    · simp [h.current, ofNat_add]
    · simp [h.current, hij, Ne.symm hij]
  each := by
    intro r j g hget
    simp only [occupy_issued] at hget ⊢
    rcases lt_or_ge r s.issued.length with hlt | hge
    · rw [getElem?_append_left hlt] at hget
      rw [take_append_of_le_length (by omega)]
      exact h.each hget
    · rw [List.getElem?_append_right hge] at hget
      obtain ⟨hzero, hpair⟩ := List.getElem?_eq_some_iff.mp hget
      have hr : r = s.issued.length := by
        simp at hzero
        omega
      subst hr
      simp only [Nat.sub_self, getElem_cons_zero, Prod.mk.injEq] at hpair
      obtain ⟨rfl, rfl⟩ := hpair
      rw [take_of_length_le (by simp), insertsInto_append, if_pos rfl, h.current, ofNat_add]
      rfl

lemma counted_of_reachable (hreach : Reachable (system x maxTasks) s) : Counted s := by
  refine Reachable.invariant ?_ ?_ hreach
  · rintro _ rfl
    exact ⟨fun _ => rfl, nofun⟩
  · intro a l b hcounted hstep
    rcases (step_cases hstep).issued with ⟨hissued, hgenerations⟩ | ⟨t, i, todo, -, -, rfl⟩
    · constructor
      · rw [hissued, hgenerations]
        exact hcounted.current
      · rw [hissued]
        exact hcounted.each
    · exact hcounted.occupy t i todo

/-- Two inserts share slot and generation only if there were more than generations can tell apart. -/
theorem Counted.le_insertsInto {r' : ℕ} (h : Counted s) (hlt : r < r') (hr : s.issued[r]? = some (i, g))
    (hr' : s.issued[r']? = some (i, g)) : 2 ^ 64 ≤ insertsInto s.issued i := by
  have hless : insertsInto (s.issued.take (r + 1)) i < insertsInto (s.issued.take (r' + 1)) i := by
    have hbefore : insertsInto (s.issued.take (r + 1)) i ≤ insertsInto (s.issued.take r') i :=
      insertsInto_le_of_sublist (take_sublist_take_left (by omega)) i
    have hlast : s.issued.take (r' + 1) = s.issued.take r' ++ [(i, g)] := by
      rw [take_add_one, hr']
      rfl
    rw [hlast, insertsInto_append, if_pos rfl]
    omega
  have hall : insertsInto (s.issued.take (r' + 1)) i ≤ insertsInto s.issued i :=
    insertsInto_le_of_sublist (take_sublist _ _) i
  by_contra hfew
  have heq := congrArg toNat ((h.each hr).symm.trans (h.each hr'))
  rw [toNat_ofNat', toNat_ofNat'] at heq
  omega

lemma Sound.token_decodes (h : Sound x s) (hcounted : Counted s) (hlive : s.heap.live i)
    (hreturned : ∀ t r g, (s.ops t).making ≠ some (i, r, g)) (hfew : insertsInto s.issued i < 2 ^ 48) :
    (s.slots i).token &&& indexMask = ofNat i ∧ (s.slots i).token >>> 16 = s.heap.generations i := by
  rcases h.filled.holder hlive with ⟨r, howner⟩ | ⟨t, r, g, hmaking⟩
  · obtain ⟨hi, -, -, hslot⟩ := h.filled.owner howner
    have hi16 := lt_two_pow_of_lt_capacity hi
    rw [hslot]
    refine ⟨token_index hi16, (token_generation_iff hi16).mpr ?_⟩
    rw [hcounted.current, toNat_ofNat']
    omega
  · exact absurd hmaking (hreturned t r g)

/-! ## Drops -/

/-- What has become of a resource that was inserted into slot `i`: it is in the slot, about to be dropped
by a task that is closing the slot, or dropped. -/
inductive Fate (x : Layout) (s : State) (i r : ℕ) : Prop
  | inSlot (hlive : s.heap.live i = true) (hlatest : Latest s.issued i r) (hheld : r ∉ s.released)
      (hkept : s.dropped.count r = 0)
  | pending (t : TaskId) (hclosing : i ∈ places x s (.closing t)) (hpending : (i, r) ∈ s.pending t)
      (hreleased : r ∈ s.released) (hkept : s.dropped.count r = 0)
  | dropped (hreleased : r ∈ s.released) (honce : s.dropped.count r = 1)

lemma mem_closing_of_pending (hmem : (i, r) ∈ s.pending t) : i ∈ places x s (.closing t) := by
  obtain ⟨⟨j, o⟩, hclosing, hpair⟩ := mem_filterMap.mp hmem
  obtain ⟨r', -, heq⟩ := map_eq_some_iff.mp hpair
  cases heq
  exact mem_map.mpr ⟨(j, o), hclosing, rfl⟩

lemma Sound.fate (h : Sound x s) (hslot : slotOf s.issued r = some i) : Fate x s i r := by
  obtain ⟨p, hp⟩ := (h.accounted r).1 (slotOf_lt hslot)
  have hmem : r ∈ spots x s p := count_pos_iff.mp (by rw [hp.count_eq_one]; exact Nat.one_pos)
  have hkept : p ≠ .dropped → s.dropped.count r = 0 := fun hne =>
    (hp .dropped).trans (if_neg (Ne.symm hne))
  have hreleased := h.released r
  cases p with
  | making t =>
    obtain ⟨⟨j, r', g⟩, hmaking, rfl⟩ := mem_map.mp hmem
    obtain ⟨-, hlive, hlatest, -⟩ := h.filled.maker (mem_toList.mp hmaking)
    obtain rfl : j = i := some_injective _ (hlatest.1.symm.trans hslot)
    refine .inSlot hlive hlatest ?_ (hkept nofun)
    intro hr
    exact h.returned_of_released hr t g (mem_toList.mp hmaking)
  | owned =>
    obtain ⟨j, -, howner⟩ := mem_filterMap.mp hmem
    obtain ⟨-, hlive, hlatest, -⟩ := h.filled.owner howner
    obtain rfl : j = i := some_injective _ (hlatest.1.symm.trans hslot)
    refine .inSlot hlive hlatest ?_ (hkept nofun)
    intro hr
    have hdead := h.not_live_of_released hlatest hr
    rw [hlive] at hdead
    cases hdead
  | closing t =>
    obtain ⟨⟨j, r'⟩, hpending, rfl⟩ := mem_map.mp hmem
    obtain rfl : j = i := some_injective _ ((h.filled.pending hpending).symm.trans hslot)
    exact .pending t (mem_closing_of_pending hpending) hpending (hreleased.mpr (.inl ⟨t, hmem⟩)) (hkept nofun)
  | dropped => exact .dropped (hreleased.mpr (.inr hmem)) hp.count_eq_one

lemma Sound.closing_of_drop (h : Sound x s) (hturn : Turn x s s') (hslot : slotOf s.issued r = some i)
    (hkept : r ∉ s.dropped) (hdropped : r ∈ s'.dropped) :
    ∃ t, i ∈ places x s (.closing t) ∧ i ∈ places x s' (.closing t) := by
  cases hturn with
  | quiet hquiet => exact absurd (hquiet.dropped ▸ hdropped) hkept
  | occupy | store | stamp | release => exact absurd hdropped hkept
  | @close t j r' rest hclosing =>
    obtain rfl : r = r' := by simpa [hkept] using hdropped
    have hpending : (j, r) ∈ s.pending t := by simp [State.pending, hclosing]
    obtain rfl : j = i := some_injective _ ((h.filled.pending hpending).symm.trans hslot)
    exact ⟨t, mem_closing_of_pending hpending, by simp [places]⟩

/-- A task that is closing slots drops the next resource, or makes the next slot free. -/
theorem release_goes_on (hop : s.ops t = .none) (hclosing : s.closing t ≠ []) :
    (step x maxTasks s (.close t)).isSome ∨ (step x maxTasks s (.free t)).isSome := by
  obtain ⟨⟨i, o⟩, rest, hcons⟩ := exists_cons_of_ne_nil hclosing
  cases o with
  | none =>
    right
    simp [step, hop, hcons]
  | some r =>
    left
    simp [step, hop, hcons]

/-! ## Calls that fail -/

/-- The labels of the steps of `roc_channel_new` and `roc_task_spawn`. -/
def Label.Calls (t : TaskId) : Label → Prop
  | .channelNew u | .taskSpawn u | .spawned u _ | .next u => u = t
  | _ => False

/-- Not in a call, or in one of these two that has not come to its inserts. -/
def Op.Reversible : Op → Prop
  | .none | .channelNew _ | .channelFull _ | .spawnClaimed | .spawnFull | .spawnReserved _
  | .spawnFailed _ | .spawnUndone _ => True
  | _ => False

/-- What one task did to the slots is to take some from the free list, or to give them back. -/
structure Returns (t : TaskId) (s s' : State) : Prop where
  stock : (s'.heap.free ++ (s'.ops t).slots).Perm (s.heap.free ++ (s.ops t).slots)
  live : s'.heap.live = s.heap.live
  generations : s'.heap.generations = s.heap.generations
  slots : s'.slots = s.slots
  held : s'.held = s.held
  closing : s'.closing = s.closing
  owner : s'.owner = s.owner
  others : ∀ u, u ≠ t → s'.ops u = s.ops u

lemma Step.returns (hstep : Step x maxTasks s l s') (hcall : l.Calls t) (hbefore : (s.ops t).Reversible)
    (hafter : (s'.ops t).Reversible) : Returns t s s' := by
  cases hstep with
  | refused => exact ⟨.refl _, rfl, rfl, rfl, rfl, rfl, rfl, fun _ _ => rfl⟩
  | channelNew hop hfree | spawnTake hop hfree =>
    obtain rfl := hcall
    refine ⟨?_, rfl, rfl, rfl, rfl, rfl, rfl, by simp +contextual⟩
    simp [hop, hfree, Op.slots]
  | taskSpawn hop | spawnedFail hop | channelFull hop | spawnFull hop | spawnUncount hop | spawnUndo hop =>
    obtain rfl := hcall
    refine ⟨?_, rfl, rfl, rfl, rfl, rfl, rfl, by simp +contextual⟩
    simp [hop, Op.slots]
  | channelBack hop | spawnBack hop =>
    obtain rfl := hcall
    refine ⟨?_, rfl, rfl, rfl, rfl, rfl, rfl, by simp +contextual⟩
    simp only [setOp_heap, setHeap_heap, Heap.freeSlot_free, setOp_ops,
      Function.update_self, hop, Op.slots, append_nil]
    exact (perm_append_singleton _ _).symm
  | occupy hop | store hop | stamp hop =>
    obtain rfl := hcall
    simp [hop, Op.Reversible] at hbefore
  | spawnedOk | channelSecond =>
    obtain rfl := hcall
    simp [Op.Reversible] at hafter
  | _ => exact hcall.elim

/-! ## The result -/

lemma promised_of_reachable (hreach : Reachable (system x maxTasks) s) : Promised s.heap := by
  have hboth : Registered s.heap ∧ Promised s.heap := by
    refine Reachable.invariant (I := fun a => Registered a.heap ∧ Promised a.heap) ?_ ?_ hreach
    · rintro _ rfl
      exact ⟨registered_new _, promised_new _⟩
    · rintro a l b ⟨hregistered, hpromised⟩ hstep
      have hheap := (step_cases hstep).heapStep
      exact ⟨hregistered.step hheap, Promised.step hregistered hpromised hheap⟩
  exact hboth.2

/-- **Conservation.** In every reachable state each slot is in one place, once; the token of a slot whose insert
has returned tells its index and generation, until the slot's inserts outgrow 48 bits, and inserts have
different slots or generations, until they outgrow 64; a resource is in its slot, about to be dropped, or
dropped once while its slot is being closed, and a release under way can go on; free slots are promised to those
who wait; and a call of `roc_channel_new` or `roc_task_spawn` that fails gives back what it took. -/
theorem slots_and_resources_conserved (hreach : Reachable (system x maxTasks) s) : Conserved x s ∧
    (∀ i, s.heap.live i = true → (∀ t r g, (s.ops t).making ≠ some (i, r, g)) → insertsInto s.issued i < 2 ^ 48 →
      (s.slots i).token &&& indexMask = UInt64.ofNat i ∧ (s.slots i).token >>> 16 = s.heap.generations i) ∧
    (∀ i, insertsInto s.issued i < 2 ^ 64 →
      ∀ (r r' : ℕ) (g : UInt64), r ≠ r' → s.issued[r]? = some (i, g) → s.issued[r']? ≠ some (i, g)) ∧
    (∀ r i, slotOf s.issued r = some i → Fate x s i r) ∧
    (∀ l s' r i, step x maxTasks s l = some s' → slotOf s.issued r = some i → r ∉ s.dropped →
      r ∈ s'.dropped → ∃ t, i ∈ places x s (.closing t) ∧ i ∈ places x s' (.closing t)) ∧
    (∀ t, s.ops t = .none → s.closing t ≠ [] →
      (step x maxTasks s (.close t)).isSome ∨ (step x maxTasks s (.free t)).isSome) ∧ Promised s.heap ∧
    ∀ t l s', l.Calls t → (s.ops t).Reversible → step x maxTasks s l = some s' →
      (s'.ops t).Reversible → Returns t s s' := by
  have hsound := sound_of_reachable hreach
  have hcounted := counted_of_reachable hreach
  refine ⟨hsound.conserved, ?_, ?_, ?_, ?_, ?_, promised_of_reachable hreach, ?_⟩
  · intro i hlive hreturned hfew
    exact hsound.token_decodes hcounted hlive hreturned hfew
  · intro i hfew r r' g hne hr hr'
    rcases Nat.lt_or_gt_of_ne hne with hlt | hgt
    · have hmany := hcounted.le_insertsInto hlt hr hr'
      omega
    · have hmany := hcounted.le_insertsInto hgt hr' hr
      omega
  · intro r i hslot
    exact hsound.fate hslot
  · intro l s' r i hstep hslot hkept hdropped
    exact hsound.closing_of_drop ((step_cases hstep).turn hsound.reserving) hslot hkept hdropped
  · intro t hop hclosing
    exact release_goes_on hop hclosing
  · intro t l s' hcall hbefore hstep hafter
    exact (step_cases hstep).returns hcall hbefore hafter

/-- One resource is inserted, and one of the two slots is left. -/
theorem slots_and_resources_conserved_twoSlots :
    ∃ s, Reachable (system twoSlots 1) s ∧ Conserved twoSlots s ∧ Fate twoSlots s 0 0 ∧
      (s.slots 0).token >>> 16 = s.heap.generations 0 := by
  obtain ⟨s, hreach, hs⟩ := exists_reachable_of_run (system twoSlots 1) rfl (insertOne 0)
    (fun s => decide (slotOf s.issued 0 = some 0 ∧ s.heap.live 0 = true ∧ insertsInto s.issued 0 = 1 ∧ s.owner 0 = some
    0)) (by decide)
  obtain ⟨hslot, hlive, hone, howner⟩ := of_decide_eq_true hs
  have hreturned : ∀ t r g, (s.ops t).making ≠ some (0, r, g) := by
    intro t r g hmaking
    have hsound := sound_of_reachable hreach
    rw [hsound.filled.owner_eq_none hsound.accounted hmaking] at howner
    cases howner
  obtain ⟨hconserved, htoken, -, hfate, -⟩ := slots_and_resources_conserved hreach
  refine ⟨s, hreach, hconserved, hfate 0 0 hslot, (htoken 0 hlive hreturned ?_).2⟩
  rw [hone]
  decide

/-! ## A slot that has had too many inserts -/

/-- Task 0 does nothing, slot 0 is the next one taken, and it has had `n` inserts. -/
structure Idle (n : ℕ) (s : State) : Prop where
  free : ∃ rest, s.heap.free = 0 :: rest
  op : s.ops 0 = .none
  held : s.held 0 = []
  closing : s.closing 0 = []
  generation : s.heap.generations 0 = UInt64.ofNat n

lemma run_insertOne (h : Idle n s) :
    ∃ s', run (system twoSlots 1) s (insertOne 0) = some s' ∧ s'.heap.live 0 ∧ s'.ops 0 = .none ∧
      s'.held 0 = [] ∧ s'.closing 0 = [] ∧ s'.owner 0 = some s.issued.length ∧
      s'.heap.generations 0 = ofNat (n + 1) ∧
      s'.slots 0 = ⟨token (ofNat (n + 1)) 0, some s.issued.length⟩ := by
  obtain ⟨⟨rest, hfree⟩, hop, hheld, hclosing, hgeneration⟩ := h
  simp [run, insertOne, system, step, next, hop, tryReserve_cons hfree, hheld, hclosing, hgeneration, ofNat_add]

lemma run_releaseOne (hop : s.ops 0 = .none) (hheld : s.held 0 = []) (hclosing : s.closing 0 = [])
    (hlive : s.heap.live 0) (howner : s.owner 0 = some r) (hresource : (s.slots 0).resource = some r) :
    ∃ s', run (system twoSlots 1) s (releaseOne 0) = some s' ∧ (∃ rest, s'.heap.free = 0 :: rest) ∧
      s'.ops 0 = .none ∧ s'.held 0 = [] ∧ s'.closing 0 = [] ∧ s'.heap.generations 0 = s.heap.generations 0 := by
  have hbase : twoSlots.baseIndex (twoSlots.base 0) = some 0 := by decide
  simp [run, releaseOne, system, step, hop, hheld, hclosing, hbase, hlive, howner, hresource]

/-- Any number of inserts, one after the other, into one slot. -/
theorem exists_idle (n : ℕ) : ∃ s, Reachable (system twoSlots 1) s ∧ Idle n s := by
  induction n with
  | zero => exact ⟨initial twoSlots, .start rfl, ⟨[1], rfl⟩, rfl, rfl, rfl, rfl⟩
  | succ n ih =>
    obtain ⟨s, hreach, hidle⟩ := ih
    obtain ⟨a, hinsert, hlive, hop, hheld, hclosing, howner, hgeneration, hslot⟩ := run_insertOne hidle
    have hresource : (a.slots 0).resource = some s.issued.length := by rw [hslot]
    obtain ⟨b, hrelease, hfree, hop', hheld', hclosing', hsame⟩ :=
      run_releaseOne hop hheld hclosing hlive howner hresource
    refine ⟨b, (hreach.of_run hinsert).of_run hrelease, hfree, hop', hheld', hclosing', ?_⟩
    rw [hsame, hgeneration]

/-- After 2^48 inserts into a slot, its token does not tell the generation. -/
theorem token_outgrown : ∃ s, Reachable (system twoSlots 1) s ∧ s.heap.live 0 = true ∧ s.owner 0 ≠ none ∧
      (s.slots 0).token >>> 16 ≠ s.heap.generations 0 := by
  obtain ⟨s, hreach, hidle⟩ := exists_idle (2 ^ 48 - 1)
  obtain ⟨a, hinsert, hlive, -, -, -, howner, hgeneration, hslot⟩ := run_insertOne hidle
  refine ⟨a, hreach.of_run hinsert, hlive, by simp [howner], ?_⟩
  rw [hslot, hgeneration]
  intro heq
  have hlt := (token_generation_iff (by decide)).mp heq
  rw [toNat_ofNat'] at hlt
  omega

end RocNet.Resource
