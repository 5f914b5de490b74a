import RocNet.Library.Tally
import RocNet.Model.ResourceSteps

/-!
# Tasks waiting for a slot

Every slot that becomes free is announced to one task in `reserve`. So while a task waits, there are no more free
slots than tasks that were told of one and have not looked yet (`Promised`).
-/

namespace RocNet.Resource

open Function Nat
open Sched (TaskId WaitId Woke)

variable {h h' : Heap} {t u : TaskId} {id : ℕ} {w : WaitId}

/-! ## Entries of the wait list -/

def Waiting (h : Heap) (t : TaskId) : Prop := ∃ id w, h.parked t = some (id, w) ∧ h.waits w = none

def Woken (h : Heap) (t : TaskId) : Prop :=
  ∃ id w, h.parked t = some (id, w) ∧ h.waits w = some (.claimed .ready)

structure Registered (h : Heap) : Prop where
  fresh : ∀ t id w, h.parked t = some (id, w) → w < h.nextWait
  below : ∀ t id w, h.parked t = some (id, w) → id ≤ h.waiters.next
  sole : ∀ t u id id' w, h.parked t = some (id, w) → h.parked u = some (id', w) → t = u
  unique : ∀ t u id w w', h.parked t = some (id, w) → h.parked u = some (id, w') → t = u
  listed : ∀ t id w, h.parked t = some (id, w) → h.waits w = none → (id, w) ∈ h.waiters.list
  entry : ∀ id w, (id, w) ∈ h.waiters.list → ∃ t, h.parked t = some (id, w)

lemma Registered.same (hreg : Registered h) (hparked : h'.parked = h.parked) (hwaiters : h'.waiters = h.waiters)
    (hwaits : h'.waits = h.waits) (hnext : h'.nextWait = h.nextWait) : Registered h' := by
  obtain ⟨fresh, below, sole, unique, listed, entry⟩ := hreg
  constructor <;> simp only [hparked, hwaiters, hwaits, hnext] <;> assumption

/-- Waits end, and the list loses entries whose waits have ended. -/
theorem Registered.wake (hreg : Registered h) (hparked : h'.parked = h.parked)
    (hnext : h'.nextWait = h.nextWait) (hids : h'.waiters.next = h.waiters.next)
    (hsub : h'.waiters.list ⊆ h.waiters.list)
    (hkeep : ∀ id w, (id, w) ∈ h.waiters.list → h'.waits w = none → (id, w) ∈ h'.waiters.list)
    (hwaits : ∀ w, h'.waits w = none → h.waits w = none) : Registered h' where
  fresh := by
    rw [hparked, hnext]
    exact hreg.fresh
  below := by
    rw [hparked, hids]
    exact hreg.below
  sole := by
    rw [hparked]
    exact hreg.sole
  unique := by
    rw [hparked]
    exact hreg.unique
  listed := by
    intro t id w hp hw
    rw [hparked] at hp
    exact hkeep id w (hreg.listed t id w hp (hwaits w hw)) hw
  entry := by
    intro id w hmem
    rw [hparked]
    exact hreg.entry id w (hsub hmem)

lemma Registered.freeSlot (hreg : Registered h) (i : ℕ) : Registered (h.freeSlot i) := by
  refine hreg.wake rfl rfl Waiters.wakeOne_next (fun a ha => Waiters.mem_of_mem_wakeOne ha) ?_ ?_
  · intro id w hmem hw
    have hopen := (h.waiters.wakes_wakeOne h.waits).none hw
    rcases h.waiters.wakeOne_cases h.waits with ⟨hall, -, -⟩ | ⟨a, -, ha, hwoken, hrest⟩
    · exact absurd hopen (hall (id, w) hmem)
    · rcases hrest (id, w) hmem with heq | hended | hleft
      · rw [Heap.freeSlot_waits, hwoken, ← heq, Waits.wake_apply, if_pos ⟨rfl, hopen⟩] at hw
        cases hw
      · exact absurd hopen hended
      · exact hleft
  · intro w hw
    exact (h.waiters.wakes_wakeOne h.waits).none hw

lemma Registered.claim (hreg : Registered h) (w : WaitId) : Registered (h.setWaits (h.waits.wake w .cancelled)) := by
  have hnone : ∀ x, h.waits.wake w .cancelled x = none → h.waits x = none := by
    intro x hx
    rw [Waits.wake_apply] at hx
    split at hx
    · cases hx
    · exact hx
  exact hreg.wake rfl rfl rfl (fun _ ha => ha) (fun _ _ hmem _ => hmem) hnone

lemma parked_unpark_iff : (h.unpark t id).parked u = some (id', w) ↔ u ≠ t ∧ h.parked u = some (id', w) := by
  simp only [Heap.unpark_parked, update_apply]
  split
  · next heq => simp [heq]
  · next hne => simp [hne]

lemma Registered.unpark (hreg : Registered h) (hparked : h.parked t = some (id, w)) :
    Registered (h.unpark t id) where
  fresh u id' w' hu := hreg.fresh u id' w' (parked_unpark_iff.mp hu).2
  below u id' w' hu := hreg.below u id' w' (parked_unpark_iff.mp hu).2
  sole u v i j w' hu hv := hreg.sole u v i j w' (parked_unpark_iff.mp hu).2 (parked_unpark_iff.mp hv).2
  unique u v i w' x hu hv := hreg.unique u v i w' x (parked_unpark_iff.mp hu).2 (parked_unpark_iff.mp hv).2
  listed := by
    intro u id' w' hu hw
    obtain ⟨hne, hother⟩ := parked_unpark_iff.mp hu
    rw [Heap.unpark_waiters, Waiters.mem_remove]
    refine ⟨hreg.listed u id' w' hother hw, fun heq => hne ?_⟩
    obtain rfl : id' = id := heq
    exact hreg.unique u t _ _ _ hother hparked
  entry := by
    intro id' w' hmem
    rw [Heap.unpark_waiters, Waiters.mem_remove] at hmem
    obtain ⟨u, hu⟩ := hreg.entry id' w' hmem.1
    refine ⟨u, parked_unpark_iff.mpr ⟨?_, hu⟩⟩
    rintro rfl
    rw [hparked] at hu
    cases hu
    exact hmem.2 rfl

lemma parked_park_iff : (h.park t).parked u = some (id', w') ↔
      (u = t ∧ id' = h.waiters.nextId ∧ w' = h.nextWait) ∨ (u ≠ t ∧ h.parked u = some (id', w')) := by
  simp only [Heap.park_parked, update_apply]
  split
  · next heq =>
    simp only [heq, Option.some.injEq, Prod.mk.injEq, ne_eq, not_true, false_and, or_false, true_and]
    exact ⟨fun ⟨hid, hw⟩ => ⟨hid.symm, hw.symm⟩, fun ⟨hid, hw⟩ => ⟨hid.symm, hw.symm⟩⟩
  · next hne => simp [hne]

lemma park_waits_of_lt (hw : w < h.nextWait) : (h.park t).waits w = h.waits w := by
  rw [Heap.park_waits, update_of_ne hw.ne]

lemma Registered.park (hreg : Registered h) (hparked : h.parked t = none) : Registered (h.park t) where
  fresh := by
    intro u id w hu
    rw [Heap.park_nextWait]
    rcases parked_park_iff.mp hu with ⟨-, -, rfl⟩ | ⟨-, hu⟩
    · exact lt_succ_self _
    · exact lt_succ_of_lt (hreg.fresh u id w hu)
  below := by
    intro u id w hu
    rw [Heap.park_waiters, Waiters.addWaker_next]
    rcases parked_park_iff.mp hu with ⟨-, rfl, -⟩ | ⟨-, hu⟩
    · exact le_rfl
    · exact le_succ_of_le (hreg.below u id w hu)
  sole := by
    intro u v i j w hu hv
    rcases parked_park_iff.mp hu with ⟨rfl, -, rfl⟩ | ⟨-, hu⟩
    · rcases parked_park_iff.mp hv with ⟨rfl, -, -⟩ | ⟨-, hv⟩
      · rfl
      · exact absurd (hreg.fresh v j _ hv) (lt_irrefl _)
    · rcases parked_park_iff.mp hv with ⟨-, -, rfl⟩ | ⟨-, hv⟩
      · exact absurd (hreg.fresh u i _ hu) (lt_irrefl _)
      · exact hreg.sole u v i j w hu hv
  unique := by
    intro u v i w w' hu hv
    rcases parked_park_iff.mp hu with ⟨rfl, rfl, -⟩ | ⟨-, hu⟩
    · rcases parked_park_iff.mp hv with ⟨rfl, -, -⟩ | ⟨-, hv⟩
      · rfl
      · exact absurd (hreg.below v _ _ hv) (not_succ_le_self _)
    · rcases parked_park_iff.mp hv with ⟨-, rfl, -⟩ | ⟨-, hv⟩
      · exact absurd (hreg.below u _ _ hu) (not_succ_le_self _)
      · exact hreg.unique u v i w w' hu hv
  listed := by
    intro u id w hu hw
    rw [Heap.park_waiters, Waiters.mem_addWaker]
    rcases parked_park_iff.mp hu with ⟨-, rfl, rfl⟩ | ⟨-, hu⟩
    · exact .inr rfl
    · rw [park_waits_of_lt (hreg.fresh u id w hu)] at hw
      exact .inl (hreg.listed u id w hu hw)
  entry := by
    intro id w hmem
    rw [Heap.park_waiters, Waiters.mem_addWaker] at hmem
    rcases hmem with hmem | heq
    · obtain ⟨u, hu⟩ := hreg.entry id w hmem
      refine ⟨u, parked_park_iff.mpr (.inr ⟨?_, hu⟩)⟩
      rintro rfl
      rw [hparked] at hu
      cases hu
    · cases heq
      exact ⟨t, parked_park_iff.mpr (.inl ⟨rfl, rfl, rfl⟩)⟩

lemma unpark_parked_self : (h.unpark t id).parked t = none := by simp

lemma Registered.step (hreg : Registered h) (hstep : HeapStep h h') : Registered h' := by
  cases hstep with
  | same => exact hreg
  | take | cancel | occupy | vacate => exact hreg.same rfl rfl rfl rfl
  | park hparked => exact hreg.park hparked
  | takeAgain hparked => exact (hreg.unpark hparked).same rfl rfl rfl rfl
  | parkAgain hparked => exact (hreg.unpark hparked).park unpark_parked_self
  | giveUp hparked => exact hreg.unpark hparked
  | free => exact hreg.freeSlot _
  | claim => exact hreg.claim _

/-! ## The promise -/

/-- Tasks that were told of a free slot, as many as there are slots that nobody who waits has been told
of. -/
def Promised (h : Heap) : Prop :=
  ∃ n, Tally (Woken h) n ∧ ((∃ t, Waiting h t) → h.free.length ≤ n)

lemma Woken.not_waiting (hwoken : Woken h t) : ¬ Waiting h t := by
  rintro ⟨id', w', hparked', hnone⟩
  obtain ⟨id, w, hparked, hready⟩ := hwoken
  rw [hparked] at hparked'
  cases hparked'
  rw [hready] at hnone
  cases hnone

/-- Nobody waits who did not, no slot has become free, and those who were told are the same. -/
theorem Promised.of_le (hp : Promised h) (hwoken : ∀ t, Woken h' t ↔ Woken h t)
    (hwaiting : ∀ t, Waiting h' t → Waiting h t) (hfree : h'.free.length ≤ h.free.length) : Promised h' := by
  obtain ⟨n, htally, hle⟩ := hp
  refine ⟨n, htally.congr hwoken, fun ⟨t, ht⟩ => ?_⟩
  have hbound := hle ⟨t, hwaiting t ht⟩
  omega

lemma woken_unpark_iff : Woken (h.unpark t id) u ↔ u ≠ t ∧ Woken h u := by
  unfold Woken
  simp only [parked_unpark_iff, Heap.unpark_waits, and_assoc, exists_and_left]

lemma waiting_unpark_iff : Waiting (h.unpark t id) u ↔ u ≠ t ∧ Waiting h u := by
  unfold Waiting
  simp only [parked_unpark_iff, Heap.unpark_waits, and_assoc, exists_and_left]

lemma Promised.tally_unpark (hp : Promised h) (id : ℕ) :
    ∃ n, Tally (Woken (h.unpark t id)) n ∧ ((∃ u, Waiting h u) → h.free.length ≤ n + 1) ∧
      (¬ Woken h t → (∃ u, Waiting h u) → h.free.length ≤ n) := by
  obtain ⟨n, htally, hle⟩ := hp
  by_cases hwoken : Woken h t
  · have hpos := htally.pos hwoken
    refine ⟨n - 1, htally.erase hwoken ?_ ?_, fun hw => ?_, fun hnot => absurd hwoken hnot⟩
    · rw [woken_unpark_iff]
      exact fun hw => hw.1 rfl
    · intro u hne
      rw [woken_unpark_iff]
      exact ⟨fun hw => hw.2, fun hw => ⟨hne, hw⟩⟩
    · have hbound := hle hw
      omega
  · refine ⟨n, htally.congr fun u => ?_, fun hw => le_succ_of_le (hle hw), fun _ => hle⟩
    rw [woken_unpark_iff]
    refine ⟨fun hw => hw.2, fun hw => ⟨?_, hw⟩⟩
    rintro rfl
    exact hwoken hw

lemma woken_park_iff (hreg : Registered h) (hparked : h.parked t = none) : Woken (h.park t) u ↔ Woken h u := by
  constructor
  · rintro ⟨id, w, hu, hready⟩
    rcases parked_park_iff.mp hu with ⟨-, -, rfl⟩ | ⟨-, hu⟩
    · rw [Heap.park_waits, update_self] at hready
      split at hready <;> cases hready
    · rw [park_waits_of_lt (hreg.fresh u id w hu)] at hready
      exact ⟨id, w, hu, hready⟩
  · rintro ⟨id, w, hu, hready⟩
    refine ⟨id, w, parked_park_iff.mpr (.inr ⟨?_, hu⟩), ?_⟩
    · rintro rfl
      rw [hparked] at hu
      cases hu
    · rwa [park_waits_of_lt (hreg.fresh u id w hu)]

lemma Promised.park (hreg : Registered h) (hparked : h.parked t = none) (hfree : h.free = [])
    (htally : Tally (Woken h) n) : Promised (h.park t) := by
  refine ⟨n, htally.congr fun u => woken_park_iff hreg hparked, fun _ => ?_⟩
  rw [Heap.park_free, hfree]
  exact zero_le n

lemma Promised.freeSlot (hreg : Registered h) (hp : Promised h) (i : ℕ) : Promised (h.freeSlot i) := by
  obtain ⟨n, htally, hle⟩ := hp
  have hopen : ∀ u, Waiting (h.freeSlot i) u → Waiting h u := by
    rintro u ⟨id, w, hu, hw⟩
    exact ⟨id, w, hu, (h.waiters.wakes_wakeOne h.waits).none hw⟩
  rcases h.waiters.wakeOne_cases h.waits with ⟨hall, -, hsame⟩ | ⟨a, ha, hnone, hwoken, -⟩
  · -- nobody is left to be told
    refine ⟨n, htally.congr fun u => ?_, ?_⟩
    · have hwaits : (h.freeSlot i).waits = h.waits := hsame
      unfold Woken
      rw [hwaits, Heap.freeSlot_parked]
    · rintro ⟨u, hu⟩
      obtain ⟨id, w, hparked, hw⟩ := hopen u hu
      exact absurd hw (hall _ (hreg.listed u id w hparked hw))
  · obtain ⟨t, ht⟩ := hreg.entry a.1 a.2 ha
    have hready : (h.freeSlot i).waits a.2 = some (.claimed .ready) := by
      rw [Heap.freeSlot_waits, hwoken, Waits.wake_apply, if_pos ⟨rfl, hnone⟩]
    have hother : ∀ w ≠ a.2, (h.freeSlot i).waits w = h.waits w := by
      intro w hne
      rw [Heap.freeSlot_waits, hwoken, Waits.wake_apply, if_neg fun hw => hne hw.1]
    refine ⟨n + 1, htally.insert (a := t) ?_ ⟨a.1, a.2, ht, hready⟩ ?_, ?_⟩
    · intro hw
      exact hw.not_waiting ⟨a.1, a.2, ht, hnone⟩
    · intro u hne
      have hwait : ∀ id w, h.parked u = some (id, w) → (h.freeSlot i).waits w = h.waits w := by
        intro id w hu
        refine hother w ?_
        rintro rfl
        exact hne (hreg.sole u t _ _ _ hu ht)
      constructor
      · rintro ⟨id, w, hu, hw⟩
        exact ⟨id, w, hu, hwait id w hu ▸ hw⟩
      · rintro ⟨id, w, hu, hw⟩
        exact ⟨id, w, hu, (hwait id w hu).trans hw⟩
    · rintro ⟨u, hu⟩
      rw [Heap.freeSlot_free, List.length_cons]
      exact succ_le_succ (hle ⟨u, hopen u hu⟩)

lemma Promised.claim (hp : Promised h) (w : WaitId) : Promised (h.setWaits (h.waits.wake w .cancelled)) := by
  have hwake : ∀ v r, h.waits.wake w .cancelled v = some (.claimed r) → r ≠ .cancelled →
      h.waits v = some (.claimed r) := by
    intro v r hv hne
    rw [Waits.wake_apply] at hv
    split at hv
    · cases hv
      exact absurd rfl hne
    · exact hv
  refine hp.of_le (fun u => ⟨?_, ?_⟩) ?_ le_rfl
  · rintro ⟨id, v, hu, hv⟩
    exact ⟨id, v, hu, hwake v .ready hv (by decide)⟩
  · rintro ⟨id, v, hu, hv⟩
    refine ⟨id, v, hu, ?_⟩
    rw [Heap.setWaits_waits, Waits.wake_apply, if_neg, hv]
    rintro ⟨-, hnone⟩
    rw [hv] at hnone
    cases hnone
  · rintro u ⟨id, v, hu, hv⟩
    refine ⟨id, v, hu, ?_⟩
    rw [Heap.setWaits_waits, Waits.wake_apply] at hv
    split at hv
    · cases hv
    · exact hv

lemma Promised.step (hreg : Registered h) (hp : Promised h) (hstep : HeapStep h h') : Promised h' := by
  cases hstep with
  | same => exact hp
  | cancel | occupy | vacate => exact hp
  | take hfree =>
    refine hp.of_le (fun _ => Iff.rfl) (fun _ hw => hw) ?_
    rw [Heap.setFree_free, hfree]
    exact le_succ _
  | park hparked hfree =>
    obtain ⟨n, htally, -⟩ := hp
    exact Promised.park hreg hparked hfree htally
  | @takeAgain t id i w rest hparked hfree =>
    obtain ⟨n, htally, hle, -⟩ := hp.tally_unpark (t := t) id
    refine ⟨n, htally, fun ⟨u, hu⟩ => ?_⟩
    have hwaiting : Waiting (h.unpark t id) u := hu
    have hbound := hle ⟨u, (waiting_unpark_iff.mp hwaiting).2⟩
    rw [hfree, List.length_cons] at hbound
    exact le_of_succ_le_succ hbound
  | @parkAgain t id w hparked hfree =>
    obtain ⟨n, htally, -⟩ := hp.tally_unpark (t := t) id
    exact Promised.park (hreg.unpark hparked) unpark_parked_self hfree htally
  | @giveUp t id w hparked hwait =>
    obtain ⟨n, htally, -, hle⟩ := hp.tally_unpark (t := t) id
    refine ⟨n, htally, fun ⟨u, hu⟩ => hle ?_ ⟨u, (waiting_unpark_iff.mp hu).2⟩⟩
    rintro ⟨id', w', hparked', hready⟩
    rw [hparked] at hparked'
    cases hparked'
    rw [hwait] at hready
    cases hready
  | free => exact hp.freeSlot hreg _
  | claim => exact hp.claim _

lemma registered_new (capacity : ℕ) : Registered (.new capacity) where
  fresh := nofun
  below := nofun
  sole := nofun
  unique := nofun
  listed := nofun
  entry := nofun

lemma promised_new (capacity : ℕ) : Promised (.new capacity) := by
  refine ⟨0, Tally.zero ?_, ?_⟩
  · rintro t ⟨id, w, hparked, -⟩
    cases hparked
  · rintro ⟨t, id, w, hparked, -⟩
    cases hparked

end RocNet.Resource
