import RocNet.Model.Resource

/-!
# Resource heaps: the steps, taken apart

What each step can do to the state, with what it found there (`Step`), and what that comes to for the
part that the mutex protects (`HeapStep`).
-/

namespace RocNet.Resource

open Sched (TaskId WaitId Woke)
open Option Transition

/-! ## The heap -/

inductive HeapStep (h : Heap) : Heap → Prop
  | same : HeapStep h h
  | take (hfree : h.free = i :: rest) : HeapStep h (h.setFree rest)
  -- a task in `reserve` waits; wakes up, and takes a slot, waits again or gives up
  | park (hparked : h.parked t = none) (hfree : h.free = []) : HeapStep h (h.park t)
  | takeAgain {id i : ℕ} {w : WaitId} {rest : List ℕ} (hparked : h.parked t = some (id, w))
      (hfree : h.free = i :: rest) : HeapStep h ((h.unpark t id).setFree rest)
  | parkAgain {id : ℕ} {w : WaitId} (hparked : h.parked t = some (id, w)) (hfree : h.free = []) :
      HeapStep h ((h.unpark t id).park t)
  | giveUp {id : ℕ} {w : WaitId} (hparked : h.parked t = some (id, w))
      (hwait : h.waits w = some (.claimed .cancelled)) : HeapStep h (h.unpark t id)
  | free : HeapStep h (h.freeSlot i)
  | cancel : HeapStep h (h.cancel t)
  | claim {id : ℕ} {w : WaitId} (hparked : h.parked t = some (id, w)) :
      HeapStep h (h.setWaits (h.waits.wake w .cancelled))
  | occupy : HeapStep h (h.occupy i)
  | vacate : HeapStep h (h.vacate i)

/-! ## The whole state -/

inductive Step (x : Layout) (maxTasks : ℕ) (s : State) : Label → State → Prop
  | refused : Step x maxTasks s l s
  | cancel : Step x maxTasks s (.cancel t) (s.setHeap (s.heap.cancel t))
  | claim {id : ℕ} {w : WaitId} (hparked : s.heap.parked t = some (id, w)) :
      Step x maxTasks s (.claim t) (s.setHeap (s.heap.setWaits (s.heap.waits.wake w .cancelled)))
  | tryReserve (hop : s.ops t = .none) (hfree : s.heap.free = i :: rest) :
      Step x maxTasks s (.tryReserve t) ((s.setHeap (s.heap.setFree rest)).setHeld t (i :: s.held t))
  | reserve (hop : s.ops t = .none) : Step x maxTasks s (.reserve t) (s.setOp t .reserving)
  | enterGot (hop : s.ops t = .reserving) (hparked : s.heap.parked t = none) (hfree : s.heap.free = i :: rest) :
      Step x maxTasks s (.enter t) (((s.setHeap (s.heap.setFree rest)).setHeld t (i :: s.held t)).setOp t .none)
  | enterWaiting (hop : s.ops t = .reserving) (hparked : s.heap.parked t = none) (hfree : s.heap.free = []) :
      Step x maxTasks s (.enter t) (s.setHeap (s.heap.park t))
  | relockGot {id i : ℕ} {w : WaitId} {rest : List ℕ} (hparked : s.heap.parked t = some (id, w))
      (hfree : s.heap.free = i :: rest) :
      Step x maxTasks s (.relock t reported)
        (((s.setHeap ((s.heap.unpark t id).setFree rest)).setHeld t (i :: s.held t)).setOp t .none)
  | relockWaiting {id : ℕ} {w : WaitId} (hparked : s.heap.parked t = some (id, w)) (hfree : s.heap.free = []) :
      Step x maxTasks s (.relock t reported) (s.setHeap ((s.heap.unpark t id).park t))
  | relockCancelled {id : ℕ} {w : WaitId} (hparked : s.heap.parked t = some (id, w))
      (hwait : s.heap.waits w = some (.claimed .cancelled)) :
      Step x maxTasks s (.relock t reported) ((s.setHeap (s.heap.unpark t id)).setOp t .none)
  | insert (hop : s.ops t = .none) (hmem : i ∈ s.held t) :
      Step x maxTasks s (.insert t i) ((s.setHeld t ((s.held t).erase i)).setOp t (.inserts [i]))
  | drop (hop : s.ops t = .none) (hmem : i ∈ s.held t) :
      Step x maxTasks s (.drop t i) ((s.setHeap (s.heap.freeSlot i)).setHeld t ((s.held t).erase i))
  | release (hop : s.ops t = .none) (hbase : x.baseIndex address = some i) (howner : s.owner i = some r)
      (hlive : s.heap.live i = true) : Step x maxTasks s (.release t address) (s.vacate t i r)
  | close (hop : s.ops t = .none) (hclosing : s.closing t = (i, some r) :: rest) :
      Step x maxTasks s (.close t) { s.setClosing t ((i, none) :: rest) with dropped := s.dropped ++ [r] }
  | free (hop : s.ops t = .none) (hclosing : s.closing t = (i, none) :: rest) :
      Step x maxTasks s (.free t) ((s.setHeap (s.heap.freeSlot i)).setClosing t rest)
  | channelNew (hop : s.ops t = .none) (hfree : s.heap.free = a :: rest) :
      Step x maxTasks s (.channelNew t) ((s.setHeap (s.heap.setFree rest)).setOp t (.channelNew a))
  | taskSpawn (hop : s.ops t = .none) (hlt : s.liveTasks < maxTasks) :
      Step x maxTasks s (.taskSpawn t) ((s.setLiveTasks (s.liveTasks + 1)).setOp t .spawnClaimed)
  | spawnedOk (hop : s.ops t = .spawnReserved i) :
      Step x maxTasks s (.spawned t true) { s.setOp t (.inserts [i]) with running := s.running + 1 }
  | spawnedFail (hop : s.ops t = .spawnReserved i) : Step x maxTasks s (.spawned t false) (s.setOp t (.spawnFailed i))
  | taskEnds (hpos : 0 < s.running) : Step x maxTasks s .taskEnds
        { s.setLiveTasks (s.liveTasks - 1) with running := s.running - 1 }
  | occupy (hop : s.ops t = .inserts (i :: todo)) : Step x maxTasks s (.next t) (s.occupy t i todo)
  | store (hop : s.ops t = .storing i r g todo) :
      Step x maxTasks s (.next t) ((s.setSlot i ⟨(s.slots i).token, some r⟩).setOp t (.stamping i r g todo))
  | stamp (hop : s.ops t = .stamping i r g todo) : Step x maxTasks s (.next t) (s.stamp t i r g todo)
  | channelSecond (hop : s.ops t = .channelNew a) (hfree : s.heap.free = b :: rest) :
      Step x maxTasks s (.next t) ((s.setHeap (s.heap.setFree rest)).setOp t (.inserts [a, b]))
  | channelFull (hop : s.ops t = .channelNew a) (hfree : s.heap.free = []) :
      Step x maxTasks s (.next t) (s.setOp t (.channelFull a))
  | channelBack (hop : s.ops t = .channelFull a) :
      Step x maxTasks s (.next t) ((s.setHeap (s.heap.freeSlot a)).setOp t .none)
  | spawnTake (hop : s.ops t = .spawnClaimed) (hfree : s.heap.free = i :: rest) :
      Step x maxTasks s (.next t) ((s.setHeap (s.heap.setFree rest)).setOp t (.spawnReserved i))
  | spawnFull (hop : s.ops t = .spawnClaimed) (hfree : s.heap.free = []) :
      Step x maxTasks s (.next t) (s.setOp t .spawnFull)
  | spawnUncount (hop : s.ops t = .spawnFull) :
      Step x maxTasks s (.next t) ((s.setLiveTasks (s.liveTasks - 1)).setOp t .none)
  | spawnUndo (hop : s.ops t = .spawnFailed i) :
      Step x maxTasks s (.next t) ((s.setLiveTasks (s.liveTasks - 1)).setOp t (.spawnUndone i))
  | spawnBack (hop : s.ops t = .spawnUndone i) :
      Step x maxTasks s (.next t) ((s.setHeap (s.heap.freeSlot i)).setOp t .none)

/-! ## The step function takes no others -/

variable {x : Layout} {maxTasks : ℕ} {h h' : Heap} {s s' : State} {t : TaskId} {l : Label} {i id : ℕ}
  {w : WaitId} {rest : List ℕ}

lemma tryReserve_cons (hfree : h.free = i :: rest) : h.tryReserve = some (i, h.setFree rest) := by
  simp only [Heap.tryReserve, hfree]

lemma tryReserve_nil (hfree : h.free = []) : h.tryReserve = none := by
  simp only [Heap.tryReserve, hfree]

lemma enter_step (hop : s.ops t = .reserving) (hparked : s.heap.parked t = none) :
    Step x maxTasks s (.enter t) (s.reserved t (s.heap.reservePass t)) := by
  cases hfree : s.heap.free with
  | nil =>
    simp only [Heap.reservePass, tryReserve_nil hfree]
    exact .enterWaiting hop hparked hfree
  | cons i rest =>
    simp only [Heap.reservePass, tryReserve_cons hfree]
    exact .enterGot hop hparked hfree

lemma relock_step (hstep : (s.heap.relock t reported).map (s.reserved t) = some s') :
    Step x maxTasks s (.relock t reported) s' := by
  obtain ⟨r, hrelock, rfl⟩ := map_eq_some_iff.mp hstep
  unfold Heap.relock at hrelock
  split at hrelock
  · next id w hparked =>
    obtain ⟨hreported, rfl⟩ := of_guard hrelock
    by_cases hcancelled : reported = .cancelled
    · rw [if_pos hcancelled]
      exact .relockCancelled hparked (hreported hcancelled)
    · rw [if_neg hcancelled]
      cases hfree : s.heap.free with
      | nil =>
        have hnil : (s.heap.unpark t id).free = [] := hfree
        simp only [Heap.reservePass, tryReserve_nil hnil]
        exact .relockWaiting hparked hfree
      | cons i rest =>
        have hcons : (s.heap.unpark t id).free = i :: rest := hfree
        simp only [Heap.reservePass, tryReserve_cons hcons]
        exact .relockGot hparked hfree
  · cases hrelock

lemma next_step (hstep : next s t = some s') : Step x maxTasks s (.next t) s' := by
  unfold next at hstep
  split at hstep
  · next hop =>
    cases hstep
    exact .occupy hop
  · next hop =>
    cases hstep
    exact .store hop
  · next hop =>
    cases hstep
    exact .stamp hop
  · next a hop =>
    cases hfree : s.heap.free with
    | nil =>
      rw [tryReserve_nil hfree] at hstep
      cases hstep
      exact .channelFull hop hfree
    | cons b rest =>
      rw [tryReserve_cons hfree] at hstep
      cases hstep
      exact .channelSecond hop hfree
  · next hop =>
    cases hstep
    exact .channelBack hop
  · next hop =>
    cases hfree : s.heap.free with
    | nil =>
      rw [tryReserve_nil hfree] at hstep
      cases hstep
      exact .spawnFull hop hfree
    | cons i rest =>
      rw [tryReserve_cons hfree] at hstep
      cases hstep
      exact .spawnTake hop hfree
  · next hop =>
    cases hstep
    exact .spawnUncount hop
  · next hop =>
    cases hstep
    exact .spawnUndo hop
  · next hop =>
    cases hstep
    exact .spawnBack hop
  · cases hstep

lemma step_cases (hstep : step x maxTasks s l = some s') : Step x maxTasks s l s' := by
  cases l with
  | cancel t =>
    cases hstep
    exact .cancel
  | claim t =>
    obtain ⟨h, hclaim, rfl⟩ := map_eq_some_iff.mp hstep
    unfold Heap.claim at hclaim
    split at hclaim
    · next id w hparked =>
      obtain ⟨-, rfl⟩ := of_guard hclaim
      exact .claim hparked
    · cases hclaim
  | tryReserve t =>
    obtain ⟨hop, hstep⟩ := ite_none_right_eq_some.mp hstep
    cases hfree : s.heap.free with
    | nil =>
      rw [tryReserve_nil hfree] at hstep
      cases hstep
      exact .refused
    | cons i rest =>
      rw [tryReserve_cons hfree] at hstep
      cases hstep
      exact .tryReserve hop hfree
  | reserve t =>
    obtain ⟨hop, rfl⟩ := of_guard hstep
    exact .reserve hop
  | enter t =>
    obtain ⟨⟨hop, hparked⟩, rfl⟩ := of_guard hstep
    exact enter_step hop hparked
  | relock t reported => exact relock_step hstep
  | insert t i =>
    obtain ⟨⟨hop, hmem⟩, rfl⟩ := of_guard hstep
    exact .insert hop hmem
  | drop t i =>
    obtain ⟨⟨hop, hmem⟩, rfl⟩ := of_guard hstep
    exact .drop hop hmem
  | release t address =>
    obtain ⟨hop, hstep⟩ := ite_none_right_eq_some.mp hstep
    split at hstep
    · cases hstep
      exact .refused
    · next i hbase =>
      split at hstep
      · next r howner =>
        cases hstep
        split
        · next hlive => exact .release hop hbase howner hlive
        · exact .refused
      · cases hstep
  | close t =>
    simp only [step] at hstep
    split at hstep
    · next hop hclosing =>
      cases hstep
      exact .close hop hclosing
    · cases hstep
  | free t =>
    simp only [step] at hstep
    split at hstep
    · next hop hclosing =>
      cases hstep
      exact .free hop hclosing
    · cases hstep
  | channelNew t =>
    obtain ⟨hop, hstep⟩ := ite_none_right_eq_some.mp hstep
    cases hfree : s.heap.free with
    | nil =>
      rw [tryReserve_nil hfree] at hstep
      cases hstep
      exact .refused
    | cons a rest =>
      rw [tryReserve_cons hfree] at hstep
      cases hstep
      exact .channelNew hop hfree
  | taskSpawn t =>
    obtain ⟨hop, hstep⟩ := ite_none_right_eq_some.mp hstep
    split at hstep
    · next hlt =>
      cases hstep
      exact .taskSpawn hop hlt
    · cases hstep
      exact .refused
  | spawned t ok =>
    simp only [step] at hstep
    split at hstep
    · next i hop =>
      cases ok with
      | true =>
        cases hstep
        exact .spawnedOk hop
      | false =>
        cases hstep
        exact .spawnedFail hop
    · cases hstep
  | taskEnds =>
    obtain ⟨hpos, rfl⟩ := of_guard hstep
    exact .taskEnds hpos
  | next t => exact next_step hstep

lemma Step.heapStep (hstep : Step x maxTasks s l s') : HeapStep s.heap s'.heap := by
  cases hstep with
  | cancel => exact .cancel
  | claim hparked => exact .claim hparked
  | tryReserve _ hfree | enterGot _ _ hfree | channelNew _ hfree | channelSecond _ hfree
  | spawnTake _ hfree => exact .take hfree
  | enterWaiting _ hparked hfree => exact .park hparked hfree
  | relockGot hparked hfree => exact .takeAgain hparked hfree
  | relockWaiting hparked hfree => exact .parkAgain hparked hfree
  | relockCancelled hparked hwait => exact .giveUp hparked hwait
  | drop | free | channelBack | spawnBack => exact .free
  | release => exact .vacate
  | occupy => exact .occupy
  | _ => exact .same

end RocNet.Resource
