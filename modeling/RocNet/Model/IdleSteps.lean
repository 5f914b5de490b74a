import RocNet.Model.Idle

/-!
# What each step of the idle protocol can do

The inversion of the step functions of `Model.Idle`. Steps that only move a worker's program counter, or only read,
are gathered in `Moves` and `Reads`; the rest, which write something shared, are named one by one.
-/

namespace RocNet.Idle

open Function Transition

/-! ## Workers -/

/-- The steps of worker `i` that write nothing, from where to where. -/
inductive Moves (s : State) (i : ℕ) : Pc → Pc → Prop
  | stop : Moves s i .top .stopped
  | pop : Moves s i .top .pop
  | run : Moves s i .pop .running
  | dry : Moves s i .pop (.inject true)
  | tick : Moves s i .running .tickPoll
  | ran : Moves s i .running .top
  | ticked : Moves s i .tickEvents (.inject false)
  | noneInjected (hlen : s.injectLen = 0) : Moves s i (.inject inLoop) (afterInject inLoop false)
  | someInjected : Moves s i (.inject inLoop) (.injectLock inLoop)
  | notNotified (hflag : s.notified i = false) : Moves s i (.swap site) (afterAnswer site false)
  | stolen : Moves s i (.steal site) (.sub site found)
  | checkWork : Moves s i .check .polling
  | checkZero (hi : i = 0) (hlen : s.injectLen = 0) : Moves s i .check .checkMain
  | checkOther (hlen : s.injectLen = 0) : Moves s i .check .blocked
  | checkDone : Moves s i .checkMain .polling
  | block : Moves s i .checkMain .blocked
  | handled : Moves s i .events .clear
  | fired : Moves s i .timers (.swap .wake)

/-- The polls: where they are made, and where they lead. -/
inductive Polls : Pc → Pc → Prop
  | tick : Polls .tickPoll .tickEvents
  | ready : Polls .polling .events
  | sleep : Polls .blocked .events

/-- The steps of worker `i`. -/
inductive WorkerStep (s : State) (i : ℕ) : State → Prop
  | move (hpc : s.pc i = p) (hmove : Moves s i p q) : WorkerStep s i (s.setPc i q)
  | poll (hpc : s.pc i = p) (hpoll : Polls p q) : WorkerStep s i ((s.setPending i b).setPc i q)
  | takeInjected (hpc : s.pc i = .injectLock inLoop) (hlock : s.injectLock = none) :
      WorkerStep s i ((s.lockInject (.worker i) s.inject.tail).setPc i (.injectStore inLoop (!s.inject.isEmpty)))
  | storeLen (hpc : s.pc i = .injectStore inLoop took) :
      WorkerStep s i (s.unlockInject.setPc i (afterInject inLoop took))
  | answer (hpc : s.pc i = .swap site) (hflag : s.notified i = true) :
      WorkerStep s i ((s.setNotified i false).setPc i (.steal site))
  | searched (hpc : s.pc i = .sub site found) :
      WorkerStep s i ((s.setSearching (s.searching - 1)).setPc i (afterAnswer site found))
  | announce (hpc : s.pc i = .announce) : WorkerStep s i ((s.setSleeping i true).setPc i .check)
  | clear (hpc : s.pc i = .clear) : WorkerStep s i ((s.setSleeping i false).setPc i .timers)

/-- **What a worker's step leaves alone**: the calls, the slots, and the other workers. -/
structure OwnStep (s s' : State) (i : ℕ) : Prop where
  op : s'.op = s.op
  slot : s'.slot = s.slot
  starting : s'.starting = s.starting
  running : s.pc i ≠ .off
  runs : s'.pc i ≠ .off
  pc : ∀ j, j ≠ i → s'.pc j = s.pc j
  notified : ∀ j, j ≠ i → s'.notified j = s.notified j
  pending : ∀ j, j ≠ i → s'.pending j = s.pending j
  sleeping : ∀ j, j ≠ i → s'.sleeping j = s.sleeping j

/-! ## Calls -/

/-- The steps of a call that only read, or start it: from which operation to which. -/
inductive Reads (s : State) : Op → Op → Prop
  | push : Reads s .none (.pushLock t)
  | share : Reads s .none .loadSearching
  | searching (hpos : 0 < s.searching) : Reads s .loadSearching .none
  | notSearching : Reads s .loadSearching .loadSleeping
  | sleeper (hfirst : s.firstSleeping = some i) : Reads s .loadSleeping (.clearBit i)
  | awake (hfirst : s.firstSleeping = none) : Reads s .loadSleeping (.scan 0)
  | taken : Reads s (.scan i) (.scan (i + 1))
  | free : Reads s (.scan i) (.startLock i)
  | full : Reads s (.scan i) .none
  | slot (hslot : s.slot i = true) : Reads s (.getSlot i) (.add i)
  | noSlot (hslot : s.slot i = false) : Reads s (.getSlot i) .none
  | startFree (hslot : s.slot i = false) : Reads s (.startSlot i) (.startShared i)
  | threadFailed : Reads s (.startThread i) (.startSub i)

/-- The steps of the calls of thread `θ`. -/
inductive OpStep (s : State) (θ : Thread) : State → Prop
  | read (hop : s.op θ = o) (hread : Reads s o o') : OpStep s θ (s.setOp θ o')
  | pushLock (hop : s.op θ = .pushLock t) (hlock : s.injectLock = none) :
      OpStep s θ ((s.lockInject θ (s.inject ++ [t])).setOp θ .pushStore)
  | pushStore (hop : s.op θ = .pushStore) : OpStep s θ (s.unlockInject.setOp θ .loadSearching)
  | clearBit (hop : s.op θ = .clearBit i) (hset : s.sleeping i = true) :
      OpStep s θ ((s.setSleeping i false).setOp θ (.getSlot i))
  | clearedBit (hop : s.op θ = .clearBit i) (hset : s.sleeping i = false) :
      OpStep s θ ((s.setSleeping i false).setOp θ .none)
  | add (hop : s.op θ = .add i) : OpStep s θ ((s.setSearching (s.searching + 1)).setOp θ (.storeNotified i))
  | storeNotified (hop : s.op θ = .storeNotified i) : OpStep s θ ((s.setNotified i true).setOp θ (.wake i))
  | wake (hop : s.op θ = .wake i) : OpStep s θ ((s.setPending i true).setOp θ .none)
  | startLock (hop : s.op θ = .startLock i) (hlock : s.starting = none) :
      OpStep s θ ((s.setStarting (some θ)).setOp θ (.startSlot i))
  | startAbandon (hop : s.op θ = .startSlot i ∨ s.op θ = .startShared i) :
      OpStep s θ ((s.setStarting none).setOp θ .none)
  | startShared (hop : s.op θ = .startShared i) :
      OpStep s θ (((s.setNotified i false).setPending i false).setOp θ (.startNotified i))
  | startNotified (hop : s.op θ = .startNotified i) : OpStep s θ ((s.setNotified i true).setOp θ (.startAdd i))
  | startAdd (hop : s.op θ = .startAdd i) : OpStep s θ ((s.setSearching (s.searching + 1)).setOp θ (.startThread i))
  | startThread (hop : s.op θ = .startThread i) : OpStep s θ ((s.setPc i (.swap .entry)).setOp θ (.startSet i))
  | startSet (hop : s.op θ = .startSet i) : OpStep s θ (((s.setSlot i).setStarting none).setOp θ .none)
  | startSub (hop : s.op θ = .startSub i) :
      OpStep s θ (((s.setSearching (s.searching - 1)).setStarting none).setOp θ .none)
  | finish (hop : s.op θ = .none) : OpStep s θ (State.setOp { s with mainDone := true } θ .wakeMain)
  | wakeMain (hop : s.op θ = .wakeMain) : OpStep s θ ((s.setPending 0 true).setOp θ .none)

/-! ## The step function takes no others -/

variable {s s' : State} {i : ℕ}

lemma stepWorker_cases (h : stepWorker s i b = some s') : s.op (.worker i) = .none ∧ WorkerStep s i s' := by
  unfold stepWorker at h
  split at h
  · next hop =>
    refine ⟨hop, ?_⟩
    split at h
    · cases h
    · cases h
    · next hpc =>
      cases h
      split
      · exact .move hpc .stop
      · exact .move hpc .pop
    · next hpc =>
      cases h
      split
      · exact .move hpc .run
      · exact .move hpc .dry
    · next hpc =>
      cases h
      split
      · exact .move hpc .tick
      · exact .move hpc .ran
    · next hpc =>
      cases h
      exact .poll hpc .tick
    · next hpc =>
      cases h
      exact .move hpc .ticked
    · next hpc =>
      cases h
      split
      · next hlen => exact .move hpc (.noneInjected hlen)
      · exact .move hpc .someInjected
    · next hpc =>
      obtain ⟨hlock, rfl⟩ := of_guard h
      exact .takeInjected hpc hlock
    · next hpc =>
      cases h
      exact .storeLen hpc
    · next hpc =>
      split at h
      · next hflag =>
        cases h
        exact .answer hpc hflag
      · next hflag =>
        cases h
        exact .move hpc (.notNotified (Bool.eq_false_iff.mpr hflag))
    · next hpc =>
      cases h
      exact .move hpc .stolen
    · next hpc =>
      cases h
      exact .searched hpc
    · next hpc =>
      cases h
      exact .announce hpc
    · next hpc =>
      cases h
      split
      · exact .move hpc .checkWork
      · next hlen =>
        have hzero : s.injectLen = 0 := Nat.eq_zero_of_not_pos hlen
        split
        · next hi => exact .move hpc (.checkZero hi hzero)
        · exact .move hpc (.checkOther hzero)
    · next hpc =>
      cases h
      split
      · exact .move hpc .checkDone
      · exact .move hpc .block
    · next hpc =>
      cases h
      exact .poll hpc .ready
    · next hpc =>
      cases h
      exact .poll hpc .sleep
    · next hpc =>
      cases h
      exact .move hpc .handled
    · next hpc =>
      cases h
      exact .clear hpc
    · next hpc =>
      cases h
      exact .move hpc .fired
  · cases h

@[simp] lemma afterInject_ne_off : afterInject inLoop took ≠ .off := by
  unfold afterInject
  split <;> simp

@[simp] lemma afterAnswer_ne_off : afterAnswer site found ≠ .off := by
  cases site with
  | loop => cases found <;> simp [afterAnswer]
  | _ => simp [afterAnswer]

lemma Moves.ne_off (h : Moves s i p q) : p ≠ .off ∧ q ≠ .off := by
  cases h <;> simp

lemma Polls.ne_off (h : Polls p q) : p ≠ .off ∧ q ≠ .off := by
  cases h <;> simp

lemma WorkerStep.own (h : WorkerStep s i s') : OwnStep s s' i := by
  have hfrom : ∀ {p : Pc}, s.pc i = p → p ≠ .off → s.pc i ≠ .off := fun hpc hp => hpc ▸ hp
  have hto : ∀ q : Pc, q ≠ .off → update s.pc i q i ≠ .off := by
    intro q hq
    simpa using hq
  have hrest : ∀ {A : Type} (f : ℕ → A) (a : A) (j : ℕ), j ≠ i → update f i a j = f j :=
    fun f a j hj => update_of_ne hj a f
  cases h with
  | move hpc hmove =>
    exact ⟨rfl, rfl, rfl, hfrom hpc hmove.ne_off.1, hto _ hmove.ne_off.2, hrest _ _,
      fun _ _ => rfl, fun _ _ => rfl, fun _ _ => rfl⟩
  | poll hpc hpoll =>
    exact ⟨rfl, rfl, rfl, hfrom hpc hpoll.ne_off.1, hto _ hpoll.ne_off.2, hrest _ _,
      fun _ _ => rfl, hrest _ _, fun _ _ => rfl⟩
  | takeInjected hpc hlock | storeLen hpc | searched hpc =>
    exact ⟨rfl, rfl, rfl, hfrom hpc (by simp), hto _ (by simp), hrest _ _,
      fun _ _ => rfl, fun _ _ => rfl, fun _ _ => rfl⟩
  | answer hpc hflag =>
    exact ⟨rfl, rfl, rfl, hfrom hpc (by simp), hto _ (by simp), hrest _ _, hrest _ _, fun _ _ => rfl, fun _ _ => rfl⟩
  | announce hpc | clear hpc =>
    exact ⟨rfl, rfl, rfl, hfrom hpc (by simp), hto _ (by simp), hrest _ _, fun _ _ => rfl, fun _ _ => rfl, hrest _ _⟩

lemma stepOp_cases (h : stepOp s θ ok = some s') : OpStep s θ s' := by
  unfold stepOp at h
  split at h
  · cases h
  · next hop =>
    obtain ⟨hlock, rfl⟩ := of_guard h
    exact .pushLock hop hlock
  · next hop =>
    cases h
    exact .pushStore hop
  · next hop =>
    cases h
    split
    · next hpos => exact .read hop (.searching hpos)
    · exact .read hop .notSearching
  · next hop =>
    split at h
    · next hfirst =>
      cases h
      exact .read hop (.sleeper hfirst)
    · next hfirst =>
      cases h
      exact .read hop (.awake hfirst)
  · next hop =>
    split at h
    · cases h
      split
      · exact .read hop .taken
      · exact .read hop .free
    · cases h
      exact .read hop .full
  · next hop =>
    cases h
    split
    · next hset => exact .clearBit hop hset
    · next hset => exact .clearedBit hop (Bool.eq_false_iff.mpr hset)
  · next hop =>
    cases h
    split
    · next hslot => exact .read hop (.slot hslot)
    · next hslot => exact .read hop (.noSlot (Bool.eq_false_iff.mpr hslot))
  · next hop =>
    cases h
    exact .add hop
  · next hop =>
    cases h
    exact .storeNotified hop
  · next hop =>
    cases h
    exact .wake hop
  · next hop =>
    obtain ⟨hlock, rfl⟩ := of_guard h
    exact .startLock hop hlock
  · next hop =>
    split at h
    · cases h
      exact .startAbandon (.inl hop)
    · next hslot =>
      cases h
      exact .read hop (.startFree (Bool.eq_false_iff.mpr hslot))
  · next hop =>
    split at h
    · cases h
      exact .startShared hop
    · cases h
      exact .startAbandon (.inr hop)
  · next hop =>
    cases h
    exact .startNotified hop
  · next hop =>
    cases h
    exact .startAdd hop
  · next hop =>
    split at h
    · cases h
      exact .startThread hop
    · cases h
      exact .read hop .threadFailed
  · next hop =>
    cases h
    exact .startSet hop
  · next hop =>
    cases h
    exact .startSub hop
  · next hop =>
    cases h
    exact .wakeMain hop

/-- Every step is one of a worker that is inside no call, or of a thread's call; a call's steps
after its first are labelled as such. -/
theorem step_cases (h : step s l = some s') : (∃ i, s.op (.worker i) = .none ∧ WorkerStep s i s') ∨
      ∃ θ, OpStep s θ s' ∧ (s.op θ = .none ∨ ∃ ok, l = .op θ ok) := by
  cases l with
  | push id t =>
    obtain ⟨hop, rfl⟩ := of_guard h
    exact .inr ⟨.plain id, .read hop .push, .inl hop⟩
  | share i =>
    obtain ⟨hop, rfl⟩ := of_guard h
    exact .inr ⟨.worker i, .read hop.1 .share, .inl hop.1⟩
  | op θ ok => exact .inr ⟨θ, stepOp_cases h, .inr ⟨ok, rfl⟩⟩
  | worker i b => exact .inl ⟨i, stepWorker_cases h⟩
  | finish i =>
    obtain ⟨hop, rfl⟩ := of_guard h
    exact .inr ⟨.worker i, .finish hop.1, .inl hop.1⟩

end RocNet.Idle
