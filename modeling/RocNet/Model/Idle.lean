import Mathlib.Data.Nat.Notation
import Mathlib.Tactic.Simps.Basic
import RocNet.Library.Transition

/-!
# Idle workers: sleeping, and being woken for injected tasks

The part of `sched.rs` that decides whether anybody is awake to run a task that a plain thread pushed: `push` onto
`INJECT`, `notify_idle`, `start_worker`, and the workers' loop with `park`, `take_injected` and `answer_notification`.
Each atomic operation is a step, and any number of threads interleave.

What tasks do is left open: a worker's pop, a task's `push` and `steal` may or may not find something, and `poll` may
return at any time. `INJECT`'s lock is held from the push or pop until the new length is stored, since the length is
read without it. Thread creation, and the event queue a new worker needs, may fail.
-/

namespace RocNet.Idle

open Function

inductive Thread
  | worker (index : ℕ)
  | plain (id : ℕ)
  deriving DecidableEq, Repr

/-- Where `answer_notification` is called from: at the start of `run`, in its loop, at the end of
`park`. -/
inductive Site
  | entry
  | loop
  | wake
  deriving DecidableEq, Repr

/-- Where a worker's code stands (sched.rs:411-478, 585-596). -/
inductive Pc
  | off
  | top
  | pop
  | running
  -- after every `EVENT_INTERVAL`th task.
  | tickPoll
  | tickEvents
  -- `take_injected`: the call in the loop, or the one every `EVENT_INTERVAL`th task
  | inject (inLoop : Bool)
  | injectLock (inLoop : Bool)
  | injectStore (inLoop : Bool) (took : Bool)
  -- `answer_notification`
  | swap (site : Site)
  | steal (site : Site)
  | sub (site : Site) (found : Bool)
  -- `park`
  | announce
  | check
  | checkMain
  | polling
  | blocked
  | events
  | clear
  | timers
  | stopped
  deriving DecidableEq, Repr

/-- The call of `push`, `notify_idle` or `start_worker` a thread is inside (sched.rs:197-220,
289-342), or the end of `run_task` for `main!`. -/
inductive Op
  | none
  -- `push`
  | pushLock (t : ℕ)
  | pushStore
  -- `notify_idle`
  | loadSearching
  | loadSleeping
  | scan (i : ℕ)
  | clearBit (i : ℕ)
  | getSlot (i : ℕ)
  | add (i : ℕ)
  | storeNotified (i : ℕ)
  | wake (i : ℕ)
  -- `start_worker`
  | startLock (i : ℕ)
  | startSlot (i : ℕ)
  | startShared (i : ℕ)
  | startNotified (i : ℕ)
  | startAdd (i : ℕ)
  | startThread (i : ℕ)
  | startSet (i : ℕ)
  | startSub (i : ℕ)
  | wakeMain
  deriving DecidableEq, Repr

structure State where
  count : ℕ
  inject : List ℕ
  injectLen : ℕ
  injectLock : Option Thread
  sleeping : ℕ → Bool
  searching : ℕ
  -- Each worker's flag, and whether a wake-up is pending in its event queue.
  notified : ℕ → Bool
  pending : ℕ → Bool
  slot : ℕ → Bool
  starting : Option Thread
  mainDone : Bool
  pc : ℕ → Pc
  op : Thread → Op

namespace State

variable (s : State)

@[simps] def setPc (i : ℕ) (p : Pc) : State := { s with pc := update s.pc i p }

@[simps] def setOp (θ : Thread) (o : Op) : State := { s with op := update s.op θ o }

@[simps] def setSleeping (i : ℕ) (b : Bool) : State :=
  { s with sleeping := update s.sleeping i b }

@[simps] def setNotified (i : ℕ) (b : Bool) : State :=
  { s with notified := update s.notified i b }

@[simps] def setPending (i : ℕ) (b : Bool) : State :=
  { s with pending := update s.pending i b }

@[simps] def setSlot (i : ℕ) : State := { s with slot := update s.slot i true }

@[simps] def setSearching (n : ℕ) : State := { s with searching := n }

/-- Take `INJECT`'s lock, leaving it with these tasks. -/
@[simps] def lockInject (θ : Thread) (q : List ℕ) : State :=
  { s with injectLock := some θ, inject := q }

/-- Store `INJECT`'s length and release its lock. -/
@[simps] def unlockInject : State := { s with injectLock := none, injectLen := s.inject.length }

@[simps] def setStarting (o : Option Thread) : State := { s with starting := o }

/-- The worker `notify_idle` chooses: `SLEEPING.trailing_zeros()`. -/
def firstSleeping : Option ℕ := (List.range s.count).find? s.sleeping

end State

/-! ## The labels -/

inductive Label
  | push (id : ℕ) (t : ℕ)
  -- A worker's own `push` found a backlog and the worker saturated: it calls `notify_idle`.
  | share (i : ℕ)
  -- The next atomic operation of the thread's call; what may fail fails unless `ok`.
  | op (θ : Thread) (ok : Bool)
  -- The next atomic operation of a worker's code, with what its outcome is left open to.
  | worker (i : ℕ) (b : Bool)
  | finish (i : ℕ)
  deriving DecidableEq, Repr

/-! ## The steps -/

/-- Where a worker goes after `take_injected`. -/
def afterInject (inLoop took : Bool) : Pc := if inLoop && !took then .swap .loop else .top

/-- Where a worker goes after `answer_notification`. -/
def afterAnswer (site : Site) (found : Bool) : Pc :=
  match site with
  | .entry | .wake => .top
  | .loop => if found then .top else .announce

/-- Whether a worker's code may be inside `wake`, and so `push`, at this point. -/
def Pc.wakes : Pc → Bool
  | .running | .tickEvents | .events | .timers => true
  | _ => false

/-- The next atomic operation of `push`, `notify_idle` and `start_worker`. -/
def stepOp (s : State) (θ : Thread) (ok : Bool) : Option State :=
  match s.op θ with
  | .none => none
  | .pushLock t =>
    if s.injectLock = none then some ((s.lockInject θ (s.inject ++ [t])).setOp θ .pushStore) else none
  | .pushStore => some (s.unlockInject.setOp θ .loadSearching)
  | .loadSearching => some (s.setOp θ (if s.searching > 0 then .none else .loadSleeping))
  | .loadSleeping =>
    match s.firstSleeping with
    | some i => some (s.setOp θ (.clearBit i))
    | none => some (s.setOp θ (.scan 0))
  | .scan i =>
    -- slot by slot
    if i < s.count then some (s.setOp θ (if s.slot i then .scan (i + 1) else .startLock i))
    else some (s.setOp θ .none)
  | .clearBit i =>
    some ((s.setSleeping i false).setOp θ (if s.sleeping i then .getSlot i else .none))
  | .getSlot i => some (s.setOp θ (if s.slot i then .add i else .none))
  | .add i => some ((s.setSearching (s.searching + 1)).setOp θ (.storeNotified i))
  | .storeNotified i => some ((s.setNotified i true).setOp θ (.wake i))
  | .wake i => some ((s.setPending i true).setOp θ .none)
  | .startLock i =>
    if s.starting = none then some ((s.setStarting (some θ)).setOp θ (.startSlot i)) else none
  | .startSlot i =>
    if s.slot i then some ((s.setStarting none).setOp θ .none) else some (s.setOp θ (.startShared i))
  | .startShared i =>
    if ok then some (((s.setNotified i false).setPending i false).setOp θ (.startNotified i))
    else some ((s.setStarting none).setOp θ .none)
  | .startNotified i => some ((s.setNotified i true).setOp θ (.startAdd i))
  | .startAdd i => some ((s.setSearching (s.searching + 1)).setOp θ (.startThread i))
  | .startThread i =>
    if ok then some ((s.setPc i (.swap .entry)).setOp θ (.startSet i))
    else some (s.setOp θ (.startSub i))
  | .startSet i => some (((s.setSlot i).setStarting none).setOp θ .none)
  | .startSub _ =>
    some (((s.setSearching (s.searching - 1)).setStarting none).setOp θ .none)
  | .wakeMain => some ((s.setPending 0 true).setOp θ .none)

/-- The next atomic operation of worker `i`'s code. -/
def stepWorker (s : State) (i : ℕ) (b : Bool) : Option State :=
  if s.op (.worker i) = .none then
    match s.pc i with
    | .off | .stopped => none
    | .top => some (s.setPc i (if i = 0 ∧ s.mainDone then .stopped else .pop))
    | .pop => some (s.setPc i (if b then .running else .inject true))
    | .running => some (s.setPc i (if b then .tickPoll else .top))
    | .tickPoll => some ((s.setPending i (s.pending i && b)).setPc i .tickEvents)
    | .tickEvents => some (s.setPc i (.inject false))
    | .inject inLoop =>
      some (s.setPc i (if s.injectLen = 0 then afterInject inLoop false else .injectLock inLoop))
    | .injectLock inLoop =>
      if s.injectLock = none then
        some ((s.lockInject (.worker i) s.inject.tail).setPc i
          (.injectStore inLoop (!s.inject.isEmpty)))
      else none
    | .injectStore inLoop took => some (s.unlockInject.setPc i (afterInject inLoop took))
    | .swap site =>
      if s.notified i then some ((s.setNotified i false).setPc i (.steal site))
      else some (s.setPc i (afterAnswer site false))
    | .steal site => some (s.setPc i (.sub site b))
    | .sub site found =>
      some ((s.setSearching (s.searching - 1)).setPc i (afterAnswer site found))
    | .announce => some ((s.setSleeping i true).setPc i .check)
    | .check =>
      some (s.setPc i (if s.injectLen > 0 then .polling else if i = 0 then .checkMain else .blocked))
    | .checkMain => some (s.setPc i (if s.mainDone then .polling else .blocked))
    | .polling | .blocked => some ((s.setPending i (s.pending i && b)).setPc i .events)
    | .events => some (s.setPc i .clear)
    | .clear => some ((s.setSleeping i false).setPc i .timers)
    | .timers => some (s.setPc i (.swap .wake))
  else none

def step (s : State) : Label → Option State
  | .push id t =>
    if s.op (.plain id) = .none then some (s.setOp (.plain id) (.pushLock t)) else none
  | .share i =>
    if s.op (.worker i) = .none ∧ (s.pc i).wakes then some (s.setOp (.worker i) .loadSearching) else none
  | .op θ ok => stepOp s θ ok
  | .worker i b => stepWorker s i b
  | .finish i =>
    if s.op (.worker i) = .none ∧ s.pc i = .running then
      some (State.setOp { s with mainDone := true } (.worker i) .wakeMain)
    else none

/-- `run_main` with `count` workers: worker 0's slot is set, its loop about to start. -/
def initial (count : ℕ) : State where
  count := count
  inject := []
  injectLen := 0
  injectLock := none
  sleeping := fun _ => false
  searching := 0
  notified := fun _ => false
  pending := fun _ => false
  slot := fun i => i = 0
  starting := none
  mainDone := false
  pc := fun i => if i = 0 then .swap .entry else .off
  op := fun _ => .none

def system : Transition.System State Label where
  init s := ∃ count, 1 ≤ count ∧ count ≤ 64 ∧ s = initial count
  step := step

end RocNet.Idle
