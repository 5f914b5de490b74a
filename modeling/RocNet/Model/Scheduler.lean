import Mathlib.Data.List.Sort
import RocNet.Library.Transition

/-!
# The scheduler's tasks, one atomic operation at a time

`sched.rs` runs tasks as coroutines on worker threads. A label names a thread and the next thing that thread does, and
every load, store and compare-exchange of a task's words, and every queue operation under its lock, is a step of its
own, so any interleaving of any number of workers and plain threads is a run.

`Loop` is where a worker's own code stands; a plain thread stays at `idle`. `Op` is the call a thread is inside
(`wake`, `schedule`, `push`, `TaskRef::cancel`). `Code` is where a task's own code stands in a wait (`begin_wait`,
`park`, `wait_suspended`).

`queue_len` is the queue's length and changes with it under the queue's lock. The sequences of wait and task ids
(`AtomicU64`) are taken not to wrap.
-/

namespace RocNet.Sched

open Function

abbrev TaskId := ℕ
abbrev WaitId := ℕ
abbrev Instant := ℕ

/-- How a wait ended (`enum Woke`). -/
inductive Woke
  | ready
  | timedOut
  | cancelled
  deriving DecidableEq, Repr

/-! ## Task state bits (sched.rs:117-121) -/

def RUNNING : UInt8 := 1
def NOTIFIED : UInt8 := 2
def DONE : UInt8 := 4

/-- A wait as `begin_wait` started it: its id, and whether cancelling may end it. -/
structure Wait where
  id : WaitId
  cancellable : Bool
  deriving DecidableEq, Repr

/-- Where a task's own code stands. -/
inductive Code
  | user
  -- `begin_wait`
  | beginWoke (w : Wait)
  | beginCancellable (w : Wait)
  | beginWait (w : Wait)
  | beginCheck (w : Wait)
  | beginDone (w : Wait)
  | begun (w : Wait)
  -- `park`
  | parking (w : Wait) (deadline : Option Instant)
  -- `wait_suspended`
  | timing (w : Wait) (deadline : Option Instant)
  | suspending (w : Wait) (deadline : Option Instant)
  | suspended (w : Wait) (deadline : Option Instant)
  | resumed (w : Wait) (deadline : Option Instant)
  | reading (w : Wait) (deadline : Option Instant)
  -- `wait_suspended` or `park` has returned this reason for the wait.
  | reported (w : Wait) (deadline : Option Instant) (woke : Woke)
  deriving DecidableEq, Repr

/-- A task (`struct Task`). `latest` is the wait it began last: history, read by no step. -/
structure Task where
  state : UInt8
  wait : WaitId
  woke : Woke
  timer : Option (ℕ × Instant × WaitId)
  cancelled : Bool
  cancellable : Bool
  co : Bool
  finished : Bool
  code : Code
  latest : WaitId
  deriving DecidableEq, Repr

/-- A task as `new_task` makes it. -/
def newTask : Task where
  state := NOTIFIED
  wait := 0
  woke := .ready
  timer := none
  cancelled := false
  cancellable := false
  co := true
  finished := false
  code := .user
  latest := 0

/-- What happened to a wait: history, read by no step but the guard that a waker names a wait
which its task has begun. -/
structure WaitRecord where
  -- The task whose `begin_wait` returned this id.
  task : Option TaskId
  deadline : Option Instant
  -- The clock reading `fire_timers` took when it found that timer due.
  fired : Option Instant
  -- The reason of the wake-up whose compare-exchange claimed it.
  claimed : Option Woke
  deriving DecidableEq, Repr

inductive Thread
  | worker (index : ℕ)
  | plain (id : ℕ)
  deriving DecidableEq, Repr

/-- Where a worker's own code stands. -/
inductive Loop
  | idle
  | popped (t : TaskId)
  | running (t : TaskId)
  | yielded (t : TaskId)
  | waiting (t : TaskId)
  -- woken while suspending.
  | woken (t : TaskId)
  | requeuing (t : TaskId)
  | returned (t : TaskId)
  | retiring (t : TaskId)
  | finishing (t : TaskId)
  -- Stolen, or taken from `INJECT`; about to go on its own queue.
  | moving (ts : List TaskId)
  | firing (due : List (TaskId × WaitId))
  deriving DecidableEq, Repr

/-- The call a thread is inside. -/
inductive Op
  | none
  -- `TaskRef::cancel`
  | cancelStore (t : TaskId)
  | cancelLoad (t : TaskId)
  | cancelCheck (t : TaskId) (w : WaitId)
  -- `wake`
  | claim (t : TaskId) (w : WaitId) (r : Woke)
  | report (t : TaskId) (w : WaitId) (r : Woke)
  -- `schedule`
  | observe (t : TaskId)
  | mark (t : TaskId) (seen : UInt8)
  | push (t : TaskId)
  deriving DecidableEq, Repr

/-- An entry of a worker's timers: its key `(Instant, wait)`, and the task to wake. -/
structure Timer where
  deadline : Instant
  wait : WaitId
  task : TaskId
  deriving DecidableEq, Repr

/-- The order of the timers' `BTreeMap` keys. -/
def Timer.le (a b : Timer) : Prop :=
  a.deadline < b.deadline ∨ (a.deadline = b.deadline ∧ a.wait ≤ b.wait)

instance : DecidableRel Timer.le := fun a b =>
  inferInstanceAs (Decidable (a.deadline < b.deadline ∨ (a.deadline = b.deadline ∧ a.wait ≤ b.wait)))

structure State where
  tasks : TaskId → Task
  nextTask : TaskId
  nextWait : WaitId
  queue : ℕ → List TaskId
  inject : List TaskId
  timers : ℕ → List Timer
  loop : Thread → Loop
  op : Thread → Op
  now : Instant
  record : WaitId → WaitRecord

namespace State

variable (s : State)

@[simps] def setTask (t : TaskId) (f : Task → Task) : State :=
  { s with tasks := update s.tasks t (f (s.tasks t)) }

@[simps] def setLoop (θ : Thread) (l : Loop) : State := { s with loop := update s.loop θ l }

@[simps] def setOp (θ : Thread) (o : Op) : State := { s with op := update s.op θ o }

@[simps] def setQueue (i : ℕ) (q : List TaskId) : State := { s with queue := update s.queue i q }

@[simps] def setInject (q : List TaskId) : State := { s with inject := q }

@[simps] def setTimers (i : ℕ) (q : List Timer) : State :=
  { s with timers := update s.timers i q }

@[simps] def setRecord (w : WaitId) (f : WaitRecord → WaitRecord) : State :=
  { s with record := update s.record w (f (s.record w)) }

/-- A task that has been spawned (`NEXT_TASK` counts up from 1, `main!`'s). -/
def Spawned (t : TaskId) : Prop := 1 ≤ t ∧ t < s.nextTask

/-- The task a thread is running, with no call of its own under way. -/
def running (θ : Thread) : Option TaskId :=
  match s.loop θ, s.op θ with
  | .running t, .none => some t
  | _, _ => none

/-- Whether a thread may start a call: a running task's code, the worker between tasks
(handling events, or waking the waiters of a task it has just finished), or a plain
thread. -/
def mayCall (θ : Thread) : Bool :=
  match s.loop θ, s.op θ with
  | .idle, .none | .running _, .none => true
  | _, _ => false

end State

/-! ## The labels -/

/-- A call a thread starts. -/
inductive Call
  | spawn
  -- `wake(task, wait, Ready)`, by a waker made for that wait.
  | wake (t : TaskId) (w : WaitId)
  | cancel (t : TaskId)
  deriving DecidableEq, Repr

/-- What a worker between tasks takes up. -/
inductive Take
  | pop
  | steal (victim : ℕ)
  | injected
  | timers (now : Instant)
  deriving DecidableEq, Repr

/-- What a running task's code does next. -/
inductive Act
  | next
  | begin (cancellable : Bool)
  | yield
  | ret
  -- End the wait without suspending (`MultiWait::abandon`, a closed socket).
  | abandon
  -- Leave the wait as it is (an error while registering).
  | giveUp
  | park (deadline : Option Instant)
  | waitSuspended (deadline : Option Instant)
  | removeTimer (published : Bool)
  deriving DecidableEq, Repr

inductive Label
  | tick
  | call (θ : Thread) (c : Call)
  -- The next atomic operation of the thread's call; a weak compare-exchange may fail
  -- spuriously.
  | op (θ : Thread) (spurious : Bool)
  | take (θ : Thread) (k : Take)
  | loop (θ : Thread)
  | code (θ : Thread) (a : Act)
  deriving DecidableEq, Repr

/-! ## The steps -/

/-- What `schedule` does with a `state` it has just read. -/
def scheduleNext (t : TaskId) (state : UInt8) : Op :=
  if state &&& (NOTIFIED ||| DONE) ≠ 0 then .none else .mark t state

/-- Start a call (`spawn`, `TaskWaker::wake`, `TaskRef::cancel`). -/
def stepCall (s : State) (θ : Thread) : Call → Option State
  | .spawn =>
    if s.mayCall θ then
      let s' := s.setTask s.nextTask fun _ => newTask
      some (State.setOp { s' with nextTask := s.nextTask + 1 } θ (.push s.nextTask))
    else none
  | .wake t w =>
    if s.mayCall θ ∧ (s.record w).task = some t then some (s.setOp θ (.claim t w .ready)) else none
  | .cancel t => if s.mayCall θ ∧ 1 ≤ t ∧ t < s.nextTask then some (s.setOp θ (.cancelStore t)) else none

/-- The next atomic operation of `wake`, `schedule`, `push` and `cancel`
(sched.rs:165-220, 810-818). -/
def stepOp (s : State) (θ : Thread) (spurious : Bool) : Option State :=
  match s.op θ with
  | .none => none
  | .cancelStore t => some ((s.setTask t fun k => { k with cancelled := true }).setOp θ (.cancelLoad t))
  | .cancelLoad t =>
    some (s.setOp θ (if (s.tasks t).wait = 0 then .none else .cancelCheck t (s.tasks t).wait))
  | .cancelCheck t w =>
    some (s.setOp θ (if (s.tasks t).cancellable then .claim t w .cancelled else .none))
  | .claim t w r =>
    if (s.tasks t).wait = w then
      some (((s.setTask t fun k => { k with wait := 0 }).setRecord w fun h =>
        { h with claimed := some r }).setOp θ (.report t w r))
    else some (s.setOp θ .none)
  | .report t _ r => some ((s.setTask t fun k => { k with woke := r }).setOp θ (.observe t))
  | .observe t => some (s.setOp θ (scheduleNext t (s.tasks t).state))
  | .mark t seen =>
    if spurious ∨ (s.tasks t).state ≠ seen then
      some (s.setOp θ (scheduleNext t (s.tasks t).state))
    else
      some ((s.setTask t fun k => { k with state := seen ||| NOTIFIED }).setOp θ
        (if seen &&& RUNNING ≠ 0 then .none else .push t))
  | .push t =>
    match θ with
    | .worker i => some ((s.setQueue i (s.queue i ++ [t])).setOp θ .none)
    | .plain _ => some ((s.setInject (s.inject ++ [t])).setOp θ .none)

/-- A worker between tasks takes up a task, a batch of stolen ones, or its due timers
(sched.rs:253-261, 567-622). -/
def stepTake (s : State) (θ : Thread) (k : Take) : Option State :=
  match θ, s.loop θ, s.op θ with
  | .worker i, .idle, .none =>
    match k with
    | .pop =>
      match s.queue i with
      | [] => none
      | t :: rest => some ((s.setQueue i rest).setLoop θ (.popped t))
    | .steal j =>
      if j ≠ i ∧ s.queue j ≠ [] then
        let take := ((s.queue j).length + 1) / 2
        some ((s.setQueue j ((s.queue j).drop take)).setLoop θ (.moving ((s.queue j).take take)))
      else none
    | .injected =>
      match s.inject with
      | [] => none
      | t :: rest => some ((s.setInject rest).setLoop θ (.moving [t]))
    | .timers now =>
      if now ≤ s.now then
        let due := (s.timers i).takeWhile fun e => decide (e.deadline ≤ now)
        let waits := due.map Timer.wait
        let record := fun w => if w ∈ waits then { s.record w with fired := some now } else s.record w
        let s' := s.setTimers i ((s.timers i).dropWhile fun e => decide (e.deadline ≤ now))
        some (State.setLoop { s' with record := record } θ (.firing (due.map fun e => (e.task, e.wait))))
      else none
  | _, _, _ => none

/-- Resuming a task: one that was suspended continues inside `suspend`. -/
def Code.resume : Code → Code
  | .suspended w d => .resumed w d
  | c => c

/-- The next atomic operation of the worker's own code (`run_task`, sched.rs:480-518). -/
def stepLoop (s : State) (θ : Thread) : Option State :=
  match θ, s.op θ with
  | .worker i, .none =>
    match s.loop θ with
    | .idle | .running _ => none
    | .popped t =>
      some ((s.setTask t fun k => { k with state := RUNNING, code := k.code.resume }).setLoop θ (.running t))
    | .yielded t | .woken t =>
      some ((s.setTask t fun k => { k with state := NOTIFIED }).setLoop θ (.requeuing t))
    | .waiting t =>
      if (s.tasks t).state = RUNNING then
        some ((s.setTask t fun k => { k with state := 0 }).setLoop θ .idle)
      else some (s.setLoop θ (.woken t))
    | .requeuing t => some ((s.setQueue i (s.queue i ++ [t])).setLoop θ .idle)
    | .returned t => some ((s.setTask t fun k => { k with state := DONE }).setLoop θ (.retiring t))
    | .retiring t => some ((s.setTask t fun k => { k with co := false }).setLoop θ (.finishing t))
    | .finishing t => some ((s.setTask t fun k => { k with finished := true }).setLoop θ .idle)
    | .moving ts => some ((s.setQueue i (s.queue i ++ ts)).setLoop θ .idle)
    | .firing [] => some (s.setLoop θ .idle)
    | .firing ((t, w) :: rest) => some ((s.setLoop θ (.firing rest)).setOp θ (.claim t w .timedOut))
  | _, _ => none

/-- What the code of task `t`, running on thread `θ`, does next (sched.rs:905-935,
1137-1174, 1275-1292). -/
def stepCode (s : State) (θ : Thread) (t : TaskId) : Act → Code → Option State
  | .begin c, .user =>
    let s' := s.setTask t fun k => { k with code := .beginWoke ⟨s.nextWait, c⟩, latest := s.nextWait }
    some { s' with nextWait := s.nextWait + 1 }
  | .next, .beginWoke w => some (s.setTask t fun k => { k with woke := .ready, code := .beginCancellable w })
  | .next, .beginCancellable w =>
    some (s.setTask t fun k => { k with cancellable := w.cancellable, code := .beginWait w })
  | .next, .beginWait w =>
    some (s.setTask t fun k =>
      { k with wait := w.id, code := if w.cancellable then .beginCheck w else .beginDone w })
  | .next, .beginCheck w =>
    let s' := s.setTask t fun k => { k with code := .beginDone w }
    -- the self-wake is the thread's next call, before the task goes on
    some (if (s.tasks t).cancelled then s'.setOp θ (.claim t w.id .cancelled) else s')
  | .next, .beginDone w =>
    some ((s.setTask t fun k => { k with code := .begun w }).setRecord w.id fun h => { h with task := some t })
  | .abandon, .begun w =>
    some (s.setTask t fun k => { k with wait := if k.wait = w.id then 0 else k.wait, code := .user })
  | .giveUp, .begun _ => some (s.setTask t fun k => { k with code := .user })
  | .park d, .begun w => some (s.setTask t fun k => { k with code := .parking w d })
  | .next, .parking w d =>
    some (s.setTask t fun k =>
      { k with code := if k.wait = 0 then .reading w d else .timing { w with id := k.wait } d })
  | .waitSuspended d, .begun w => some (s.setTask t fun k => { k with code := .timing w d })
  | .next, .timing w none => some (s.setTask t fun k => { k with code := .suspending w none })
  | .next, .timing w (some deadline) =>
    match θ with
    | .worker i =>
      some (((s.setTask t fun k =>
        { k with code := .suspending w (some deadline), timer := some (i, deadline, w.id) }).setTimers i
          ((s.timers i).orderedInsert Timer.le ⟨deadline, w.id, t⟩)).setRecord w.id fun h =>
          { h with deadline := some deadline })
    | .plain _ => none
  | .next, .suspending w d => some ((s.setTask t fun k => { k with code := .suspended w d }).setLoop θ (.waiting t))
  | .removeTimer published, .resumed w d =>
    let s' := s.setTask t fun k => { k with code := .reading w d, timer := none }
    match (s.tasks t).timer with
    | none => some s'
    | some (i, deadline, wait) =>
      some (if published then
        s'.setTimers i ((s.timers i).filter fun e => decide (¬ (e.deadline = deadline ∧ e.wait = wait)))
      else s')
  | .next, .reading w d => some (s.setTask t fun k => { k with code := .reported w d k.woke })
  | .next, .reported _ _ _ => some (s.setTask t fun k => { k with code := .user })
  | .yield, .user => some (s.setLoop θ (.yielded t))
  | .ret, .user => some (s.setLoop θ (.returned t))
  | _, _ => none

def step (s : State) : Label → Option State
  | .tick => some { s with now := s.now + 1 }
  | .call θ c => stepCall s θ c
  | .op θ spurious => stepOp s θ spurious
  | .take θ k => stepTake s θ k
  | .loop θ => stepLoop s θ
  | .code θ a =>
    match s.running θ with
    | some t => stepCode s θ t a (s.tasks t).code
    | none => none

/-- `run_main`: `main!`'s task is on worker 0's queue, and nothing has run. -/
def initial : State where
  tasks := fun _ => newTask
  nextTask := 2
  nextWait := 1
  queue := fun i => if i = 0 then [1] else []
  inject := []
  timers := fun _ => []
  loop := fun _ => .idle
  op := fun _ => .none
  now := 0
  record := fun _ => ⟨none, none, none, none⟩

/-- The scheduler. -/
def system : Transition.System State Label where
  init s := s = initial
  step := step

end RocNet.Sched
