import RocNet.Model.Waiters

/-!
# Channels

`channels.rs`: a bounded queue of values with tasks waiting at both ends. What an operation does with the channel's
mutex held is one step here; between those steps any number of tasks share the ends, wait, are woken, cancelled or
time out in any order.

A task waits in `park` under an entry of a wait list, and goes on by taking the mutex again, at any time, since `park`
may return early. What `park` told it is part of the label: any reason, but `Cancelled` only when the wait was claimed
as such.

Values are Roc references the host owns; the fields at the end of the state record what became of them. An operation
on an end holds a handle to it, so none is started once the end is released.
-/

namespace RocNet.Channel

open Sched (TaskId WaitId Instant Woke)
open Function

/-! ## The state -/

/-- The one reference the host is given by a call of send. -/
abbrev Value := ℕ

inductive End
  | sender
  | receiver
  deriving DecidableEq, Repr

/-- The wait lists of a channel. -/
inductive WaitList
  -- `senders` and `receivers`: the tasks that wait in send, and in receive.
  | waiters (e : End)
  -- `send_watchers` and `receive_watchers`: the `Select`s that watch an end.
  | watchers (e : End)
  deriving DecidableEq, Repr

inductive SendResult
  | sent
  | closed
  | full
  | cancelled
  deriving DecidableEq, Repr

inductive ReceiveResult
  | ok (v : Value)
  | closed
  | timedOut
  | cancelled
  deriving DecidableEq, Repr

/-- The host function a task is in. -/
inductive Op
  | none
  -- `roc_channel_send`: about to take the mutex; parked, under this entry of `senders`; with the mutex
  -- released, about to drop the value and return.
  | send (v : Value) (wait : Bool)
  | sendParked (v : Value) (id : ℕ) (w : WaitId)
  | leaving (v : Value) (r : SendResult)
  -- `roc_channel_receive`
  | receive (deadline : Option Instant)
  | receiveParked (deadline : Option Instant) (id : ℕ) (w : WaitId)
  | select (w : WaitId) (watching : List (End × ℕ))
  deriving DecidableEq, Repr

structure State where
  queue : List Value
  capacity : ℕ
  sendingClosed : Bool
  receiverGone : Bool
  lists : WaitList → Waiters WaitId
  waits : Waits
  nextWait : WaitId
  ops : TaskId → Op
  cancelled : TaskId → Bool
  now : Instant
  senderReleased : Bool
  -- Taken from the queue when the receiver end was released, and not dropped yet.
  undelivered : List Value
  -- History: the values given to send so far, those enqueued, those taken from the queue when the
  -- receiver end was released, those dropped, how each send returned, and what receives returned.
  nextValue : Value
  sent : List Value
  drained : List Value
  released : List Value
  results : Value → Option SendResult
  received : List ReceiveResult

namespace State

variable (s : State) (t : TaskId) (e : End) (v : Value)

@[simps]
def setOp (o : Op) : State := { s with ops := update s.ops t o }

@[simps]
def setList (l : WaitList) (x : Waiters WaitId) : State := { s with lists := update s.lists l x }

@[simps]
def setWaits (x : Waits) : State := { s with waits := x }

/-- `begin_wait(true)`: a task that has been cancelled claims its wait itself. -/
@[simps]
def beginWait : State :=
  { s with
    waits := update s.waits s.nextWait (if s.cancelled t then some (.claimed .cancelled) else none)
    nextWait := s.nextWait + 1 }

@[simps]
def enqueue : State :=
  { s with
    queue := s.queue ++ [v]
    sent := s.sent ++ [v]
    results := update s.results v (some .sent) }

@[simps]
def setQueue (q : List Value) : State := { s with queue := q }

/-- A receive returns. -/
@[simps]
def returns (r : ReceiveResult) : State :=
  { s with received := s.received ++ [r], ops := update s.ops t .none }

/-! ## Waking -/

/-- One task that waits at this end is told, and every `Select` that watches it. -/
@[simps]
def notify : State :=
  { s with
    lists := update (update s.lists (.waiters e) ((s.lists (.waiters e)).wakeOne s.waits).1)
      (.watchers e) ((s.lists (.watchers e)).wakeAll s.waits).1
    waits := ((s.lists (.watchers e)).wakeAll ((s.lists (.waiters e)).wakeOne s.waits).2).2 }

def valueAdded : State := s.notify .receiver

def roomMade : State := s.notify .sender

/-- Everyone waiting at either end is told. -/
@[simps]
def wakeEveryone : State :=
  { s with
    lists := fun l => ((s.lists l).wakeAll s.waits).1
    waits := [.waiters .receiver, .waiters .sender, .watchers .receiver, .watchers .sender].foldl
      (fun x l => ((s.lists l).wakeAll x).2) s.waits }

/-- `Waiters::add` and the first half of `park`. -/
@[simps!]
def park (op : ℕ → WaitId → Op) : State :=
  ((s.beginWait t).setList (.waiters e) ((s.lists (.waiters e)).addWaker s.nextWait)).setOp t
    (op (s.lists (.waiters e)).nextId s.nextWait)

/-- After `park`: the mutex is held again and the entry removed. -/
@[simps!]
def unpark (id : ℕ) (o : Op) : State :=
  (s.setList (.waiters e) ((s.lists (.waiters e)).remove id)).setOp t o

end State

/-! ## The operations -/

/-- One pass of the loop of `roc_channel_send` (channels.rs:194-222), up to where it waits or leaves. -/
def sendPass (s : State) (t : TaskId) (v : Value) (wait : Bool) : State :=
  if s.sendingClosed ∨ s.receiverGone then s.setOp t (.leaving v .closed)
  else if s.queue.length < s.capacity then ((s.enqueue v).valueAdded).setOp t .none
  else if !wait then s.setOp t (.leaving v .full)
  else s.park t .sender (.sendParked v)

def due (deadline : Option Instant) (now : Instant) : Bool := deadline.any (· ≤ now)

/-- One pass of the loop of `roc_channel_receive` (channels.rs:243-271). -/
def receivePass (s : State) (t : TaskId) (deadline : Option Instant) : State :=
  match s.queue with
  | v :: rest => ((s.setQueue rest).roomMade).returns t (.ok v)
  | [] =>
    if s.sendingClosed then s.returns t .closed
    else if due deadline s.now then s.returns t .timedOut
    else s.park t .receiver (.receiveParked deadline)

def closeSending (s : State) : State := State.wakeEveryone { s with sendingClosed := true }

/-- `Drop for End`, the receiver's: up to where the mutex is released. -/
def dropReceiver (s : State) : State :=
  let s' := State.wakeEveryone { s with receiverGone := true }
  { s' with queue := [], undelivered := s.queue, drained := s.queue }

/-- Whether a `Select` finds an end ready. -/
def ready (s : State) : End → Bool
  | .receiver => !s.queue.isEmpty || s.sendingClosed
  | .sender => decide (s.queue.length < s.capacity) || s.sendingClosed || s.receiverGone

/-- Whether an end has been released. -/
def State.gone (s : State) : End → Bool
  | .sender => s.senderReleased
  | .receiver => s.receiverGone

/-- The wait an operation is in. -/
def Op.wait : Op → Option WaitId
  | .sendParked _ _ w | .receiveParked _ _ w | .select w _ => some w
  | _ => Option.none

/-- Who may end a task's wait, other than the channel: a canceller, its timer, and for a `Select`
whatever else it waits for, and its own and its streams' deadlines. -/
def mayClaim (s : State) (t : TaskId) (r : Woke) : Bool :=
  match s.ops t, r with
  | .sendParked _ _ _, .cancelled | .receiveParked _ _ _, .cancelled | .select _ _, .cancelled =>
    s.cancelled t
  | .receiveParked deadline _ _, .timedOut => due deadline s.now
  | .select _ _, _ => true
  | _, _ => false

inductive Label
  | tick
  | cancel (t : TaskId)
  | claim (t : TaskId) (r : Woke)
  | send (t : TaskId) (wait : Bool)
  | receive (t : TaskId) (deadline : Option Instant)
  | enter (t : TaskId)
  | relock (t : TaskId) (reported : Woke)
  | leave (t : TaskId)
  | close
  | releaseSender
  | releaseReceiver
  | dropUndelivered
  -- a `Select`.
  | select (t : TaskId)
  | watch (t : TaskId) (e : End)
  | abandon (t : TaskId)
  | unwatch (t : TaskId) (e : End) (id : ℕ)
  | selected (t : TaskId)
  deriving DecidableEq, Repr

/-- A task that was parked has the mutex again, and goes through the loop as it did at first. -/
def relock (s : State) (t : TaskId) (reported : Woke) : Option State :=
  match s.ops t with
  | .sendParked v id w =>
    if reported = .cancelled → s.waits w = some (.claimed .cancelled) then
      let s' := s.unpark t .sender id (.send v true)
      some (if reported = .cancelled then s'.setOp t (.leaving v .cancelled) else sendPass s' t v true)
    else none
  | .receiveParked deadline id w =>
    if reported = .cancelled → s.waits w = some (.claimed .cancelled) then
      let s' := s.unpark t .receiver id (.receive deadline)
      some (if reported = .cancelled then s'.returns t .cancelled else receivePass s' t deadline)
    else none
  | _ => none

/-- What a `Select` does on this channel. -/
def stepSelect (s : State) (t : TaskId) (w : WaitId) (watching : List (End × ℕ)) : Label → Option State
  | .watch _ e =>
    if s.gone e then none
    else if ready s e then some s
    else some ((s.setList (.watchers e) ((s.lists (.watchers e)).addWaker w)).setOp t
      (.select w ((e, (s.lists (.watchers e)).nextId) :: watching)))
  | .abandon _ =>
    some (if s.waits w = none then s.setWaits (update s.waits w (some .abandoned)) else s)
  | .unwatch _ e id =>
    if (e, id) ∈ watching then
      some ((s.setList (.watchers e) ((s.lists (.watchers e)).remove id)).setOp t (.select w (watching.erase (e, id))))
    else none
  | .selected _ => if watching = [] then some (s.setOp t .none) else none
  | _ => none

def step (s : State) (l : Label) : Option State :=
  match l with
  | .tick => some { s with now := s.now + 1 }
  | .cancel t => some { s with cancelled := update s.cancelled t true }
  | .claim t r =>
    match (s.ops t).wait with
    | some w => if mayClaim s t r then some (s.setWaits (s.waits.wake w r)) else none
    | none => none
  | .send t wait =>
    if s.ops t = .none ∧ s.gone .sender = false then
      some { s.setOp t (.send s.nextValue wait) with nextValue := s.nextValue + 1 }
    else none
  | .receive t deadline =>
    if s.ops t = .none ∧ s.gone .receiver = false then some (s.setOp t (.receive deadline)) else none
  | .enter t =>
    match s.ops t with
    | .send v wait => some (sendPass s t v wait)
    | .receive deadline => some (receivePass s t deadline)
    | _ => none
  | .relock t reported => relock s t reported
  | .leave t =>
    match s.ops t with
    | .leaving v r =>
      some { s.setOp t .none with
        released := s.released ++ [v], results := update s.results v (some r) }
    | _ => none
  | .close => if s.gone .sender then none else some (closeSending s)
  | .releaseSender => if s.gone .sender then none else some { closeSending s with senderReleased := true }
  | .releaseReceiver => if s.gone .receiver then none else some (dropReceiver s)
  | .dropUndelivered =>
    some { s with undelivered := [], released := s.released ++ s.undelivered }
  | .select t =>
    if s.ops t = .none then some ((s.beginWait t).setOp t (.select s.nextWait [])) else none
  | .watch t _ | .abandon t | .unwatch t _ _ | .selected t =>
    match s.ops t with
    | .select w watching => stepSelect s t w watching l
    | _ => none

/-- `roc_channel_new`: a channel of this capacity, at least 1. -/
def initial (capacity : ℕ) : State where
  queue := []
  capacity := max capacity 1
  sendingClosed := false
  receiverGone := false
  lists := fun _ => .new
  waits := fun _ => none
  nextWait := 1
  ops := fun _ => .none
  cancelled := fun _ => false
  now := 0
  senderReleased := false
  undelivered := []
  nextValue := 0
  sent := []
  drained := []
  released := []
  results := fun _ => none
  received := []

def system (capacity : ℕ) : Transition.System State Label where
  init s := s = initial capacity
  step := step

end RocNet.Channel
