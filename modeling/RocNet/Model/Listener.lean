import RocNet.Model.Resource
import RocNet.Model.Sockets

/-!
# Listeners

Accepting on a listener, and closing it, by the functions of `net.rs` and `sockets.rs`. The listener is one socket of
`Model.Sockets`, where its tasks wait, and so do `Select`s; the slots for accepted connections are those of a heap of
`Model.Resource`.

`close_now` points the descriptor at a placeholder with `dup2`, which takes the old socket out of every event queue.
What `accept` gives is part of the label: on the placeholder it fails, with something other than `WouldBlock`. Each
access of something shared is one step; `IoReg::close` with the wake-ups it makes, and letting go of `closing` after
it, are one. The wait between attempts when there are no file descriptors is left open.
-/

open Function

namespace RocNet.Sockets

/-- `dup2` onto the socket: event queues and the events pending in them lose it. -/
@[simps] def State.replace (s : State) (S : ℕ) : State :=
  { s with
    registered := fun a => update (s.registered a) S false
    pending := fun a => update (s.pending a) S fun _ => false }

end RocNet.Sockets

namespace RocNet.Listener

open Sched (TaskId Woke)
open Resource (Heap Reserved)

/-! ## Calls -/

/-- What `accept` or the wait for it fails with, as far as it is told apart. -/
inductive IoErr
  | wouldBlock
  | interrupted
  | connectionAborted
  -- `EMFILE` and `ENFILE`
  | outOfFds
  | other
  deriving DecidableEq, Repr

/-- What `accept` on the socket gives: a connection, and whether it was the last one; or an error. -/
inductive Answer
  | stream (last : Bool)
  | error (e : IoErr)
  deriving DecidableEq, Repr

/-- `accept_retrying` and `accept_now`. -/
inductive Path
  | accept
  | tryAccept
  deriving DecidableEq, Repr

/-- Which of the two, and the slot reserved for the connection. -/
structure Call where
  path : Path
  slot : ℕ
  -- History: a `close!` had returned when it was called.
  late : Bool
  deriving DecidableEq, Repr

/-- Where a call is. -/
inductive Place
  | top
  | trying
  -- `retry`
  | blocked
  | waiting
  | woke
  -- Failed: about to wait for a close under way; to load `closed` after it. As history, whether the
  -- descriptor was still the listener's.
  | settling (e : IoErr) (old : Bool)
  | settled (e : IoErr) (old : Bool)
  | napping
  | got
  deriving DecidableEq, Repr

/-- Where `close_now` is: about to take `closing`; to load `closed`; to replace the socket; to store
`closed`; in `IoReg::close`. -/
inductive CloseStep
  | locking
  | loading
  | replacing
  | storing
  | waking
  deriving DecidableEq, Repr

/-- The function a task is in. -/
inductive Op
  | none
  -- `reserve`, for `accept!` (and whether a `close!` had returned when it was called) or something else.
  | reserving (accept : Option Bool)
  | run (c : Call) (x : Place)
  | closing (x : CloseStep)
  deriving DecidableEq, Repr

inductive Outcome
  | accepted
  | notReady
  | notConnected
  | failed (e : IoErr)
  | cancelled
  | tooManySockets
  deriving DecidableEq, Repr

/-- What a call returned, and whether this is what the old socket gave before it was replaced. -/
structure Report where
  task : TaskId
  outcome : Outcome
  late : Bool
  old : Bool
  deriving DecidableEq, Repr

structure State where
  sock : Sockets.State
  heap : Heap
  -- The descriptor is the placeholder's. `Conn::closed`, and who holds `Conn::closing`.
  replaced : Bool
  closed : Bool
  closing : Option TaskId
  ops : TaskId → Op
  -- History: a `close!` has returned `Ok`; what accepting returned.
  shut : Bool
  reports : List Report

namespace State

variable (s : State) (t : TaskId)

@[simps] def setSock (x : Sockets.State) : State := { s with sock := x }

@[simps] def setHeap (h : Heap) : State := { s with heap := h }

@[simps] def setOp (o : Op) : State := { s with ops := update s.ops t o }

@[simps] def setClosing (o : Option TaskId) : State := { s with closing := o }

@[simps] def report (r : Report) : State := { s with reports := s.reports ++ [r] }

/-- A call returns without a connection, and drops its reservation. -/
@[simps] def finish (c : Call) (outcome : Outcome) (old : Bool) : State :=
  { s with
    heap := s.heap.freeSlot c.slot
    ops := update s.ops t .none
    reports := s.reports ++ [⟨t, outcome, c.late, old⟩] }

/-- A call inserts its connection and returns. -/
@[simps] def deliver (c : Call) : State :=
  { s with
    heap := s.heap.occupy c.slot
    ops := update s.ops t .none
    reports := s.reports ++ [⟨t, .accepted, c.late, true⟩] }

/-- `close_now` returns. -/
@[simps] def closeDone (ok : Bool) : State :=
  { s with
    closing := none
    ops := update s.ops t .none
    shut := s.shut || ok }

/-- `dup2`. -/
@[simps] def replace (S : ℕ) : State :=
  { s with
    sock := s.sock.replace S
    replaced := true
    ops := update s.ops t (.closing .storing) }

@[simps] def store : State :=
  { s with
    closed := true
    ops := update s.ops t (.closing .waking) }

end State

/-! ## The steps -/

inductive Label
  | sock (l : Sockets.Label)
  -- the heap.
  | grab
  | give (i : ℕ)
  | cancel (t : TaskId)
  | claim (t : TaskId)
  -- `roc_socket_accept`, or something else that calls `reserve`
  | accept (t : TaskId)
  | reserve (t : TaskId)
  | enter (t : TaskId)
  | relock (t : TaskId) (reported : Woke)
  | tryAccept (t : TaskId)
  | next (t : TaskId)
  | take (t : TaskId) (x : Answer)
  | wait (t : TaskId)
  | waited (t : TaskId) (e : Option IoErr)
  | napped (t : TaskId) (cancelled : Bool)
  | deliver (t : TaskId) (ok : Bool)
  | close (t : TaskId)
  | closeNext (t : TaskId) (ok : Bool)
  deriving DecidableEq, Repr

/-- The task whose step in these functions a label is. -/
def Label.task : Label → Option TaskId
  | .sock _ | .grab | .give _ | .cancel _ | .claim _ => none
  | .accept t | .reserve t | .enter t | .relock t _ | .tryAccept t | .next t | .take t _ | .wait t
  | .waited t _ | .napped t _ | .deliver t _ | .close t | .closeNext t _ => some t

/-- Where a task is after it was given a slot. -/
def granted : Option Bool → ℕ → Op
  | some late, i => .run ⟨.accept, i, late⟩ .top
  | none, _ => .none

/-- A task in `reserve` has gone through the loop. -/
def State.reserved (s : State) (t : TaskId) (accept : Option Bool) : Reserved × Heap → State
  | (.got i, h) => (s.setHeap h).setOp t (granted accept i)
  | (.waiting, h) => s.setHeap h
  | (.cancelled, h) =>
    match accept with
    | some late => ((s.setHeap h).setOp t .none).report ⟨t, .cancelled, late, false⟩
    | none => (s.setHeap h).setOp t .none

/-- After an error, with `closed` loaded as false. -/
def afterError (s : State) (t : TaskId) (c : Call) (e : IoErr) (old : Bool) : State :=
  match e, c.path with
  | .connectionAborted, _ | .interrupted, _ => s.setOp t (.run c .top)
  | .outOfFds, .accept => s.setOp t (.run c .napping)
  | .wouldBlock, .tryAccept => s.finish t c .notReady old
  | e, _ => s.finish t c (.failed e) old

/-- The next step of a call that is about to load `closed`, or to wait for `closing`. -/
def next (s : State) (t : TaskId) (c : Call) : Place → Option State
  | .top => some (if s.closed then s.finish t c .notConnected false else s.setOp t (.run c .trying))
  | .woke =>
    -- `retry` fails with an error of its own
    some (s.setOp t (.run c (if s.closed then .settling .other false else .trying)))
  | .settling e old => if s.closing = none then some (s.setOp t (.run c (.settled e old))) else none
  | .settled e old => some (if s.closed then s.finish t c .notConnected false else afterError s t c e old)
  | _ => none

section System

variable (S : ℕ)

/-- `accept` on the descriptor. -/
def take (s : State) (t : TaskId) (c : Call) : Answer → Option State
  | .stream last =>
    if s.replaced = false ∧ s.sock.ready S false = true then
      (Sockets.step s.sock (.attempt t S false last)).map fun y => (s.setSock y).setOp t (.run c .got)
    else none
  | .error .wouldBlock =>
    if s.replaced = false ∧ s.sock.ready S false = false then
      (Sockets.step s.sock (.attempt t S false false)).map fun y =>
        (s.setSock y).setOp t (.run c (if c.path = .accept then .blocked else .settling .wouldBlock true))
    else none
  | .error .interrupted =>
    if s.replaced then none
    else some (if c.path = .accept then s else s.setOp t (.run c (.settling .interrupted true)))
  | .error e => some (s.setOp t (.run c (.settling e !s.replaced)))

/-- The next step of `close_now`, which may fail to replace the socket. -/
def closeNext (s : State) (t : TaskId) (ok : Bool) : CloseStep → Option State
  | .locking =>
    if s.closing = none then some ((s.setClosing (some t)).setOp t (.closing .loading)) else none
  | .loading => some (if s.closed then s.closeDone t true else s.setOp t (.closing .replacing))
  | .replacing => some (if ok then s.replace t S else s.closeDone t false)
  | .storing => some (s.store t)
  | .waking => (Sockets.step s.sock (.close S)).map fun y => (s.setSock y).closeDone t true

/-- The steps of a running task. -/
def stepTask (s : State) (t : TaskId) : Label → Option State
  | .accept _ =>
    if s.ops t = .none ∧ s.sock.code t = .free then some (s.setOp t (.reserving (some s.shut))) else none
  | .reserve _ =>
    if s.ops t = .none ∧ s.sock.code t = .free then some (s.setOp t (.reserving none)) else none
  | .enter _ =>
    match s.ops t with
    | .reserving a => if s.heap.parked t = none then some (s.reserved t a (s.heap.reservePass t)) else none
    | _ => none
  | .relock _ reported =>
    match s.ops t with
    | .reserving a => (s.heap.relock t reported).map (s.reserved t a)
    | _ => none
  | .tryAccept _ =>
    if s.ops t = .none ∧ s.sock.code t = .free then
      match s.heap.tryReserve with
      | some (i, h) => some ((s.setHeap h).setOp t (.run ⟨.tryAccept, i, s.shut⟩ .top))
      | none => some (s.report ⟨t, .tooManySockets, s.shut, false⟩)
    else none
  | .next _ =>
    match s.ops t with
    | .run c x => next s t c x
    | _ => none
  | .take _ x =>
    match s.ops t with
    | .run c .trying => take S s t c x
    | _ => none
  | .wait _ =>
    match s.ops t with
    | .run c .blocked =>
      (Sockets.step s.sock (.waitIo t S false)).map fun y => (s.setSock y).setOp t (.run c .waiting)
    | _ => none
  | .waited _ e =>
    match s.ops t with
    | .run c .waiting =>
      if s.sock.code t = .free then
        some (s.setOp t (.run c (match e with
          | none => .woke
          | some e => .settling e !s.replaced)))
      else none
    | _ => none
  | .napped _ cancelled =>
    match s.ops t with
    | .run c .napping =>
      -- `sleep` reports that the task was cancelled only if it was, but may have ended before
      if cancelled = true → s.heap.cancelled t = true then
        some (if cancelled then s.finish t c .cancelled false else s.setOp t (.run c .top))
      else none
    | _ => none
  | .deliver _ ok =>
    match s.ops t with
    | .run c .got => some (if ok then s.deliver t c else s.finish t c (.failed .other) true)
    | _ => none
  | .close _ =>
    if s.ops t = .none ∧ s.sock.code t = .free then some (s.setOp t (.closing .locking)) else none
  | .closeNext _ ok =>
    match s.ops t with
    | .closing x => closeNext S s t ok x
    | _ => none
  | _ => none

/-- The steps of `Sockets` that a task may take in these functions. -/
def Op.permits : Op → Sockets.Label → Bool
  | .none, _ => true
  | .reserving _, .yield _ | .run _ .napping, .yield _ | .run _ .got, .yield _ => true
  | .run _ .waiting, .watch _ _ | .run _ .waiting, .suspend _ | .run _ .waiting, .forget _ => true
  | _, _ => false

/-- `IoReg::close` of the listener is for `close_now`. -/
def allows (s : State) (l : Sockets.Label) : Bool :=
  match l.task with
  | some t => (s.ops t).permits l
  | none => l != .close S

def step (s : State) (l : Label) : Option State :=
  match l with
  | .sock l => if allows S s l then (Sockets.step s.sock l).map s.setSock else none
  | .grab => s.heap.tryReserve.map fun x => s.setHeap x.2
  | .give i => some (s.setHeap (s.heap.freeSlot i))
  | .cancel t => some (s.setHeap (s.heap.cancel t))
  | .claim t => (s.heap.claim t).map s.setHeap
  | l =>
    match l.task with
    | some t => if (s.sock.on t).isSome then stepTask S s t l else none
    | none => none

def initial (capacity : ℕ) : State where
  sock := Sockets.initial
  heap := .new capacity
  replaced := false
  closed := false
  closing := none
  ops := fun _ => .none
  shut := false
  reports := []

/-- A listener on socket `S`, with a heap of so many slots. -/
def system (capacity : ℕ) : Transition.System State Label where
  init s := s = initial capacity
  step := step S

end System

end RocNet.Listener
