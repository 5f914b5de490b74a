import RocNet.Model.NoiseMessages
import RocNet.Model.Streams

/-!
# Reading from a Noise stream, and watching it

The reading side of `NoiseStream` of `noise.rs`: `read`, `try_read` and `fill_by`, and `watch` and `unwatch` as
`Select` calls them, by any number of tasks. The step of a task goes from one access to what others can see to the
next.

What a read of the socket gives is left open: any bytes, none of them at the end of the stream. Waiting for the socket
is as in `Sockets`, where a task may wait or is outside the stream's functions (`Op.waits`).
-/

namespace RocNet.Noise

open Streams (LockName dropGuards)

/-- The functions that read. -/
inductive Reader
  | read (max : ℕ)
  | tryRead (max : ℕ)
  | fillBy
  deriving DecidableEq, Repr

/-- Whether the function returns rather than wait. -/
def Reader.polls : Reader → Bool
  | .tryRead _ => true
  | .read _ | .fillBy => false

/-- Where a `Select` stands with the stream. -/
inductive Check
  -- `watch`.
  | added
  | unlocked
  | checked
  | found
  -- `watch` returned `Waiting`: about to call `add_io`; in the rest of `wait_any`.
  | waiting
  | joined
  deriving DecidableEq, Repr

/-- Where a task stands in the functions of the stream. -/
inductive Op
  | none
  | wants (r : Reader) (first : ℕ)
  -- holding the lock.
  | looking (r : Reader)
  | filling (r : Reader)
  | got (r : Reader) (bytes : Bytes)
  | leaving
  | watching (x : Check)
  deriving DecidableEq, Repr

/-- Whether the task may wait, or be suspended, here. -/
def Op.waits : Op → Bool
  | .none | .wants _ _ | .watching .joined => true
  | .filling r | .got r _ => !r.polls
  | _ => false

structure State where
  stream : Streams.State
  received : Received
  ops : ℕ → Op
  -- History: what reads returned, in the order of their holds, and all that was read from the socket.
  results : List (Except ReadError Bytes)
  inbound : Bytes

namespace State

variable (s : State)

@[simps] def setStream (x : Streams.State) : State := { s with stream := x }

@[simps] def setOp (t : ℕ) (o : Op) : State := { s with ops := Function.update s.ops t o }

@[simps] def setReceived (r : Received) : State := { s with received := r }

/-- A read returns. -/
@[simps] def report (x : Except ReadError Bytes) : State := { s with results := s.results ++ [x] }

/-- Bytes come from the socket, which they leave in this state. -/
@[simps] def takeIn (x : Sockets.State) (bytes : Bytes) : State :=
  { s with stream := s.stream.setSock x, inbound := s.inbound ++ bytes }

end State

inductive Label
  | sock (l : Sockets.Label)
  -- reading.
  | start (t : ℕ) (r : Reader)
  | lock (t : ℕ)
  | look (t : ℕ)
  | readSocket (t : ℕ) (bytes : Bytes) (drain : Bool)
  | fail (t : ℕ)
  | extend (t : ℕ)
  | drop (t : ℕ)
  -- `watch`, and `unwatch` after the wait
  | watch (t : ℕ)
  | check (t : ℕ)
  | addIo (t : ℕ)
  | unwatch (t : ℕ)
  deriving DecidableEq, Repr

section Steps

variable (c : Cipher) (S : ℕ)

/-- Looking at `receive` with the lock held: return what is there, or go on to the socket. -/
def look (s : State) (t : ℕ) : Reader → State
  | .fillBy => if s.received.readable then s.setOp t .leaving else s.setOp t (.filling .fillBy)
  | .read max => found (.read max) (s.received.next c max)
  | .tryRead max => found (.tryRead max) (s.received.next c max)
where
  found (r : Reader) : Except ReadError (Option Bytes) × Received → State
    | (.ok none, x) => (s.setReceived x).setOp t (.filling r)
    | (.ok (some bytes), x) => ((s.setReceived x).report (.ok bytes)).setOp t .leaving
    | (.error e, x) => ((s.setReceived x).report (.error e)).setOp t .leaving

/-- A read of the socket with the lock held. One that would block ends a poll, as an idle hold; others
go on to wait. -/
def readSocket (s : State) (t : ℕ) (r : Reader) (bytes : Bytes) (drain : Bool) : Option State :=
  if s.stream.sock.ready S false then
    (Sockets.step s.stream.sock (.attempt t S false drain)).map fun x =>
      (s.takeIn x bytes).setOp t (.got r bytes)
  else
    (Sockets.step s.stream.sock (.observe S false)).map fun x =>
      let s' := s.setStream (s.stream.setSock x)
      if r.polls then (s'.setStream (s'.stream.markIdle t)).setOp t .leaving else s'

/-- The next step of `watch`. -/
def check (s : State) (t id : ℕ) : Check → Option State
  | .added =>
    if s.stream.locked .read = none then some (s.setOp t (.watching .unlocked))
    else some (s.setOp t (.watching .waiting))
  | .unlocked =>
    if s.received.readable then some (s.setOp t (.watching .found))
    else some (s.setOp t (.watching .checked))
  | .checked =>
    if s.stream.sock.ready S false then some (s.setOp t (.watching .found))
    else
      (Sockets.step s.stream.sock (.observe S false)).map fun x =>
        (s.setStream (s.stream.setSock x)).setOp t (.watching .waiting)
  | .found => some ((s.setStream (s.stream.unwatch t id)).setOp t .none)
  | .waiting | .joined => none

/-- The steps of a running task in the functions of the stream. -/
def stepTask (s : State) (t : ℕ) : Label → Option State
  | .start _ r =>
    if s.ops t = .none ∧ s.stream.sock.code t = .free then
      some (s.setOp t (.wants r s.stream.watchers.nextId))
    else none
  | .lock _ =>
    match s.ops t with
    | .wants r first =>
      if s.stream.locked .read = none then
        some ((s.setStream (s.stream.lock .read t first)).setOp t (.looking r))
      else if r.polls then some (s.setOp t .none) else none
    | _ => none
  | .look _ =>
    match s.ops t with
    | .looking r => some (look c s t r)
    | _ => none
  | .readSocket _ bytes drain =>
    match s.ops t with
    | .filling r => if s.stream.sock.code t = .free then readSocket S s t r bytes drain else none
    | _ => none
  | .fail _ =>
    match s.ops t with
    | .filling _ => if s.stream.sock.code t = .free then some (s.setOp t .leaving) else none
    | _ => none
  | .extend _ =>
    match s.ops t with
    | .got r bytes => some ((s.setReceived (s.received.receive bytes)).setOp t (.looking r))
    | _ => none
  | .drop _ =>
    if s.ops t = .leaving then
      match dropGuards s.stream t with
      | some x => some (s.setStream x)
      | none => some (s.setOp t .none)
    else none
  | .watch _ =>
    match s.ops t, s.stream.sock.code t with
    | .none, .opened w _ => some ((s.setStream (s.stream.register t w)).setOp t (.watching .added))
    | _, _ => none
  | .check _ =>
    match s.ops t, s.stream.registered t with
    | .watching x, some (id, _) => check S s t id x
    | _, _ => none
  | .addIo _ =>
    if s.ops t = .watching .waiting then
      (Sockets.step s.stream.sock (.addIo t S false)).map fun x =>
        (s.setStream (s.stream.setSock x)).setOp t (.watching .joined)
    else none
  | .unwatch _ =>
    match s.ops t, s.stream.registered t with
    | .watching .joined, some (id, _) =>
      if s.stream.sock.code t = .free then some ((s.setStream (s.stream.unwatch t id)).setOp t .none)
      else none
    | _, _ => none
  | .sock _ => none

/-- The task whose step in the stream's functions a label is. -/
def Label.task : Label → Option ℕ
  | .sock _ => none
  | .start t _ | .lock t | .look t | .readSocket t _ _ | .fail t | .extend t | .drop t | .watch t
  | .check t | .addIo t | .unwatch t => some t

/-- Whether a step of `Sockets` may be taken: one of a task only where the task may wait. -/
def allows (s : State) (l : Sockets.Label) : Bool :=
  match l.task with
  | none => true
  | some t => (s.ops t).waits

def step (s : State) (l : Label) : Option State :=
  match l with
  | .sock l =>
    if allows s l then (Sockets.step s.stream.sock l).map fun x => s.setStream (s.stream.setSock x)
    else none
  | l =>
    match l.task with
    | some t => if (s.stream.sock.on t).isSome then stepTask c S s t l else none
    | none => none

/-- A stream whose next message is under `nonce`. -/
def initial (nonce : ℕ) : State where
  stream := Streams.initial
  received := .new nonce
  ops := fun _ => .none
  results := []
  inbound := []

/-- The system of the tasks of one stream over socket `S`. -/
def system (nonce : ℕ) : Transition.System State Label where
  init s := s = initial nonce
  step := step c S

end Steps

end RocNet.Noise
