import RocNet.Model.TlsState

/-!
# TLS streams

`TlsStream` of `tls.rs`, after construction, by any number of tasks on any number of workers. A task that wants
`inner` blocks its thread until it is free, but for `watch`, which only tries. What a task does with `inner` held is a
step for each access to the socket, and otherwise one step to its release. The socket's failures, deadlines and
cancellation are `Input.fail`.
-/

namespace RocNet.Tls

open Streams (LockName dropGuards)

inductive Label
  | sock (l : Sockets.Label)
  | start (t : ℕ) (g : Goal)
  | load (t : ℕ)
  | sample (t : ℕ)
  | lock (t : ℕ)
  | lockInner (t : ℕ)
  | run (t : ℕ) (i : Input)
  | drop (t : ℕ)
  -- `watch`, and `unwatch` after the wait
  | watch (t : ℕ)
  | check (t : ℕ)
  | addIo (t : ℕ)
  | unwatch (t : ℕ)
  | abort
  deriving DecidableEq, Repr

section Steps

variable (S : ℕ)

/-- A non-blocking operation of task `t` on the socket succeeds. -/
def attempt (s : State) (t : ℕ) (writable : Bool) (i : Input) : Option Sockets.State :=
  Sockets.step s.stream.sock (.attempt t S writable i.drain)

/-- An operation on the socket would block. -/
def observe (s : State) (writable : Bool) : Option Sockets.State :=
  Sockets.step s.stream.sock (.observe S writable)

/-! ## The handshake -/

/-- Another task may have finished the handshake while this one waited for the lock. -/
def runCheck (s : State) (t : ℕ) (g : Goal) : State :=
  if s.handshaken then s.exit t (.leaving (.proceed g)) else s.setOp t (.inside (.running g))

/-- The loop of `run_handshake` (tls.rs:313-337). -/
def runHandshake (s : State) (t : ℕ) (g : Goal) (i : Input) : Option State :=
  if i.fail then some (s.exit t (.leaving .done))
  else if s.conn.wantsWrite then
    if s.stream.sock.ready S true then (attempt S s t true i).map fun x => s.emit x i.count
    else (observe S s true).map s.setSock
  else if !s.conn.handshaking then
    some (s.setHandshaken.setOp t (.inside (.finished (.proceed g))))
  else if s.stream.sock.ready S false then
    (attempt S s t false i).map fun x =>
      if i.bytes.isEmpty then
        ((s.setSock x).setConn { s.conn with ended := true }).exit t (.leaving .done)
      else if (s.conn.process i.digest).failed then
        (s.absorb x i.bytes i.digest).setOp t (.inside .alert)
      else s.absorb x i.bytes i.digest
  else (observe S s false).map s.setSock

/-- Telling the peer why, best effort. -/
def runAlert (s : State) (t : ℕ) (i : Input) : Option State :=
  if i.fail || !s.conn.wantsWrite then some (s.exit t (.leaving .done))
  else if s.stream.sock.ready S true then (attempt S s t true i).map fun x => s.emit x i.count
  else (observe S s true).map s.setSock

/-- `handshake_now` returns as the socket would block. -/
def blockedNow (s : State) (t : ℕ) (g : Goal) (progress : Bool) : State :=
  if progress then s.exit t (.leaving (.again g))
  else (s.markIdle t).exit t (.leaving .done)

/-- The loop of `handshake_now` (tls.rs:496-549). -/
def runHandshakeNow (s : State) (t : ℕ) (g : Goal) (progress : Bool) (i : Input) : Option State :=
  if s.handshaken then some (s.exit t (.leaving (.again g)))
  else if i.fail then some (s.exit t (.leaving .done))
  else if s.conn.wantsWrite then
    if s.stream.sock.ready S true then
      (attempt S s t true i).map fun x =>
        (s.emit x i.count).setOp t (.inside (.handshakeNow g true))
    else (observe S s true).map fun x => blockedNow (s.setSock x) t g progress
  else if !s.conn.handshaking then
    some (s.setHandshaken.setOp t (.inside (.finished (.again g))))
  else if s.stream.sock.ready S false then
    (attempt S s t false i).map fun x =>
      if i.bytes.isEmpty then
        ((s.setSock x).setConn { s.conn with ended := true }).exit t (.leaving .done)
      else if (s.conn.process i.digest).failed then
        (s.absorb x i.bytes i.digest).setOp t (.inside .alertNow)
      else (s.absorb x i.bytes i.digest).setOp t (.inside (.handshakeNow g true))
  else (observe S s false).map fun x => blockedNow (s.setSock x) t g progress

/-- One attempt at telling the peer why. -/
def runAlertNow (s : State) (t : ℕ) (i : Input) : Option State :=
  if !i.fail && s.conn.wantsWrite && s.stream.sock.ready S true then
    (attempt S s t true i).map fun x => (s.emit x i.count).exit t (.leaving .done)
  else some (s.exit t (.leaving .done))

/-! ## Reading -/

/-- The loop of `try_read` (tls.rs:360-394). -/
def runTryRead (s : State) (t : ℕ) (g : Goal) (i : Input) : State :=
  if !s.conn.plaintext.isEmpty || g.max == 0 then
    (s.setConn { s.conn with plaintext := s.conn.plaintext.drop g.max }).exit t (.leaving .done)
  -- the end, proper or not
  else if s.conn.closed || s.conn.ended then s.exit t (.leaving .done)
  else if s.pending.isEmpty then (s.markIdle t).exit t (.leaving (.fill g))
  else if i.fail then s.exit t (.leaving .done)
  else if (s.conn.process i.digest).failed then (s.feed i.count i.digest).exit t (.leaving .done)
  else if (s.conn.process i.digest).wantsWrite then
    (s.feed i.count i.digest).exit t (.leaving (.fill g))
  else s.feed i.count i.digest

/-- `fill_by` looks for what another reader may have received (tls.rs:411-426). -/
def runLook (s : State) (t : ℕ) (g : Goal) : State :=
  if s.conn.wantsWrite then s.exit t (.sample (.send g))
  else if !s.pending.isEmpty then s.exit t (.leaving (.again g))
  else if s.conn.failed then s.exit t (.leaving .done)
  else if s.conn.readable then s.exit t (.leaving (.again g))
  else s.exit t (.reading g)

/-- `fill_now` asks whether there are records to send. -/
def runAsk (s : State) (t : ℕ) (g : Goal) : State :=
  if s.conn.wantsWrite then s.exit t (.sample (.flush g)) else s.exit t (.inner (.recheck g))

/-- `fill_now` looks for what is there. -/
def runRecheck (s : State) (t : ℕ) (g : Goal) : State :=
  if !s.pending.isEmpty then s.exit t (.leaving (.again g))
  else if s.conn.failed then s.exit t (.leaving .done)
  else if s.conn.readable then s.exit t (.leaving (.again g))
  else s.exit t (.reading g)

/-- The end of the socket is told to rustls. -/
def runEof (s : State) (t : ℕ) (g : Goal) : State :=
  (s.setConn { s.conn with ended := true }).exit t
    (.leaving (if s.conn.failed then .done else .again g))

/-- `fill_now` writes what the socket takes now (tls.rs:451-459): `write_tls` gives `Ok(0)` once a
writer has taken the records. Whether there is something to read from a full socket is noted, though
nobody looks. -/
def runFlush (s : State) (t : ℕ) (g : Goal) (i : Input) : Option State :=
  if !s.conn.wantsWrite then some (s.exit t (.leaving (.again g)))
  else if i.fail then some (s.exit t (.leaving .done))
  else if s.stream.sock.ready S true then
    (attempt S s t true i).map fun x => (s.emit x i.count).exit t (.leaving (.again g))
  else
    some (((if s.stream.sock.ready S false then s
      else s.setSock (s.stream.sock.observe S false)).markIdle t).exit t (.leaving .done))

/-- The read of the socket in `fill_by` and `fill_now`. -/
def runReading (s : State) (t : ℕ) (g : Goal) (i : Input) : Option State :=
  if i.fail then some (s.setOp t (.leaving .done))
  else if g.polls && i.interrupted then some ((s.markIdle t).setOp t (.leaving .done))
  else if s.stream.sock.ready S false then
    (attempt S s t false i).map fun x => (s.readFrom x i.bytes).setOp t (.inner (.store g i.bytes))
  else
    (observe S s false).map fun x =>
      if g.polls then ((s.setSock x).markIdle t).setOp t (.leaving .done) else s.setSock x

/-- `fill_by` and `fill_now` keep what was read. -/
def runStore (s : State) (t : ℕ) (g : Goal) (bytes : Bytes) : State :=
  (s.store bytes).exit t (.stored g bytes.isEmpty)

/-! ## Writing -/

/-- Queueing a chunk or close_notify, and taking the records (tls.rs:607-640, 664-670). -/
def runTake (s : State) (t : ℕ) (w : Want) (i : Input) : State :=
  let queued := if w.queues then i.bytes else []
  if i.fail && w.queues then
    (s.setConn { s.conn with output := s.conn.output ++ queued }).exit t (.leaving .done)
  else (s.takeRecords queued).exit t (.sending w (s.conn.output ++ queued))

/-- Writing the records taken. -/
def runSending (s : State) (t : ℕ) (w : Want) (bytes : Bytes) (i : Input) : Option State :=
  if bytes.isEmpty then some (s.setOp t w.sent)
  else if i.fail then some (s.setWriteFailed.setOp t (.leaving .done))
  else if s.stream.sock.ready S true then
    (attempt S s t true i).map fun x =>
      (s.writeTo x (bytes.take i.count)).setOp t (.sending w (bytes.drop i.count))
  else (observe S s true).map s.setSock

/-! ## Steps -/

/-- A step with `inner` held. -/
def runSection (s : State) (t : ℕ) (i : Input) : Section → Option State
  | .handshake g => some (runCheck s t g)
  | .running g => runHandshake S s t g i
  | .alert => runAlert S s t i
  | .alertNow => runAlertNow S s t i
  | .finished next => some (s.exit t (.leaving next))
  | .handshakeNow g progress => runHandshakeNow S s t g progress i
  | .tryRead g => some (runTryRead s t g i)
  | .look g => some (runLook s t g)
  | .ask g => some (runAsk s t g)
  | .recheck g => some (runRecheck s t g)
  | .store g bytes => some (runStore s t g bytes)
  | .eof g => some (runEof s t g)
  | .take w => some (runTake s t w i)
  | .flush g => runFlush S s t g i
  | .query => some (s.exit t .none)

/-- The lock that `watch` looks at. -/
def busyLock (hs : Bool) : LockName := if hs then .read else .handshake

/-- Whether a poll would find something in what the stream holds. -/
def State.buffered (s : State) : Bool := !s.pending.isEmpty || s.conn.failed || s.conn.readable

/-- The next step of `watch` (tls.rs:227-260). -/
def check (s : State) (t id : ℕ) : Check → Option State
  | .added =>
    if s.stream.locked (busyLock s.handshaken) = none then
      some (s.setOp t (.watching (.unlocked s.handshaken)))
    else some (s.setOp t (.watching (.waiting false)))
  | .unlocked hs =>
    -- `inner.try_lock()`
    if s.inner = none then some (s.enter t (.watching (.inspecting hs)))
    else some (s.setOp t (.watching (.waiting false)))
  | .inspecting hs =>
    if s.buffered then some (s.setOp t (.watching (.found hs)))
    else some (s.setOp t (.watching (.probing hs)))
  | .probing hs =>
    if s.stream.sock.ready S false then some (s.setOp t (.watching (.found hs)))
    else (observe S s false).map fun x =>
      (s.setSock x).exit t (.watching (.waiting s.conn.wantsWrite))
  | .found hs =>
    if s.stream.locked (busyLock hs) = none then
      some ((s.setStream (s.stream.unwatch t id)).exit t .none)
    else some (s.exit t (.watching (.waiting s.conn.wantsWrite)))
  | .waiting _ | .joined => none

/-- The steps of a running task in the functions of the stream. -/
def stepTask (s : State) (t : ℕ) : Label → Option State
  | .start _ g =>
    if s.ops t = .none ∧ s.stream.sock.code t = .free then some (s.setOp t g.start) else none
  | .load _ =>
    match s.ops t with
    | .load f => some (s.setOp t (f.next s.handshaken s.aborted))
    | _ => none
  | .sample _ =>
    match s.ops t with
    | .sample w => some (s.setOp t (.wants w s.stream.watchers.nextId))
    | _ => none
  | .lock _ =>
    match s.ops t with
    | .wants w first =>
      if s.stream.locked w.lock = none then
        some ((s.setStream (s.stream.lock w.lock t first)).setOp t w.taken)
      else if w.blocks then none else some (s.setOp t w.refused)
    | _ => none
  | .lockInner _ =>
    match s.ops t with
    | .inner x => if s.inner = none then some (s.enter t (.inside x)) else none
    | _ => none
  | .run _ i =>
    -- not while it waits for the socket
    if s.stream.sock.code t = .free then
      match s.ops t with
      | .inside x => runSection S s t i x
      | .reading g => runReading S s t g i
      | .stored g ended =>
        some (s.setOp t (if ended then .inner (.eof g) else .leaving (.again g)))
      | .sending w bytes => runSending S s t w bytes i
      | _ => none
    else none
  | .drop _ =>
    match s.ops t with
    | .leaving next =>
      match dropGuards s.stream t with
      | some x => some (s.setStream x)
      | none => some (s.setOp t next.op)
    | _ => none
  | .watch _ =>
    match s.ops t, s.stream.sock.code t with
    | .none, .opened w _ => some ((s.setStream (s.stream.register t w)).setOp t (.watching .added))
    | _, _ => none
  | .check _ =>
    match s.ops t, s.stream.registered t with
    | .watching x, some (id, _) => check S s t id x
    | _, _ => none
  | .addIo _ =>
    match s.ops t with
    | .watching (.waiting _) =>
      (Sockets.step s.stream.sock (.addIo t S false)).map fun x =>
        (s.setSock x).setOp t (.watching .joined)
    | _ => none
  | .unwatch _ =>
    match s.ops t, s.stream.registered t with
    | .watching .joined, some (id, _) =>
      if s.stream.sock.code t = .free then some ((s.setStream (s.stream.unwatch t id)).setOp t .none)
      else none
    | _, _ => none
  | .sock _ | .abort => none

/-- The task whose step in the stream's functions a label is. -/
def Label.task : Label → Option ℕ
  | .sock _ | .abort => none
  | .start t _ | .load t | .sample t | .lock t | .lockInner t | .run t _ | .drop t | .watch t | .check t
  | .addIo t | .unwatch t => some t

/-- Whether a step of `Sockets` may be taken: one of a task only where the task may wait. -/
def allows (s : State) (l : Sockets.Label) : Bool :=
  match l.task with
  | none => true
  | some t => (s.ops t).waits

def step (s : State) (l : Label) : Option State :=
  match l with
  | .sock l => if allows s l then (Sockets.step s.stream.sock l).map s.setSock else none
  | .abort => some { s with aborted := true }
  | l =>
    match l.task with
    | some t => if (s.stream.sock.on t).isSome then stepTask S s t l else none
    | none => none

/-- A stream nobody has used, or one whose handshake is done, with what rustls has by then. -/
def initial (handshaken : Bool) (conn : Conn) : State where
  stream := Streams.initial
  inner := none
  handshaken := handshaken
  aborted := false
  conn := conn
  pending := []
  ops := fun _ => .none
  received := []
  given := []
  emitted := []
  written := []
  writeFailed := false

/-- The system of the tasks of one stream over socket `S`. -/
def system (handshaken : Bool) : Transition.System State Label where
  init s := ∃ conn, s = initial handshaken conn
  step := step S

end Steps

end RocNet.Tls
