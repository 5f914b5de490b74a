import RocNet.Model.Streams

/-!
# TLS streams: states

What `TlsStream` of `tls.rs` consists of, and where a task stands in its functions. rustls is the state behind `inner`
(`Conn`). What it makes of bytes it is given is left open (`Digest`); errors stay. `process_new_packets` is called
after every `read_tls`, so calling it again brings nothing new.
-/

namespace RocNet.Tls

open Streams (LockName dropGuards)

abbrev Bytes := List UInt8

/-! ## rustls -/

structure Conn where
  handshaking : Bool
  plaintext : Bytes
  -- close_notify was received; the socket ended; processing failed
  closed : Bool
  ended : Bool
  failed : Bool
  output : Bytes
  deriving DecidableEq, Repr

/-- A session with nothing to read or send. -/
def Conn.idle (handshaking : Bool) : Conn := ⟨handshaking, [], false, false, false, []⟩

/-- What rustls makes of the bytes it was given. -/
structure Digest where
  plaintext : Bytes := []
  closed : Bool := false
  failed : Bool := false
  finished : Bool := false
  output : Bytes := []
  deriving DecidableEq, Repr

def Conn.process (c : Conn) (d : Digest) : Conn where
  handshaking := c.handshaking && !d.finished
  plaintext := c.plaintext ++ d.plaintext
  closed := c.closed || d.closed
  ended := c.ended
  failed := c.failed || d.failed
  output := c.output ++ d.output

def Conn.wantsWrite (c : Conn) : Bool := !c.output.isEmpty

/-- `plaintext_bytes_to_read() > 0 || peer_has_closed()`. -/
def Conn.readable (c : Conn) : Bool := !c.plaintext.isEmpty || c.closed

/-! ## Where a task stands -/

/-- What a task calls: `read_stream`, `read_now` (net.rs:708-737, 768-793), `fill_by`, `write_all` of so
many chunks, `shutdown`, a session query, `handshake`. -/
inductive Goal
  | read (max : ℕ)
  | poll (max : ℕ)
  | fill
  | write (chunks : ℕ)
  | shutdown
  | query
  | handshake
  deriving DecidableEq, Repr

def Goal.polls : Goal → Bool
  | .poll _ => true
  | _ => false

/-- The size of the buffer `try_read` is given. -/
def Goal.max : Goal → ℕ
  | .read max | .poll max => max
  | _ => 0

/-- Functions that begin by loading `handshaken`. -/
inductive Load
  | handshake (g : Goal)
  | tryRead (g : Goal)
  | fill (g : Goal)
  | shutdown
  deriving DecidableEq, Repr

/-- Takings of the locks that wake watchers. -/
inductive Want
  | handshake (g : Goal)
  | handshakeNow (g : Goal)
  | tryRead (g : Goal)
  | fill (g : Goal)
  | fillNow (g : Goal)
  | write (g : Goal)
  -- `send_pending` in `fill_by`; the write lock in `fill_now`
  | send (g : Goal)
  | flush (g : Goal)
  deriving DecidableEq, Repr

def Want.lock : Want → LockName
  | .handshake _ | .handshakeNow _ => .handshake
  | .tryRead _ | .fill _ | .fillNow _ => .read
  | .write _ | .send _ | .flush _ => .write

/-- Whether the task waits for the lock. -/
def Want.blocks : Want → Bool
  | .handshake _ | .fill _ | .write _ | .send _ => true
  | .handshakeNow _ | .tryRead _ | .fillNow _ | .flush _ => false

/-- What follows once a function has dropped its guards: return; `try_read` again, or `fill`; what the
handshake was for. -/
inductive After
  | done
  | again (g : Goal)
  | fill (g : Goal)
  | proceed (g : Goal)
  deriving DecidableEq, Repr

/-- What is done with `inner` held. -/
inductive Section
  -- `handshake`, `run_handshake`
  | handshake (g : Goal)
  | running (g : Goal)
  -- Telling the peer why the handshake failed, in `run_handshake` and in `handshake_now`.
  | alert
  | alertNow
  | finished (next : After)
  | handshakeNow (g : Goal) (progress : Bool)
  | tryRead (g : Goal)
  -- `fill_by` looks for what is there; `fill_now` asks `wants_write`, and then looks
  | look (g : Goal)
  | ask (g : Goal)
  | recheck (g : Goal)
  | store (g : Goal) (bytes : Bytes)
  | eof (g : Goal)
  | take (w : Want)
  | flush (g : Goal)
  | query
  deriving DecidableEq, Repr

/-- Where a `Select` stands with the stream; `hs` is what `watch` found `handshaken` to be. -/
inductive Check
  | added
  | unlocked (hs : Bool)
  -- Holding `inner`: about to look for what is buffered; at the socket; to return `Ready` if it may.
  | inspecting (hs : Bool)
  | probing (hs : Bool)
  | found (hs : Bool)
  -- Returned `Waiting`: about to call `add_io`; in the rest of `wait_any`, with `add_io` for writing
  -- to come if `wants_write`.
  | waiting (wantsWrite : Bool)
  | joined
  deriving DecidableEq, Repr

inductive Op
  | none
  | load (f : Load)
  | sample (w : Want)
  | wants (w : Want) (first : ℕ)
  | inner (x : Section)
  | inside (x : Section)
  -- Reading from the socket; after it kept the bytes, the last of which were the socket's end.
  | reading (g : Goal)
  | stored (g : Goal) (ended : Bool)
  | sending (w : Want) (bytes : Bytes)
  | leaving (next : After)
  | watching (x : Check)
  deriving DecidableEq, Repr

/-- Whether the task may be suspended here. -/
def Op.waits : Op → Bool
  | .none | .inside (.running _) | .inside .alert | .sending _ _ | .watching .joined => true
  | .wants w _ => w.blocks
  | .reading g | .stored g _ => !g.polls
  | _ => false

/-- The function a task goes on with. -/
def After.op : After → Op
  | .done => .none
  | .again (.read max) => .load (.tryRead (.read max))
  | .again (.poll max) => .load (.tryRead (.poll max))
  | .again _ => .none
  | .fill g => .load (.fill g)
  | .proceed (.read max) => .load (.tryRead (.read max))
  | .proceed (.write chunks) => .sample (.write (.write chunks))
  | .proceed .query => .inner .query
  | .proceed _ => .none

/-- The beginning of what a task calls. -/
def Goal.start : Goal → Op
  | .read max => .load (.tryRead (.read max))
  | .poll max => .load (.tryRead (.poll max))
  | .fill => .load (.fill .fill)
  | .shutdown => .load .shutdown
  | .write chunks => .load (.handshake (.write chunks))
  | .query => .load (.handshake .query)
  | .handshake => .load (.handshake .handshake)

/-- What loading `handshaken` leads to. -/
def Load.next (f : Load) (handshaken aborted : Bool) : Op :=
  match f with
  | .handshake g => if handshaken then (After.proceed g).op else .sample (.handshake g)
  | .tryRead g => if handshaken then .sample (.tryRead g) else .load (.fill g)
  | .fill g =>
    if g.polls then (if handshaken then .sample (.fillNow g) else .sample (.handshakeNow g))
    else (if handshaken then .sample (.fill g) else .load (.handshake g))
  | .shutdown => if handshaken && !aborted then .sample (.write .shutdown) else .none

/-- What follows taking the lock. -/
def Want.taken : Want → Op
  | .handshake g => .inner (.handshake g)
  | .handshakeNow g => .inner (.handshakeNow g false)
  | .tryRead g => .inner (.tryRead g)
  | .fill g => .inner (.look g)
  | .fillNow g => .inner (.ask g)
  -- an empty write has no chunk
  | .write (.write 0) => .leaving .done
  | .write g => .inner (.take (.write g))
  | .send g => .inner (.take (.send g))
  | .flush g => .inner (.flush g)

/-- What follows finding the lock held, where the task does not wait for it. -/
def Want.refused : Want → Op
  | .tryRead g => .load (.fill g)
  | .flush _ => .leaving .done
  | _ => .none

/-- Whether records are queued before what rustls has is taken. -/
def Want.queues : Want → Bool
  | .send _ => false
  | _ => true

/-- What follows when all records are written. -/
def Want.sent : Want → Op
  | .write (.write (n + 2)) => .inner (.take (.write (.write (n + 1))))
  | .send g => .leaving (.again g)
  | _ => .leaving .done

/-! ## States -/

structure State where
  stream : Streams.State
  inner : Option ℕ
  handshaken : Bool
  aborted : Bool
  conn : Conn
  pending : Bytes
  ops : ℕ → Op
  -- History: bytes read from the socket, and given to rustls; emitted by rustls, and written to the
  -- socket; whether a write failed.
  received : Bytes
  given : Bytes
  emitted : Bytes
  written : Bytes
  writeFailed : Bool

/-- What the outside decides in a step: bytes from the socket, or records rustls queues; how many bytes
are taken; what rustls makes of them; whether a successful operation leaves the socket not ready;
whether the operation fails, or a read is interrupted. -/
structure Input where
  bytes : Bytes := []
  count : ℕ := 0
  digest : Digest := {}
  drain : Bool := false
  fail : Bool := false
  interrupted : Bool := false
  deriving DecidableEq, Repr

namespace State

variable (s : State)

@[simps] def setStream (x : Streams.State) : State := { s with stream := x }

@[simps] def setSock (x : Sockets.State) : State := { s with stream := s.stream.setSock x }

@[simps] def setOp (t : ℕ) (o : Op) : State := { s with ops := Function.update s.ops t o }

@[simps] def setConn (c : Conn) : State := { s with conn := c }

/-- Task `t` locks `inner`. -/
@[simps] def enter (t : ℕ) (o : Op) : State :=
  { s with inner := some t, ops := Function.update s.ops t o }

/-- Task `t` releases `inner`. -/
@[simps] def exit (t : ℕ) (o : Op) : State :=
  { s with inner := none, ops := Function.update s.ops t o }

/-- rustls writes so many bytes of its output to the socket. -/
@[simps] def emit (x : Sockets.State) (count : ℕ) : State :=
  { s with
    stream := s.stream.setSock x
    conn := { s.conn with output := s.conn.output.drop count }
    emitted := s.emitted ++ s.conn.output.take count
    written := s.written ++ s.conn.output.take count }

/-- rustls reads bytes from the socket, and processes them. -/
@[simps] def absorb (x : Sockets.State) (bytes : Bytes) (d : Digest) : State :=
  { s with
    stream := s.stream.setSock x
    conn := s.conn.process d
    received := s.received ++ bytes
    given := s.given ++ bytes }

/-- rustls takes so many bytes of what is pending, and processes them. -/
@[simps] def feed (count : ℕ) (d : Digest) : State :=
  { s with
    conn := s.conn.process d
    pending := s.pending.drop count
    given := s.given ++ s.pending.take count }

/-- rustls queues records, and all its output is taken. -/
@[simps] def takeRecords (records : Bytes) : State :=
  { s with
    conn := { s.conn with output := [] }
    emitted := s.emitted ++ (s.conn.output ++ records) }

/-- Bytes come from the socket. -/
@[simps] def readFrom (x : Sockets.State) (bytes : Bytes) : State :=
  { s with stream := s.stream.setSock x, received := s.received ++ bytes }

@[simps] def store (bytes : Bytes) : State := { s with pending := s.pending ++ bytes }

@[simps] def setHandshaken : State := { s with handshaken := true }

/-- The socket takes bytes of the records taken out of rustls. -/
@[simps] def writeTo (x : Sockets.State) (bytes : Bytes) : State :=
  { s with stream := s.stream.setSock x, written := s.written ++ bytes }

@[simps] def setWriteFailed : State := { s with writeFailed := true }

/-- The guards of task `t` are marked idle. -/
@[simps] def markIdle (t : ℕ) : State := { s with stream := s.stream.markIdle t }

end State

end RocNet.Tls
