import Mathlib.Algebra.Group.Nat.Defs
import RocNet.Library.Transition

/-!
# Copying between streams

`copy.rs`: `copy_to` copies one stream to another, `copy_both` copies two streams into each other, one direction on a
helper. A direction is the loop of `one_way`: through a pipe with `splice` where both streams are plain sockets, else
through a buffer. What a socket operation gives back is part of the label, and so is the time. Each socket operation
and each access of a shared variable is one step.

A stream is what its peer has sent, what is yet to be read of it, and what was given to it (for TLS and Noise, the
plaintext). `abort` resets a TCP connection; a Unix socket is shut down, and reading it may give the end of the
stream.

`progress` and `writing` are natural numbers; `total` is a `u64` that wraps.
-/

namespace RocNet.Copy

open Function

inductive Side
  | a
  | b
  deriving DecidableEq, Repr

def Side.other : Side → Side
  | .a => .b
  | .b => .a

/-! ## Streams -/

/-- The kinds of streams; a Noise stream runs over TCP or a Unix socket. -/
inductive Kind
  | tcp
  | unix
  | tls
  | noise (overUnix : Bool)
  deriving DecidableEq, Repr

/-- `plain_fd`: the streams `splice` can use. -/
def Kind.plain : Kind → Bool
  | .tcp | .unix => true
  | _ => false

/-- Unix sockets have no reset: `abort` shuts them down. -/
def Kind.unixWire : Kind → Bool
  | .unix | .noise true => true
  | _ => false

structure Stream where
  kind : Kind
  -- What the peer has sent, and the end of it that was not read yet.
  sent : List UInt8
  arrived : List UInt8
  peerEnded : Bool
  given : List UInt8
  -- `shutdown_write` has ended the stream cleanly; `abort` and `stop_reading` were called.
  ended : Bool
  aborted : Bool
  readShut : Bool

namespace Stream

variable (x : Stream) (k : ℕ)

/-- Operations of an aborted stream fail, or find it shut down. -/
def readable : Prop := x.aborted = true → x.kind.unixWire = true

/-- A read can give `k` bytes. -/
def hasBytes : Prop := 0 < k ∧ k ≤ x.arrived.length ∧ x.readable

/-- A read can give the end of the stream. Linux gives what is queued first, also after a shutdown; other systems
discard it. -/
def atEnd : Prop :=
  (x.peerEnded = true ∧ x.arrived = [] ∧ x.readable) ∨ x.readShut = true ∨ (x.aborted = true ∧ x.kind.unixWire = true)

instance : Decidable x.readable := inferInstanceAs (Decidable (_ → _))

instance : Decidable (x.hasBytes k) := inferInstanceAs (Decidable (_ ∧ _))

instance : Decidable x.atEnd := inferInstanceAs (Decidable (_ ∨ _))

@[simps] def take : Stream := { x with arrived := x.arrived.drop k }

@[simps] def give (bytes : List UInt8) : Stream := { x with given := x.given ++ bytes }

@[simps] def shutdownWrite : Stream := { x with ended := x.ended || !x.aborted }

@[simps] def abort : Stream := { x with aborted := true }

@[simps] def stopReading : Stream := { x with readShut := true }

@[simps] def peerSends (bytes : List UInt8) : Stream :=
  { x with sent := x.sent ++ bytes, arrived := x.arrived ++ bytes }

@[simps] def peerEnds : Stream := { x with peerEnded := true }

end Stream

/-! ## Directions -/

/-- Errors of socket operations, as far as they are told apart. -/
inductive IoErr
  | timedOut
  | cancelled
  | unexpectedEof
  | other
  deriving DecidableEq, Repr

inductive CopyErr
  | read (side : Side) (e : IoErr)
  | write (side : Side) (e : IoErr)
  | cancelled
  | messageTimeout
  | taskLimit
  deriving DecidableEq, Repr

def readErr (side : Side) (e : IoErr) : CopyErr := if e = .cancelled then .cancelled else .read side e

def writeErr (side : Side) (e : IoErr) : CopyErr := if e = .cancelled then .cancelled else .write side e

inductive Ended
  | eof
  | limit
  deriving DecidableEq, Repr

/-- Where `Shared::fail` is: about to take the lock, to load a side's flag, or to end the side. -/
inductive Fail
  | lock (e : CopyErr)
  | load (side : Side)
  | finish (side : Side) (stop : Bool)
  deriving DecidableEq, Repr

/-- Where a direction is. -/
inductive Pc
  | idle
  -- `copy_to`
  | leading
  -- `one_way`
  | start
  | top
  -- `wait_for_data`: about to load `progress`; in `wait_readable`; timed out, and about to load
  -- `progress` again; about to load `writing`.
  | sample
  | waiting (seen : ℕ)
  | expired (seen : ℕ)
  | unmoved
  | equip
  | reading
  -- `writing`: about to count this write; in it; about to uncount it, and to count the progress.
  | raising
  | writing
  | lowering (e : Option IoErr)
  | counting (e : Option IoErr)
  | stopped (how : Ended)
  | broken (e : CopyErr)
  -- `direction`: the end of stream was passed on, and is about to be recorded; `fail`.
  | marking
  | failing (f : Fail)
  | done
  deriving DecidableEq, Repr

/-- In `wait_readable`. -/
def Pc.isWaiting : Pc → Bool
  | .waiting _ => true
  | _ => false

/-- `BUFFER`, `LARGE_BUFFER` and `CHUNK`. -/
def bufferSize : ℕ := 16 * 1024
def largeBuffer : ℕ := 64 * 1024
def chunkSize : ℕ := 64 * 1024

structure Dir where
  pc : Pc
  total : UInt64
  endAt : Option UInt64
  -- In `splice::copy`, with or without a pipe, and how much it has moved; or in `buffered`, with a
  -- buffer of some length.
  splicing : Bool
  pipe : Bool
  spliced : ℕ
  buf : ℕ
  -- What is in the pipe, or was read into the buffer and not written; the length of the last read, and
  -- how much of it is left to write.
  hand : List UInt8
  chunk : ℕ
  left : ℕ

namespace Dir

variable (x : Dir)

@[simps] def goto (pc : Pc) : Dir := { x with pc := pc }

def limitReached : Bool := x.endAt.any fun e => e ≤ x.total

/-- `cap`, of a buffer or a pipe. -/
def cap (len : ℕ) : ℕ :=
  match x.endAt with
  | none => len
  | some e => min (e.toNat - x.total.toNat) len

def room : ℕ := x.cap (if x.splicing then chunkSize else x.buf)

/-- What follows the checks at the head of the loop. -/
def next : Pc :=
  if x.splicing then (if x.pipe then .reading else .sample) else if x.buf = 0 then .sample else .reading

/-- `splice::copy` gives `None`: `buffered` carries on. -/
@[simps] def fallBack : Dir := { x with splicing := false, pipe := false, buf := 0, hand := [], pc := .top }

/-- A pipe is there, with what is in it. -/
@[simps] def setPipe (hand : List UInt8) : Dir := { x with pipe := true, hand := hand, pc := .reading }

@[simps] def setBuffer : Dir := { x with buf := bufferSize, pc := .reading }

/-- `k` bytes were read: into the buffer, or into the pipe. -/
@[simps] def took (bytes : List UInt8) : Dir :=
  { x with
    hand := if x.splicing then x.hand ++ bytes else bytes
    chunk := bytes.length
    left := bytes.length
    pc := .raising }

/-- Nothing to read: the buffer or the pipe is given back. -/
@[simps] def drained : Dir := { x with pipe := false, buf := 0, hand := [], pc := .top }

/-- `k` bytes were written. -/
@[simps] def wrote (k : ℕ) (pc : Pc) : Dir := { x with hand := x.hand.drop k, left := x.left - k, pc := pc }

/-- The chunk was written. -/
@[simps] def counted : Dir :=
  { x with
    total := x.total + UInt64.ofNat x.chunk
    spliced := if x.splicing then x.spliced + x.chunk else x.spliced
    buf := if !x.splicing && x.chunk = x.buf && x.chunk < largeBuffer then largeBuffer else x.buf
    pc := .top }

/-- `copy_to` after its first bytes. -/
@[simps] def begin (written : UInt64) (limit : Option UInt64) : Dir :=
  { x with total := written, endAt := limit.map fun n => written + n, pc := .start }

end Dir

/-! ## The state -/

/-- The calling task of `copy_both`, apart from its own direction. -/
inductive Caller
  | starting
  | waiting
  | failing (f : Fail)
  | waitingOn
  | finished
  deriving DecidableEq, Repr

/-- Whether `splice` exists, whether there is a deadline, and what `copy_to` was given. -/
structure Config where
  linux : Bool
  deadline : Bool
  leading : List UInt8
  limit : Option UInt64
  both : Bool

structure State where
  streams : Side → Stream
  dirs : Side → Dir
  progress : ℕ
  writing : ℕ
  endedInto : Side → Bool
  firstErr : Option CopyErr
  caller : Caller
  pool : List (List UInt8)
  -- History: by side, whether the direction from the other side wrote at some time between when this
  -- one loaded `progress` for its wait and when the wait ended.
  stirred : Side → Bool

namespace State

variable (s : State) (d : Side)

@[simps] def setStream (x : Stream) : State := { s with streams := update s.streams d x }

@[simps] def setDir (x : Dir) : State := { s with dirs := update s.dirs d x }

@[simps] def setPool (pool : List (List UInt8)) : State := { s with pool := pool }

@[simps] def setCaller (c : Caller) : State := { s with caller := c }

@[simps] def goto (pc : Pc) : State := { s with dirs := update s.dirs d ((s.dirs d).goto pc) }

/-- `give_back`, of the pipe of a direction if it has one. -/
def givenBack : List (List UInt8) :=
  if (s.dirs d).splicing && (s.dirs d).pipe then (s.dirs d).hand :: s.pool else s.pool

/-- `wait_for_data` loads `progress`. -/
@[simps] def sample : State :=
  { s with
    dirs := update s.dirs d ((s.dirs d).goto (.waiting s.progress))
    stirred := update s.stirred d (decide ((s.dirs d.other).pc = .writing)) }

/-- `writing` counts a write, which begins. -/
@[simps] def raise : State :=
  { s with
    dirs := update s.dirs d ((s.dirs d).goto .writing)
    writing := s.writing + 1
    stirred := update s.stirred d.other (s.stirred d.other || (s.dirs d.other).pc.isWaiting) }

@[simps] def lower (e : Option IoErr) : State :=
  { s with
    dirs := update s.dirs d ((s.dirs d).goto (.counting e))
    writing := s.writing - 1 }

@[simps] def count (x : Dir) : State :=
  { s with
    dirs := update s.dirs d x
    progress := s.progress + 1 }

@[simps] def mark : State :=
  { s with
    dirs := update s.dirs d ((s.dirs d).goto .done)
    endedInto := update s.endedInto d.other true }

@[simps] def setFirstErr (e : CopyErr) : State := { s with firstErr := some e }

end State

/-! ## The steps -/

/-- What an operation gave. -/
inductive Outcome
  | ok
  | bytes (k : ℕ)
  | eof
  | empty
  | unsupported
  | fails (e : IoErr)
  deriving DecidableEq, Repr

/-- The next step of `Shared::fail`; `none` is its end. -/
def fail (s : State) : Fail → State × Option Fail
  | .lock e => if s.firstErr = none then (s.setFirstErr e, some (.load .a)) else (s, none)
  | .load x => (s, some (.finish x (s.endedInto x)))
  | .finish x stop =>
    (s.setStream x (if stop then (s.streams x).stopReading else (s.streams x).abort),
      match x with
      | .a => some (.load .b)
      | .b => none)

/-- A write of what is left of a chunk; the direction goes on to `next` when there is no more. -/
def write (s : State) (d : Side) (next : Dir → Dir) : Outcome → Option State
  | .bytes k =>
    if 0 < k ∧ k ≤ (s.dirs d).left ∧ (s.streams d.other).aborted = false then
      some ((s.setStream d.other ((s.streams d.other).give ((s.dirs d).hand.take k))).setDir d
        (if (s.dirs d).left = k then next ((s.dirs d).wrote k (s.dirs d).pc)
          else (s.dirs d).wrote k (s.dirs d).pc))
    else none
  | .empty => some s
  | _ => none

/-- A read into the buffer, or a `splice` into the pipe. -/
def read (s : State) (d : Side) : Outcome → Option State
  | .bytes k =>
    if (s.streams d).hasBytes k ∧ k ≤ (s.dirs d).room then
      some ((s.setStream d ((s.streams d).take k)).setDir d ((s.dirs d).took ((s.streams d).arrived.take k)))
    else none
  | .eof =>
    if (s.streams d).atEnd ∨ (s.dirs d).room = 0 then
      some ((s.setPool (s.givenBack d)).goto d (.stopped .eof))
    else none
  | .empty => some ((s.setPool (s.givenBack d)).setDir d (s.dirs d).drained)
  | .unsupported =>
    if (s.dirs d).splicing then
      if (s.dirs d).spliced = 0 then some (s.setDir d (s.dirs d).fallBack)
      else some (s.goto d (.broken (.read d .other)))
    else none
  | .fails e => some (s.goto d (.broken (readErr d e)))
  | .ok => none

section System

variable (c : Config)

/-- The head of the loop. -/
def top (s : State) (d : Side) (o : Outcome) : Option State :=
  if (s.dirs d).limitReached then some ((s.setPool (s.givenBack d)).goto d (.stopped .limit))
  else
    match o with
    | .ok => some (s.goto d (s.dirs d).next)
    | .fails .timedOut =>
      if c.deadline then some (s.goto d (.broken .messageTimeout)) else none
    | _ => none

/-- A buffer or a pipe: a new one, or one of the pool. -/
def equip (s : State) (d : Side) (o : Outcome) : Option State :=
  if (s.dirs d).splicing then
    match o with
    | .ok => some (s.setDir d ((s.dirs d).setPipe []))
    | .bytes i => s.pool[i]?.map fun hand => (s.setPool (s.pool.eraseIdx i)).setDir d ((s.dirs d).setPipe hand)
    | .fails _ => some (s.setDir d (s.dirs d).fallBack)
    | _ => none
  else if o = .ok then some (s.setDir d (s.dirs d).setBuffer)
  else none

/-- The next step of a direction. -/
def advance (s : State) (d : Side) (o : Outcome) : Option State :=
  match (s.dirs d).pc, o with
  | .leading, .fails e => some (s.goto d (.broken (writeErr d.other e)))
  | .leading, o => write s d (·.begin (UInt64.ofNat c.leading.length) c.limit) o
  | .start, .ok =>
    some (s.setDir d
      { s.dirs d with
        splicing := c.linux && (s.streams d).kind.plain && (s.streams d.other).kind.plain
        pc := .top })
  | .top, o => top c s d o
  | .sample, .ok => some (s.sample d)
  | .waiting _, .ok => some (s.goto d .equip)
  | .waiting seen, .fails .timedOut => some (s.goto d (.expired seen))
  | .waiting _, .fails e => some (s.goto d (.broken (readErr d e)))
  | .expired _, .fails .timedOut =>
    if c.deadline then some (s.goto d (.broken .messageTimeout)) else none
  | .expired seen, .ok => some (s.goto d (if s.progress = seen then .unmoved else .sample))
  | .unmoved, .ok =>
    some (s.goto d (if 0 < s.writing then .sample else .broken (.read d .timedOut)))
  | .equip, o => equip s d o
  | .reading, o => read s d o
  | .raising, .ok => some (s.raise d)
  | .writing, .fails e => some (s.goto d (.lowering (some e)))
  | .writing, o => write s d (·.goto (.lowering none)) o
  | .lowering e, .ok => some (s.lower d e)
  | .counting none, .ok => some (s.count d (s.dirs d).counted)
  | .counting (some e), .ok =>
    some (s.count d ((s.dirs d).goto (.broken (writeErr d.other e))))
  | .stopped _, .ok =>
    if c.both then some ((s.setStream d.other (s.streams d.other).shutdownWrite).goto d .marking) else none
  | .stopped _, .fails _ => if c.both then some (s.goto d .marking) else none
  | .broken e, .ok => if c.both then some (s.goto d (.failing (.lock e))) else none
  | .marking, .ok => some (s.mark d)
  | .failing f, .ok => some ((fail s f).1.goto d (((fail s f).2.map Pc.failing).getD .done))
  | _, _ => none

inductive Label
  | dir (d : Side) (o : Outcome)
  -- `copy_both` starts its helper, or cannot; waits for it and is cancelled; goes on in `fail`; returns.
  | spawn (ok : Bool)
  | cancel
  | caller
  | finish
  | peerSends (x : Side) (bytes : List UInt8)
  | peerEnds (x : Side)
  deriving DecidableEq, Repr

def step (s : State) : Label → Option State
  | .dir d o => advance c s d o
  | .spawn ok =>
    if s.caller = .starting then
      if ok then some (((s.goto .a .start).goto .b .start).setCaller .waiting)
      else some ((s.setFirstErr .taskLimit).setCaller .finished)
    else none
  | .cancel =>
    if s.caller = .waiting ∧ (s.dirs .a).pc = .done then some (s.setCaller (.failing (.lock .cancelled)))
    else none
  | .caller =>
    match s.caller with
    | .failing f => some ((fail s f).1.setCaller (((fail s f).2.map Caller.failing).getD .waitingOn))
    | _ => none
  | .finish =>
    if (s.caller = .waiting ∨ s.caller = .waitingOn) ∧ (s.dirs .a).pc = .done ∧ (s.dirs .b).pc = .done then
      some (s.setCaller .finished)
    else none
  | .peerSends x bytes =>
    if (s.streams x).peerEnded then none else some (s.setStream x ((s.streams x).peerSends bytes))
  | .peerEnds x => some (s.setStream x (s.streams x).peerEnds)

def Stream.new (kind : Kind) : Stream := ⟨kind, [], [], false, [], false, false, false⟩

def Dir.new (pc : Pc) : Dir := ⟨pc, 0, none, false, false, 0, 0, [], 0, 0⟩

def State.new (kinds : Side → Kind) (pool : List (List UInt8)) (dirs : Side → Dir) (caller : Caller) : State where
  streams x := .new (kinds x)
  dirs := dirs
  progress := 0
  writing := 0
  endedInto _ := false
  firstErr := none
  caller := caller
  pool := pool
  stirred _ := false

/-- The calling task's direction in `copy_to`. -/
def leadingDir : Dir :=
  if c.leading = [] then (Dir.new .idle).begin 0 c.limit
  else { Dir.new .leading with hand := c.leading, chunk := c.leading.length, left := c.leading.length }

/-- `copy_to`, from `a` to `b`; the spare pipes are empty. -/
def copyTo (kinds : Side → Kind) (deadline linux : Bool) (leading : List UInt8) (limit : Option UInt64) :
    Transition.System State Label where
  init s := ∃ n, s = .new kinds (List.replicate n [])
    (update (fun _ => Dir.new .idle) .a (leadingDir ⟨linux, deadline, leading, limit, false⟩)) .finished
  step := step ⟨linux, deadline, leading, limit, false⟩

/-- `copy_both`. -/
def copyBoth (kinds : Side → Kind) (linux : Bool) : Transition.System State Label where
  init s := ∃ n, s = .new kinds (List.replicate n []) (fun _ => .new .idle) .starting
  step := step ⟨linux, false, [], none, true⟩

/-- What `copy_to` returns, once it does: the total, and the error if there is one. -/
def copyToResult (s : State) : Option (UInt64 × Option CopyErr) :=
  match (s.dirs .a).pc with
  | .stopped .eof =>
    some ((s.dirs .a).total, if (s.dirs .a).endAt.isSome then some (.read .a .unexpectedEof) else none)
  | .stopped .limit => some ((s.dirs .a).total, none)
  | .broken e => some ((s.dirs .a).total, some e)
  | _ => none

end System

end RocNet.Copy
