import Mathlib.Data.Nat.Notation
import Mathlib.Tactic.Simps.Basic
import RocNet.Library.Transition

/-!
# Waiting on sockets

`wait_io`, `watch_io`, `MultiWait` and `poll_events` of `sched.rs`: a task that waits on a socket is listed with the
socket, and the socket is watched by the event queue of one worker, its owner. A direction is the source's `writable`
flag.

Event queues are edge-triggered: an event for a socket becomes pending in the queues it is registered with when its
readiness rises, and in one queue when a ready socket is registered or re-armed there. An event that is collected
reports at least the pending directions that are ready by then. Events are collected without the lock that `watch_io`
holds, so each such call, which may fail, is a step.

Any task that no worker runs may be resumed, on any idle worker, whether or not its wait was claimed, and any wait may
be claimed at any time. `tried` records the operations known to block since the task was last resumed: its own that
failed with `WouldBlock`, and those a check or another task found to block meanwhile (`observe`).
-/

namespace RocNet.Sockets

open Function (update)

/-- An entry of a socket's waiters (sched.rs:979-983). -/
structure IoWaiter where
  task : ℕ
  wait : ℕ
  writable : Bool
  deriving DecidableEq, Repr

/-- What `poll` reported of a socket. -/
structure Event where
  socket : ℕ
  readable : Bool
  writable : Bool
  deriving DecidableEq, Repr

/-- Whether an event is for a direction. -/
def Event.hits (e : Event) (writable : Bool) : Bool := if writable then e.writable else e.readable

/-- What a worker is doing. -/
inductive Act
  | idle
  | running (t : ℕ)
  | handling (todo : List Event)
  -- Waking these waiters of a socket, with these events to handle after it.
  | waking (socket : ℕ) (woken : List (ℕ × ℕ)) (todo : List Event)
  deriving DecidableEq, Repr

/-- A call of `watch_io`: its wait, whether it is `add_io`'s, its socket and direction, and the sockets
the wait was added to before. -/
structure Watch where
  wait : ℕ
  multi : Bool
  socket : ℕ
  writable : Bool
  io : List ℕ
  deriving DecidableEq, Repr

/-- What `watch_io` is about to do, holding the lock of the waiters (sched.rs:1086-1116). -/
inductive WatchStep
  | rearm (owner : ℕ)
  | deregister (owner : ℕ)
  | register
  | reregister
  | store
  | giveUp
  deriving DecidableEq, Repr

/-- Where a task's code stands, as far as waiting on sockets goes. -/
inductive Code
  | free
  | opened (wait : ℕ) (io : List ℕ)
  -- `watch_io`
  | entering (k : Watch)
  | watching (k : Watch) (x : WatchStep)
  | armed (wait : ℕ) (io : List ℕ)
  | asleep (wait : ℕ) (io : List ℕ)
  | failed (wait : ℕ) (io : List ℕ)
  | forgetting (wait : ℕ) (io : List ℕ)
  deriving DecidableEq, Repr

structure State where
  slot : ℕ → Bool
  act : ℕ → Act
  -- Each task's worker, code, current wait (0: claimed), and the operations known to block since it
  -- was resumed.
  on : ℕ → Option ℕ
  code : ℕ → Code
  wait : ℕ → ℕ
  tried : ℕ → List (ℕ × Bool)
  nextWait : ℕ
  -- Whether an operation on a socket would not block, by direction.
  ready : ℕ → Bool → Bool
  registered : ℕ → ℕ → Bool
  pending : ℕ → ℕ → Bool → Bool
  -- Each socket's `IoState`: owner, closed flag, waiters and who holds their lock.
  owner : ℕ → Option ℕ
  closed : ℕ → Bool
  waiters : ℕ → List IoWaiter
  lock : ℕ → Option ℕ

namespace State

variable (s : State)

@[simps] def setAct (a : ℕ) (x : Act) : State := { s with act := update s.act a x }

@[simps] def setOn (t : ℕ) (o : Option ℕ) : State := { s with on := update s.on t o }

@[simps] def setCode (t : ℕ) (c : Code) : State := { s with code := update s.code t c }

@[simps] def setWait (t : ℕ) (w : ℕ) : State := { s with wait := update s.wait t w }

@[simps] def setTried (t : ℕ) (l : List (ℕ × Bool)) : State :=
  { s with tried := update s.tried t l }

@[simps] def setReady (S : ℕ) (writable b : Bool) : State :=
  { s with ready := update s.ready S (update (s.ready S) writable b) }

@[simps] def setWaiters (S : ℕ) (l : List IoWaiter) : State :=
  { s with waiters := update s.waiters S l }

@[simps] def setLock (S : ℕ) (o : Option ℕ) : State := { s with lock := update s.lock S o }

@[simps] def setOwner (S : ℕ) (o : Option ℕ) : State := { s with owner := update s.owner S o }

@[simps] def setPending (a : ℕ) (f : ℕ → Bool → Bool) : State :=
  { s with pending := update s.pending a f }

@[simps] def setRegistered (a S : ℕ) (b : Bool) : State :=
  { s with registered := update s.registered a (update (s.registered a) S b) }

/-- An event becomes pending, in one queue, for the directions in which the socket is ready. -/
def arm (a S : ℕ) : State :=
  s.setPending a (update (s.pending a) S fun d => s.pending a S d || s.ready S d)

/-- A socket leaves a queue, and its pending event with it. -/
def disarm (a S : ℕ) : State :=
  (s.setRegistered a S false).setPending a (update (s.pending a) S fun _ => false)

/-- Readiness rises: an event becomes pending in every queue the socket is registered with. -/
def rise (S : ℕ) (writable : Bool) : State :=
  { s.setReady S writable true with
    pending := fun a => update (s.pending a) S
      (update (s.pending a S) writable (s.registered a S || s.pending a S writable)) }

/-- The waiters of a socket without those of a wait. -/
def forget (S w : ℕ) : State := s.setWaiters S ((s.waiters S).filter fun x => x.wait != w)

/-- A socket is seen not to be ready in a direction. -/
@[simps] def observe (S : ℕ) (writable : Bool) : State :=
  { s with tried := fun t => (S, writable) :: s.tried t }

/-- `IoReg::close`: the waiters of the socket are taken and woken (sched.rs:1010-1020). -/
@[simps] def close (S : ℕ) : State :=
  { s with
    closed := update s.closed S true
    waiters := update s.waiters S []
    wait := fun t =>
      if (s.waiters S).any fun x => decide (x.task = t ∧ x.wait = s.wait t) then 0 else s.wait t }

end State

/-! ## The labels -/

inductive Label
  | resume (t a : ℕ)
  | yield (t : ℕ)
  | suspend (t : ℕ)
  -- A non-blocking operation of `t`, and whether one that succeeds leaves the socket not ready.
  | attempt (t S : ℕ) (writable drain : Bool)
  | waitIo (t S : ℕ) (writable : Bool)
  | beginMultiWait (t : ℕ)
  | addIo (t S : ℕ) (writable : Bool)
  | abandon (t : ℕ)
  -- The next step of `watch_io`, whose calls of the registry fail unless `ok`; of `forget_io`.
  | watch (t : ℕ) (ok : Bool)
  | forget (t : ℕ)
  | claim (t : ℕ)
  | rise (S : ℕ) (writable : Bool)
  | fall (S : ℕ) (writable : Bool)
  -- `readable_now`, or another task's operation, finds the socket not ready.
  | observe (S : ℕ) (writable : Bool)
  -- `poll_events`
  | collect (a : ℕ) (events : List Event)
  | handle (a : ℕ)
  | wake (a : ℕ)
  | close (S : ℕ)
  | publish (a : ℕ)
  deriving DecidableEq, Repr

/-! ## The steps -/

/-- `watch_io` returned `Ok(true)`. -/
def Watch.added (k : Watch) : Code :=
  if k.multi then .opened k.wait (k.io ++ [k.socket]) else .armed k.wait [k.socket]

/-- `watch_io` returned an error. -/
def Watch.refused (k : Watch) : Code := if k.multi then .failed k.wait k.io else .free

def Watch.waiter (k : Watch) (t : ℕ) : IoWaiter := ⟨t, k.wait, k.writable⟩

/-- `watch_io` from taking the waiters' lock to the first call of a registry (sched.rs:1079-1100), for
task `t` on worker `a`. Slots are only ever set, so looking the owner's up belongs to this step. -/
def enter (s : State) (t a : ℕ) (k : Watch) : State :=
  if s.closed k.socket then
    -- `wait_io` ends its own wait and returns; `add_io` fails
    if k.multi then s.setCode t k.refused
    else (s.setWait t (if s.wait t = k.wait then 0 else s.wait t)).setCode t .free
  else
    let s' := s.setWaiters k.socket (s.waiters k.socket ++ [k.waiter t])
    if s.owner k.socket = some a then s'.setCode t k.added
    else
      let go (x : WatchStep) : State := (s'.setLock k.socket (some t)).setCode t (.watching k x)
      match s.owner k.socket with
      | some b =>
        if s.slot b then
          if (s'.waiters k.socket).length > 1 then go (.rearm b) else go (.deregister b)
        else go .register
      | none => go .register

/-- The rest of `watch_io`, to its return. -/
def watchStep (s : State) (t a : ℕ) (k : Watch) (ok : Bool) : WatchStep → State
  | .rearm b =>
    if ok && s.registered b k.socket then ((s.arm b k.socket).setLock k.socket none).setCode t k.added
    else (s.setLock k.socket none).setCode t k.refused
  | .deregister b =>
    (if ok then s.disarm b k.socket else s).setCode t (.watching k .register)
  | .register =>
    if s.registered a k.socket then s.setCode t (.watching k .reregister)
    else if ok then
      ((s.setRegistered a k.socket true).arm a k.socket).setCode t (.watching k .store)
    else s.setCode t (.watching k .giveUp)
  | .reregister =>
    if ok then (s.arm a k.socket).setCode t (.watching k .store)
    else s.setCode t (.watching k .giveUp)
  | .store => ((s.setOwner k.socket (some a)).setLock k.socket none).setCode t k.added
  | .giveUp =>
    (((s.setOwner k.socket none).forget k.socket k.wait).setLock k.socket none).setCode t k.refused

/-- The steps of the code of task `t`, running on worker `a`. -/
def stepTask (s : State) (t a : ℕ) : Label → Option State
  | .yield _ =>
    if s.code t = .free then some ((s.setOn t none).setAct a .idle) else none
  | .suspend _ =>
    match s.code t with
    | .opened w io | .armed w io =>
      some (((s.setCode t (.asleep w io)).setOn t none).setAct a .idle)
    | _ => none
  | .attempt _ S writable drain =>
    if s.code t = .free then
      if s.ready S writable then some (s.setReady S writable !drain)
      else some (s.setTried t ((S, writable) :: s.tried t))
    else none
  | .waitIo _ S writable =>
    -- only after the operation failed with `WouldBlock`
    if s.code t = .free ∧ (S, writable) ∈ s.tried t then
      some (({ s with nextWait := s.nextWait + 1 }.setWait t s.nextWait).setCode t
        (.entering ⟨s.nextWait, false, S, writable, []⟩))
    else none
  | .beginMultiWait _ =>
    if s.code t = .free then
      some (({ s with nextWait := s.nextWait + 1 }.setWait t s.nextWait).setCode t
        (.opened s.nextWait []))
    else none
  | .addIo _ S writable =>
    match s.code t with
    | .opened w io => some (s.setCode t (.entering ⟨w, true, S, writable, io⟩))
    | _ => none
  | .abandon _ =>
    match s.code t with
    | .opened w io | .failed w io =>
      some ((s.setWait t (if s.wait t = w then 0 else s.wait t)).setCode t (.forgetting w io))
    | _ => none
  | .watch _ ok =>
    match s.code t with
    | .entering k => if s.lock k.socket = none then some (enter s t a k) else none
    | .watching k x => some (watchStep s t a k ok x)
    | _ => none
  | .forget _ =>
    match s.code t with
    | .forgetting _ [] => some (s.setCode t .free)
    | .forgetting w (S :: io) =>
      if s.lock S = none then some ((s.forget S w).setCode t (.forgetting w io)) else none
    | _ => none
  | _ => none

/-- The task whose code a label is a step of. -/
def Label.task : Label → Option ℕ
  | .yield t | .suspend t | .attempt t _ _ _ | .waitIo t _ _ | .beginMultiWait t | .addIo t _ _
  | .abandon t | .watch t _ | .forget t => some t
  | _ => none

/-- A task resumed in its wait goes on to take itself off the waiters. -/
def Code.resumed : Code → Code
  | .asleep w io => .forgetting w io
  | c => c

/-- Whether events report every pending direction of their sockets that is ready. -/
def Reports (s : State) (a : ℕ) (events : List Event) : Prop :=
  ∀ e ∈ events, ∀ d, s.pending a e.socket d = true → s.ready e.socket d = true → e.hits d = true

instance (s : State) (a : ℕ) (events : List Event) : Decidable (Reports s a events) := by
  unfold Reports
  infer_instance

def step (s : State) (l : Label) : Option State :=
  match l with
  | .resume t a =>
    if s.act a = .idle ∧ s.on t = none then
      some ((((s.setTried t []).setCode t (s.code t).resumed).setOn t (some a)).setAct a (.running t))
    else none
  | .claim t => some (s.setWait t 0)
  | .rise S writable => some (s.rise S writable)
  | .fall S writable => some (s.setReady S writable false)
  | .observe S writable => if s.ready S writable then none else some (s.observe S writable)
  | .collect a events =>
    if s.act a = .idle ∧ Reports s a events then
      some ((s.setPending a fun S d => s.pending a S d && !events.any (·.socket == S)).setAct a
        (.handling events))
    else none
  | .handle a =>
    match s.act a with
    | .handling [] => some (s.setAct a .idle)
    | .handling (e :: todo) =>
      if s.lock e.socket = none then
        some ((s.setWaiters e.socket ((s.waiters e.socket).filter fun x => !e.hits x.writable)).setAct a
          (.waking e.socket (((s.waiters e.socket).filter fun x => e.hits x.writable).map
            fun x => (x.task, x.wait)) todo))
      else none
    | _ => none
  | .wake a =>
    match s.act a with
    | .waking _ [] todo => some (s.setAct a (.handling todo))
    | .waking S ((t, w) :: woken) todo =>
      some ((s.setWait t (if s.wait t = w then 0 else s.wait t)).setAct a (.waking S woken todo))
    | _ => none
  | .close S => if s.lock S = none then some (s.close S) else none
  | .publish a => some { s with slot := update s.slot a true }
  | l =>
    match l.task with
    | some t => (s.on t).bind fun a => stepTask s t a l
    | none => none

def initial : State where
  slot := fun a => a = 0
  act := fun _ => .idle
  on := fun _ => none
  code := fun _ => .free
  wait := fun _ => 0
  tried := fun _ => []
  nextWait := 1
  ready := fun _ _ => false
  registered := fun _ _ => false
  pending := fun _ _ _ => false
  owner := fun _ => none
  closed := fun _ => false
  waiters := fun _ => []
  lock := fun _ => none

def system : Transition.System State Label where
  init s := s = initial
  step := step

end RocNet.Sockets
