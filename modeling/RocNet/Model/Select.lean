import RocNet.Model.Sockets
import RocNet.Model.Waiters

/-!
# Waits on several sources

`wait_any` (select.rs:52-212), the wait behind `Select`, and the timers of `wait_suspended` (sched.rs:903-920). A
`MultiWait` registers one wait with every source in turn: with sockets through `add_io`, with the others by adding a
waker to a list. If a source is found ready on the way, the wait is abandoned; otherwise the task suspends, with a
timer if there is a deadline. Then it takes itself off the sockets and the lists.

The sockets and the claiming of waits are those of `Sockets`. Whether a source is ready is left open, and so is the
deadline of a wait. A list is woken, and timers fire, at any time. `stdin::next_line` and `signals::next` are
`wait_any` on one source, without a deadline.
-/

namespace RocNet.Select

/-- The lists of wakers that a `Select` registers with. -/
inductive Place
  | receiver (channel : ℕ)
  | sender (channel : ℕ)
  | task (t : ℕ)
  | stdin
  | signals
  | tls (socket : ℕ)
  | noise (socket : ℕ)
  deriving DecidableEq, Repr

/-- What `sockets::get` finds behind a handle. -/
inductive Kind
  | plain
  | tls
  | noise
  | released
  deriving DecidableEq, Repr

inductive Source
  | readable (socket : ℕ)
  | writable (socket : ℕ)
  | receivable (channel : ℕ)
  | sendable (channel : ℕ)
  | joinable (t : ℕ)
  | stdinLine
  | signalCaught
  deriving DecidableEq, Repr

/-- An entry of a worker's timers: its key is the deadline and the wait. -/
structure Timer where
  due : ℕ
  wait : ℕ
  task : ℕ
  deriving DecidableEq, Repr

/-- What `wait_any` is about to do. -/
inductive Phase
  | polling (todo : List Source)
  | checking (p : Place) (id socket : ℕ) (todo : List Source)
  | adding (socket : ℕ) (dirs : List Bool) (todo : List Source)
  | ready
  | leaving
  deriving DecidableEq, Repr

/-- A call of `wait_any`: its wait, and what it has registered to undo later (`Watching`). -/
structure Call where
  wait : ℕ
  watching : List (Place × ℕ)
  phase : Phase
  deriving DecidableEq, Repr

structure State where
  sock : Sockets.State
  -- The timers of each worker, and each task's own timer: its worker, deadline and wait.
  timers : ℕ → List Timer
  timer : ℕ → Option (ℕ × ℕ × ℕ)
  lists : Place → Waiters (ℕ × ℕ)
  call : ℕ → Option Call

namespace State

variable (s : State)

@[simps] def setSock (x : Sockets.State) : State := { s with sock := x }

@[simps] def setCall (t : ℕ) (o : Option Call) : State := { s with call := Function.update s.call t o }

@[simps] def setTimer (t : ℕ) (o : Option (ℕ × ℕ × ℕ)) : State :=
  { s with timer := Function.update s.timer t o }

@[simps] def setTimers (a : ℕ) (l : List Timer) : State :=
  { s with timers := Function.update s.timers a l }

@[simps] def setList (p : Place) (x : Waiters (ℕ × ℕ)) : State :=
  { s with lists := Function.update s.lists p x }

/-- Add a waker for the wait of a call to a list. -/
def enlist (t : ℕ) (p : Place) (w : ℕ) : State := s.setList p ((s.lists p).addWaker (t, w))

/-- `wait_suspended` takes its timer off the worker it set it on, if it finds that worker: a worker runs tasks
before `start_worker` has entered it in `WORKERS`. -/
def removeTimer (a due w : ℕ) : State :=
  if s.sock.slot a then s.setTimers a ((s.timers a).filter fun x => decide (¬ (x.due = due ∧ x.wait = w))) else s

/-- The wait that a task is about to suspend in. -/
def suspending (t : ℕ) : Option ℕ :=
  match s.call t, s.sock.code t with
  | none, .armed w _ => some w
  | some ⟨_, _, .polling []⟩, .opened w _ => some w
  | _, _ => none

end State

/-! ## The steps -/

inductive Label
  | sock (l : Sockets.Label)
  -- `wait_any`
  | waitAny (t : ℕ) (sources : List Source)
  | watch (t : ℕ) (ready : Bool)
  | check (t : ℕ) (ready wantsWrite : Bool)
  | addIo (t : ℕ)
  | abandon (t : ℕ)
  | unwatch (t : ℕ)
  -- `wait_suspended`
  | setTimer (t due : ℕ)
  | suspend (t : ℕ)
  | clearTimer (t : ℕ)
  -- `fire_timers` of worker `a`; `wake_all` or `wake_from` on a list.
  | fire (a now : ℕ)
  | wakeFrom (p : Place) (first : ℕ)
  deriving DecidableEq, Repr

/-- The steps of `Sockets` that are free to happen. A task in `wait_any` does nothing else meanwhile,
and `wait_suspended` removes the timer before the sockets are forgotten. -/
def State.passes (s : State) : Sockets.Label → Bool
  | .suspend _ | .beginMultiWait _ | .addIo _ _ _ | .abandon _ => false
  | .yield t | .attempt t _ _ _ | .waitIo t _ _ => (s.call t).isNone
  | .forget t => (s.timer t).isNone
  | _ => true

/-- A source that registers its waker unless it is ready. -/
def watchList (s : State) (t : ℕ) (q : Call) (p : Place) (todo : List Source) (ready : Bool) : State :=
  if ready then s.setCall t (some { q with phase := .ready })
  else (s.enlist t p q.wait).setCall t (some
    { q with watching := q.watching ++ [(p, (s.lists p).nextId)], phase := .polling todo })

/-- A stream registers the waker first, and then looks whether it is ready. -/
def watchStream (s : State) (t : ℕ) (q : Call) (p : Place) (S : ℕ) (todo : List Source) : State :=
  (s.enlist t p q.wait).setCall t (some { q with phase := .checking p (s.lists p).nextId S todo })

/-- The loop's body, for one source (select.rs:69-170). -/
def watchSource (kind : ℕ → Kind) (s : State) (t : ℕ) (q : Call) (todo : List Source) (ready : Bool) :
    Source → State
  | .signalCaught => watchList s t q .signals todo ready
  | .stdinLine => watchList s t q .stdin todo ready
  | .joinable u => watchList s t q (.task u) todo ready
  | .receivable c => watchList s t q (.receiver c) todo ready
  | .sendable c => watchList s t q (.sender c) todo ready
  | .writable S =>
    match kind S with
    | .released => s.setCall t (some { q with phase := .ready })
    | _ => s.setCall t (some { q with phase := .adding S [true] todo })
  | .readable S =>
    match kind S with
    | .released => s.setCall t (some { q with phase := .ready })
    | .plain => s.setCall t (some { q with phase := .adding S [false] todo })
    | .tls => watchStream s t q (.tls S) S todo
    | .noise => watchStream s t q (.noise S) S todo

/-- The directions a stream's socket is added for: a TLS stream may also want to write. -/
def directions (p : Place) (wantsWrite : Bool) : List Bool :=
  match p with
  | .tls _ => if wantsWrite then [false, true] else [false]
  | _ => [false]

/-- The rest of a stream's `watch`: `Ready` takes the waker off again. -/
def checkStream (s : State) (t : ℕ) (q : Call) (p : Place) (id S : ℕ) (todo : List Source)
    (ready wantsWrite : Bool) : State :=
  if ready then
    (s.setList p ((s.lists p).remove id)).setCall t (some { q with phase := .ready })
  else s.setCall t (some { q with
    watching := q.watching ++ [(p, id)], phase := .adding S (directions p wantsWrite) todo })

/-- After an `add_io`: the other direction, or the next source. -/
def Phase.added (S : ℕ) (dirs : List Bool) (todo : List Source) : Phase :=
  match dirs with
  | [] => .polling todo
  | _ => .adding S dirs todo

/-- Whether `wait_any` gives up its wait: a source was ready, or `add_io` failed. -/
def gaveUp (q : Call) (c : Sockets.Code) : Bool :=
  match q.phase, c with
  | .ready, .opened _ _ | .polling _, .failed _ _ | .adding _ _ _, .failed _ _ => true
  | _, _ => false

def step (kind : ℕ → Kind) (s : State) : Label → Option State
  | .sock l => if s.passes l then (Sockets.step s.sock l).map s.setSock else none
  | .waitAny t sources =>
    if s.call t = none then
      (Sockets.step s.sock (.beginMultiWait t)).map fun x =>
        (s.setSock x).setCall t (some ⟨s.sock.nextWait, [], .polling sources⟩)
    else none
  | .watch t ready =>
    match s.call t, s.sock.code t with
    | some ⟨w, watching, .polling (x :: todo)⟩, .opened _ _ =>
      some (watchSource kind s t ⟨w, watching, .polling (x :: todo)⟩ todo ready x)
    | _, _ => none
  | .check t ready wantsWrite =>
    match s.call t, s.sock.code t with
    | some ⟨w, watching, .checking p id S todo⟩, .opened _ _ =>
      some (checkStream s t ⟨w, watching, .checking p id S todo⟩ p id S todo ready wantsWrite)
    | _, _ => none
  | .addIo t =>
    match s.call t with
    | some ⟨w, watching, .adding S (d :: dirs) todo⟩ =>
      (Sockets.step s.sock (.addIo t S d)).map fun x =>
        (s.setSock x).setCall t (some ⟨w, watching, .added S dirs todo⟩)
    | _ => none
  | .abandon t =>
    match s.call t with
    | some q =>
      if gaveUp q (s.sock.code t) then
        (Sockets.step s.sock (.abandon t)).map fun x =>
          (s.setSock x).setCall t (some { q with phase := .leaving })
      else none
    | none => none
  | .unwatch t =>
    match s.call t, s.sock.code t with
    | some ⟨w, watching, .leaving⟩, .free =>
      match watching with
      | [] => some (s.setCall t none)
      | (p, id) :: rest =>
        some ((s.setList p ((s.lists p).remove id)).setCall t (some ⟨w, rest, .leaving⟩))
    | _, _ => none
  | .setTimer t due =>
    match s.suspending t, s.sock.on t with
    | some w, some a =>
      if s.timer t = none then
        -- inserting under a key that is there replaces its entry
        some ((s.setTimers a (⟨due, w, t⟩ :: (s.timers a).filter fun x =>
          decide (¬ (x.due = due ∧ x.wait = w)))).setTimer t (some (a, due, w)))
      else none
    | _, _ => none
  | .suspend t =>
    if (s.suspending t).isSome then
      (Sockets.step s.sock (.suspend t)).map fun x =>
        (s.setSock x).setCall t ((s.call t).map fun q => { q with phase := .leaving })
    else none
  | .clearTimer t =>
    match s.timer t, s.sock.code t with
    | some (a, due, w), .forgetting _ _ => some ((s.removeTimer a due w).setTimer t none)
    | _, _ => none
  | .fire a now => some (s.setTimers a ((s.timers a).filter fun x => decide (now < x.due)))
  | .wakeFrom p first => some (s.setList p ((s.lists p).before first))

def initial : State where
  sock := Sockets.initial
  timers := fun _ => []
  timer := fun _ => none
  lists := fun _ => .new
  call := fun _ => none

def system (kind : ℕ → Kind) : Transition.System State Label where
  init s := s = initial
  step := step kind

end RocNet.Select
