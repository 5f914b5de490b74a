import Mathlib.Data.Nat.Notation
import Mathlib.Tactic.Simps.Basic
import RocNet.Library.Transition

/-!
# Task handles and results

What becomes of the result of a spawned task: `start!` of `Task.roc`, `task_finish`, `task_join` and `Handle` of
`tasks.rs`, and the count of handles in `sched.rs`.

Roc code holds references to a task's handle. It may copy one, release one, or give one to `task_join`, which releases
it before it returns. When the last reference is gone the `Handle` is dropped, and only then does the task's count of
handles go down. Each access of the count, of the result, of the cancelled flag and of the log is a step.
-/

namespace RocNet.Handles

open Function

/-- What a task's closure returned. -/
inductive Result
  | ok
  | err (e : ℕ)
  deriving DecidableEq, Repr

/-- A line written to the log, and the task that wrote it. -/
structure Line where
  task : ℕ
  level : ℕ
  message : String
  error : ℕ
  deriving DecidableEq, Repr

/-- `Host.log_write!(3, "task failed", ...)` (Task.roc:189). -/
def failure (t e : ℕ) : Line := ⟨t, 3, "task failed", e⟩

/-- Where a spawned task's code stands (`run!`, Task.roc:178-192). -/
inductive Code
  | unborn
  | body
  -- `task_finish`
  | finishing (r : Result)
  | storing (r : Result) (watched : Bool)
  | reporting (r : Result) (watched : Bool)
  | logging (e : ℕ)
  | returned
  | finished
  deriving DecidableEq, Repr

/-- Where a call of `task_join` stands, on the handle of task `t`. -/
inductive Join
  | waiting (t : ℕ)
  | reading (t : ℕ)
  | leaving (t : ℕ)
  deriving DecidableEq, Repr

structure State where
  -- Of each task: its code, stored result, cancelled flag and count of handles.
  code : ℕ → Code
  result : ℕ → Option Result
  cancelled : ℕ → Bool
  handles : ℕ → ℕ
  -- Of its handle: whether it exists, the references to it, and those not given to a join.
  handle : ℕ → Bool
  refs : ℕ → ℕ
  spare : ℕ → ℕ
  join : ℕ → Option Join
  log : List Line
  joined : ℕ → Bool

namespace State

variable (s : State)

@[simps] def setCode (t : ℕ) (c : Code) : State := { s with code := update s.code t c }

@[simps] def setJoin (c : ℕ) (j : Option Join) : State := { s with join := update s.join c j }

@[simps] def setSpare (t n : ℕ) : State := { s with spare := update s.spare t n }

@[simps] def setRefs (t n : ℕ) : State := { s with refs := update s.refs t n }

@[simps] def setResult (t : ℕ) (r : Result) : State :=
  { s with result := update s.result t (some r) }

@[simps] def setCancelled (t : ℕ) : State := { s with cancelled := update s.cancelled t true }

@[simps] def setJoined (t : ℕ) : State := { s with joined := update s.joined t true }

@[simps] def write (x : Line) : State := { s with log := s.log ++ [x] }

/-- `roc_task_spawn`: the task starts with one handle, of one reference. -/
@[simps] def spawn (t : ℕ) : State :=
  { s with
    code := update s.code t .body
    handles := update s.handles t 1
    handle := update s.handle t true
    refs := update s.refs t 1
    spare := update s.spare t 1 }

/-- `Handle::drop`: one handle less (tasks.rs:81-85, sched.rs:827-829). -/
@[simps] def dropHandle (t : ℕ) : State :=
  { s with
    handle := update s.handle t false
    handles := update s.handles t (s.handles t - 1) }

/-- `TaskRef::has_handles`. -/
def hasHandles (t : ℕ) : Bool := decide (s.handles t > 0)

end State

/-! ## The steps -/

inductive Label
  | spawn (t : ℕ)
  -- A reference to the handle of `t` is copied, or released; the last one gone, the handle is dropped.
  | copy (t : ℕ)
  | release (t : ℕ)
  | dropHandle (t : ℕ)
  | cancel (t : ℕ)
  | finish (t : ℕ) (r : Result)
  | run (t : ℕ)
  | mark (t : ℕ)
  -- `c` calls `task_join` on the handle of `t`; its wait ends, perhaps because `c` was cancelled; it
  -- reads the result; releases its reference.
  | join (c t : ℕ)
  | wait (c : ℕ) (cancelled : Bool)
  | read (c : ℕ)
  | leave (c : ℕ)
  deriving DecidableEq, Repr

/-- Whether a join that finds this result returns an error. -/
def Result.isErr : Result → Bool
  | .ok => false
  | .err _ => true

/-- `run!` after the closure returned. -/
def run (s : State) (t : ℕ) : Option State :=
  match s.code t with
  | .finishing r => some (s.setCode t (.storing r (s.hasHandles t)))
  | .storing r watched => some ((s.setResult t r).setCode t (.reporting r watched))
  | .reporting r watched =>
    if !watched && !s.cancelled t then
      match r with
      | .ok => some (s.setCode t .returned)
      | .err e => some (s.setCode t (.logging e))
    else some (s.setCode t .returned)
  | .logging e => some ((s.write (failure t e)).setCode t .returned)
  | _ => none

def step (s : State) : Label → Option State
  | .spawn t => if s.code t = .unborn then some (s.spawn t) else none
  | .copy t =>
    if 0 < s.spare t then some ((s.setSpare t (s.spare t + 1)).setRefs t (s.refs t + 1)) else none
  | .release t =>
    if 0 < s.spare t then some ((s.setSpare t (s.spare t - 1)).setRefs t (s.refs t - 1)) else none
  | .dropHandle t => if s.refs t = 0 ∧ s.handle t = true then some (s.dropHandle t) else none
  | .cancel t => some (s.setCancelled t)
  | .finish t r => if s.code t = .body then some (s.setCode t (.finishing r)) else none
  | .run t => run s t
  | .mark t => if s.code t = .returned then some (s.setCode t .finished) else none
  | .join c t =>
    if s.join c = none ∧ 0 < s.spare t then
      some ((s.setSpare t (s.spare t - 1)).setJoin c (some (.waiting t)))
    else none
  | .wait c cancelled =>
    match s.join c with
    | some (.waiting t) =>
      if cancelled then some (s.setJoin c (some (.leaving t)))
      else if s.code t = .finished then some (s.setJoin c (some (.reading t)))
      else none
    | _ => none
  | .read c =>
    match s.join c with
    | some (.reading t) =>
      some ((if (s.result t).any Result.isErr then s.setJoined t else s).setJoin c (some (.leaving t)))
    | _ => none
  | .leave c =>
    match s.join c with
    | some (.leaving t) => some ((s.setRefs t (s.refs t - 1)).setJoin c none)
    | _ => none

def initial : State where
  code := fun _ => .unborn
  result := fun _ => none
  cancelled := fun _ => false
  handles := fun _ => 0
  handle := fun _ => false
  refs := fun _ => 0
  spare := fun _ => 0
  join := fun _ => none
  log := []
  joined := fun _ => false

def system : Transition.System State Label where
  init s := s = initial
  step := step

end RocNet.Handles
