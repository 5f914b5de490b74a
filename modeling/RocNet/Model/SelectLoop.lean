import Mathlib.Data.List.MinMax
import RocNet.Library.Transition

/-!
# The loop of `wait!`

`Arms.wait!` (Select.roc:215-264), by any number of tasks, with `roc_select_turn` and what `wait_any` does about
deadlines. What the polls find, which sources are ready while they are watched, and when a wait is woken are part of
the labels. Times are nanoseconds of one clock. Each look at the clock, poll and registration is a step. A read
timeout is always short enough for its deadline to be represented.
-/

namespace RocNet.SelectLoop

/-- What an arm waits on: a stream, with its read timeout in milliseconds (zero for none) and for TLS the deadline
of its handshake; or something that has no deadline. -/
inductive Source
  | stream (readMs : ℕ) (handshake : Option ℕ)
  | other
  deriving DecidableEq, Repr

def deadlineAfter (now ms : ℕ) : Option ℕ := if ms = 0 then none else some (now + ms * 1000000)

/-- `Socket::read_wait_deadline` (sockets.rs:376-394). -/
def Source.readWaitDeadline (now : ℕ) (handshaken : Bool) : Source → Option ℕ
  | .stream readMs handshake =>
    match deadlineAfter now readMs, if handshaken then none else handshake with
    | some a, some b => some (min a b)
    | a, b => a.or b
  | .other => none

/-- `wait_any` registers an arm: when, and whether its handshake was done by then. -/
structure Look where
  at_ : ℕ
  handshaken : Bool
  deriving DecidableEq, Repr

inductive Phase
  | polling (offset : ℕ)
  | calling (remaining : Option ℕ)
  -- `wait_any`.
  | entering (limit : Option ℕ)
  | watching (limit : Option ℕ)
  | waiting (limit : Option ℕ)
  deriving DecidableEq, Repr

structure Call where
  arms : List Source
  -- `none` for `U64.highest`
  deadline : Option ℕ
  first : ℕ
  phase : Phase
  round : List Look
  -- History: when each arm was first registered.
  seen : List ℕ
  deriving DecidableEq, Repr

/-- What `wait!` returns: the result of an arm, of `on_timeout`, or of the timeout of an arm's stream. -/
inductive Result
  | won (arm : ℕ)
  | timeout
  | streamTimeout (arm : ℕ)
  | cancelled
  deriving DecidableEq, Repr

namespace Call

variable (c : Call)

/-- `stream_deadlines`, by index. -/
def streamDeadlines : List (ℕ × ℕ) :=
  (c.arms.zip c.round).zipIdx.filterMap fun x =>
    (x.1.1.readWaitDeadline x.1.2.at_ x.1.2.handshaken).map fun d => (x.2, d)

/-- `first_stream_deadline`. -/
def firstDeadline : Option (ℕ × ℕ) := c.streamDeadlines.argmin Prod.snd

def waitUntil (limit : Option ℕ) : Option ℕ :=
  match limit, c.firstDeadline with
  | some a, some (_, b) => some (min a b)
  | a, b => a.or (b.map Prod.snd)

end Call

/-- What a call does next: poll an arm; look at the clock; call `wait_any`; begin its wait; register an arm; wait; and
how a wait ends. -/
inductive Action
  | poll (got : Bool)
  | rest
  | enter
  | begin
  | watch (ready handshaken : Bool)
  | suspend
  | wake
  | expire
  | cancel
  deriving DecidableEq, Repr

def Call.act (c : Call) (now : ℕ) (x : Action) : Option (Call ⊕ Result) :=
  match x, c.phase with
  | .poll got, .polling offset =>
    if offset < c.arms.length then
      some (if got then .inr (.won ((c.first + offset) % c.arms.length))
        else .inl { c with phase := .polling (offset + 1) })
    else none
  | .rest, .polling offset =>
    if offset < c.arms.length then none
    else
      match c.deadline with
      | none => some (.inl { c with phase := .calling none })
      | some d =>
        some (if d ≤ now then .inr .timeout else .inl { c with phase := .calling (some (d - now)) })
  | .enter, .calling remaining => some (.inl { c with phase := .entering (remaining.map (now + ·)) })
  | .begin, .entering limit =>
    -- `TimedOut`, if the deadline has passed by now
    some (.inl (if limit.any (· ≤ now) then { c with phase := .polling 0 }
      else { c with phase := .watching limit, round := [] }))
  | .watch ready handshaken, .watching limit =>
    if c.round.length < c.arms.length then
      some (.inl { c with
        -- a source that is ready ends the wait before it starts
        phase := if ready then .polling 0 else .watching limit
        round := c.round ++ [⟨now, handshaken⟩]
        seen := if c.round.length < c.seen.length then c.seen else c.seen ++ [now] })
    else none
  | .suspend, .watching limit =>
    if c.round.length < c.arms.length then none else some (.inl { c with phase := .waiting limit })
  | .wake, .waiting _ => some (.inl { c with phase := .polling 0 })
  | .expire, .waiting limit =>
    match c.waitUntil limit with
    | some u =>
      if u ≤ now then
        match c.firstDeadline with
        | some (i, d) =>
          some (if limit.all (d < ·) then .inr (.streamTimeout i) else .inl { c with phase := .polling 0 })
        | none => some (.inl { c with phase := .polling 0 })
      else none
    | none => none
  | .cancel, .waiting _ => some (.inr .cancelled)
  | _, _ => none

structure State where
  now : ℕ
  -- `TURN`, which all tasks share.
  turn : UInt64
  calls : ℕ → Option Call
  -- History: what each task's calls returned; how many turns all tasks have drawn, and had drawn before each of a
  -- task's calls.
  results : ℕ → List Result
  drawn : ℕ
  starts : ℕ → List ℕ

namespace State

variable (s : State) (t : ℕ)

@[simps] def setCall (c : Call) : State := { s with calls := Function.update s.calls t (some c) }

@[simps] def returns (r : Result) : State :=
  { s with
    calls := Function.update s.calls t none
    results := Function.update s.results t (s.results t ++ [r]) }

/-- A task calls `wait!`. Its deadline saturates at `U64.highest`, which is none. -/
@[simps] def start (arms : List Source) (timeout : Option ℕ) : State :=
  { s with
    turn := s.turn + 1
    drawn := s.drawn + 1
    starts := Function.update s.starts t (s.starts t ++ [s.drawn])
    calls := Function.update s.calls t (some
      { arms
        deadline := (timeout.map (s.now + ·)).filter (· < 18446744073709551615)
        first := if arms.length = 0 then 0 else s.turn.toNat % arms.length
        phase := .polling 0
        round := []
        seen := [] }) }

end State

inductive Label
  | tick (d : ℕ)
  | wait (t : ℕ) (arms : List Source) (timeout : Option ℕ)
  | act (t : ℕ) (x : Action)
  deriving DecidableEq, Repr

def step (s : State) : Label → Option State
  | .tick d => some { s with now := s.now + d }
  | .wait t arms timeout => if s.calls t = none then some (s.start t arms timeout) else none
  | .act t x =>
    match s.calls t with
    | none => none
    | some c =>
      match c.act s.now x with
      | none => none
      | some (.inl c') => some (s.setCall t c')
      | some (.inr r) => some (s.returns t r)

def initial : State := ⟨0, 0, fun _ => none, fun _ => [], 0, fun _ => []⟩

def system : Transition.System State Label where
  init s := s = initial
  step := step

/-- The steps. -/
inductive Step (s : State) : Label → State → Prop
  | tick (d : ℕ) : Step s (.tick d) { s with now := s.now + d }
  | start (hnone : s.calls t = none) : Step s (.wait t arms timeout) (s.start t arms timeout)
  | goOn {c c' : Call} (hcall : s.calls t = some c) (hact : c.act s.now x = some (.inl c')) :
      Step s (.act t x) (s.setCall t c')
  | returned {c : Call} {r : Result} (hcall : s.calls t = some c) (hact : c.act s.now x = some (.inr r)) :
      Step s (.act t x) (s.returns t r)

lemma step_cases (h : step s l = some s') : Step s l s' := by
  cases l with
  | tick d =>
    cases h
    exact .tick d
  | wait t arms timeout =>
    simp only [step] at h
    split at h
    · next hnone =>
      cases h
      exact .start hnone
    · cases h
  | act t x =>
    simp only [step] at h
    split at h
    · cases h
    next hcall =>
    split at h
    · cases h
    · next hact =>
      cases h
      exact .goOn hcall hact
    · next hact =>
      cases h
      exact .returned hcall hact

end RocNet.SelectLoop
