import RocNet.Model.Sockets
import RocNet.Model.Waiters

/-!
# Streams that `Select` can watch

What TLS and Noise streams have in common: locks held across waits, whose release wakes the `Select`s that watch the
stream. `Held` (tls.rs:90-126) and `Reading` (noise.rs:276-304) are the same guard. The id the next watcher will get
is read before the lock is taken. Dropping the guard releases the lock, and then wakes every watcher, or, after a hold
that was marked idle, those from that id on.

The tasks' waits, the workers and the sockets are those of `Sockets`. A task registers one watcher with the stream at
a time. The tasks that wait for a lock may go on whenever it is free, and the watchers are woken one by one without
their mutex, so that more can happen here than in the source.
-/

namespace RocNet.Streams

open Function

/-- The locks whose release wakes the watchers. -/
inductive LockName
  | read
  | write
  | handshake
  deriving DecidableEq, Repr

/-- The guard of a lock. -/
structure Held where
  lock : LockName
  guard : Bool
  -- The first watcher id given out during the hold.
  first : ℕ
  idle : Bool
  deriving DecidableEq, Repr

/-- The id from which dropping the guard wakes watchers: `wake_all` or `wake_from`. -/
def Held.wakesFrom (h : Held) : ℕ := if h.idle then h.first else 0

structure State where
  sock : Sockets.State
  watchers : Waiters (ℕ × ℕ)
  locked : LockName → Option ℕ
  -- By task: its watcher's id and wait; its guards, the latest first; what it is about to wake.
  registered : ℕ → Option (ℕ × ℕ)
  held : ℕ → List Held
  waking : ℕ → List (ℕ × ℕ)

namespace State

variable (s : State)

@[simps] def setSock (x : Sockets.State) : State := { s with sock := x }

/-- Task `t` takes a lock that is free, having read the next watcher id before. -/
@[simps] def lock (L : LockName) (t first : ℕ) : State :=
  { s with
    locked := update s.locked L (some t)
    held := update s.held t (⟨L, true, first, false⟩ :: s.held t) }

/-- `Held::idle`, for all the guards of a task. -/
@[simps] def markIdle (t : ℕ) : State :=
  { s with held := update s.held t ((s.held t).map fun h => { h with idle := true }) }

/-- The first half of dropping a guard. -/
@[simps] def unlock (t : ℕ) (h : Held) (rest : List Held) : State :=
  { s with
    locked := update s.locked h.lock none
    held := update s.held t ({ h with guard := false } :: rest) }

/-- The second half: the watchers to wake are taken off the list. -/
@[simps] def drain (t : ℕ) (h : Held) (rest : List Held) : State :=
  { s with
    watchers := s.watchers.before h.wakesFrom
    held := update s.held t rest
    waking := update s.waking t (s.watchers.drainFrom h.wakesFrom) }

/-- Task `t` wakes the wait `w` of task `u`, with these to wake after it. -/
@[simps] def wake (t u w : ℕ) (rest : List (ℕ × ℕ)) : State :=
  { s with
    sock := if s.sock.wait u = w then s.sock.setWait u 0 else s.sock
    waking := update s.waking t rest }

/-- `watch`, adding a waker for the wait `w` of task `t`. -/
@[simps] def register (t w : ℕ) : State :=
  { s with
    watchers := s.watchers.addWaker (t, w)
    registered := update s.registered t (some (s.watchers.nextId, w)) }

/-- `unwatch`, for the watcher of task `t`. -/
@[simps] def unwatch (t id : ℕ) : State :=
  { s with
    watchers := s.watchers.remove id
    registered := update s.registered t none }

end State

/-- The next step of dropping the guards of task `t`, if one is left. -/
def dropGuards (s : State) (t : ℕ) : Option State :=
  match s.waking t with
  | (u, w) :: rest => some (s.wake t u w rest)
  | [] =>
    match s.held t with
    | h :: rest => some (if h.guard then s.unlock t h rest else s.drain t h rest)
    | [] => none

def initial : State where
  sock := Sockets.initial
  watchers := .new
  locked := fun _ => none
  registered := fun _ => none
  held := fun _ => []
  waking := fun _ => []

/-! ## What dropping a guard can do -/

variable {s s' : State} {t : ℕ}

inductive DropStep (s : State) (t : ℕ) : State → Prop
  | wake (hwaking : s.waking t = (u, w) :: rest) : DropStep s t (s.wake t u w rest)
  | unlock (hwaking : s.waking t = []) (hheld : s.held t = h :: rest) (hguard : h.guard = true) :
      DropStep s t (s.unlock t h rest)
  | drain (hwaking : s.waking t = []) (hheld : s.held t = h :: rest) (hguard : h.guard = false) :
      DropStep s t (s.drain t h rest)

lemma dropGuards_cases (hdrop : dropGuards s t = some s') : DropStep s t s' := by
  unfold dropGuards at hdrop
  split at hdrop
  · next hwaking =>
    cases hdrop
    exact .wake hwaking
  · next hwaking =>
    split at hdrop
    · next h rest hheld =>
      cases hdrop
      split
      · next hguard => exact .unlock hwaking hheld hguard
      · next hguard => exact .drain hwaking hheld (Bool.eq_false_iff.mpr hguard)
    · cases hdrop

lemma dropGuards_none (hdrop : dropGuards s t = none) : s.waking t = [] ∧ s.held t = [] := by
  unfold dropGuards at hdrop
  split at hdrop
  · cases hdrop
  · next hwaking =>
    split at hdrop
    · cases hdrop
    · next hheld => exact ⟨hwaking, hheld⟩

end RocNet.Streams
