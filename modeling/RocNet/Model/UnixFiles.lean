import Mathlib.Algebra.Group.Nat.Defs
import RocNet.Library.Transition

/-!
# Unix listeners and their files

`unix_listen` of `net.rs` binds a listener to a path, replacing a socket file that nobody listens on; `close_now`
closes it while Roc still holds its handle; dropping the handle removes the file at its path. Which of the operating
system's calls fail is part of the label. A path here stands for the file that it resolves to, so two spellings of one
file's name are one path. The files of other processes stay as they are.
-/

namespace RocNet.UnixFiles

variable {P : Type} [DecidableEq P]

/-- What there is at a path. -/
inductive File
  | socket (n : ℕ)
  -- a socket of another process, which may be listening
  | foreign (listening : Bool)
  | plain
  deriving DecidableEq, Repr

/-- `OwnedUnixListener`. -/
structure Listener (P : Type) where
  path : P
  closed : Bool
  deriving DecidableEq, Repr

structure State (P : Type) where
  files : P → Option File
  listeners : ℕ → Option (Listener P)
  next : ℕ

/-- How a connect ends. -/
inductive Connected
  | reached (n : ℕ)
  | elsewhere
  | refused
  | notFound
  deriving DecidableEq, Repr

inductive ListenErr
  | tooManySockets
  | addrInUse
  | other
  deriving DecidableEq, Repr

/-- What fails in a call of `listen!`: there is no slot for the socket; the first bind, removing the
file, the second bind, or `set_nonblocking` fails. -/
structure Faults where
  full : Bool
  bind : Bool
  remove : Bool
  rebind : Bool
  nonblocking : Bool
  deriving DecidableEq, Repr

def Faults.none : Faults := ⟨false, false, false, false, false⟩

namespace State

variable (s : State P) (p : P) (n : ℕ)

@[simps] def setFile (f : Option File) : State P := { s with files := Function.update s.files p f }

@[simps] def setListener (l : Option (Listener P)) : State P :=
  { s with listeners := Function.update s.listeners n l }

/-- The socket is listening. -/
def isOpen : Bool := (s.listeners n).any fun l => !l.closed

def connect : Connected :=
  match s.files p with
  | some (.socket n) => if s.isOpen n then .reached n else .refused
  | some (.foreign true) => .elsewhere
  | some (.foreign false) | some .plain => .refused
  | none => .notFound

/-- `UnixListener::bind`: the socket, and the state with its file. -/
def bind (fails : Bool) : Except ListenErr (ℕ × State P) :=
  if fails then .error .other
  else
    match s.files p with
    | some _ => .error .addrInUse
    | none => .ok (s.next, { s.setFile p (some (.socket s.next)) with next := s.next + 1 })

def isStaleSocket : Bool :=
  match s.files p with
  | some (.socket _) | some (.foreign _) => s.connect p = .refused
  | _ => false

/-- The end of `unix_listen`. A socket that cannot be made non-blocking is closed, and leaves its file. -/
def listening (fails : Bool) : State P × Except ListenErr ℕ :=
  if fails then (s, .error .other) else (s.setListener n (some ⟨p, false⟩), .ok n)

def unixListen (f : Faults) : State P × Except ListenErr ℕ :=
  match s.bind p f.bind with
  | .ok (n, s') => s'.listening p n f.nonblocking
  | .error .addrInUse =>
    if s.isStaleSocket p then
      if f.remove then (s, .error .other)
      else
        match (s.setFile p none).bind p f.rebind with
        | .ok (n, s') => s'.listening p n f.nonblocking
        | .error e => (s.setFile p none, .error e)
    else (s, .error .addrInUse)
  | .error e => (s, .error e)

/-- `roc_unix_listen`. -/
def rocUnixListen (f : Faults) : State P × Except ListenErr ℕ :=
  if f.full then (s, .error .tooManySockets) else s.unixListen p f

/-- `roc_listener_close`, of a listener Roc holds. -/
def rocListenerClose (fails : Bool) : Option (State P) :=
  (s.listeners n).map fun l =>
    if l.closed then s
    else if fails then s
    else s.setListener n (some ⟨l.path, true⟩)

/-- The handle is released: `OwnedUnixListener::drop`, and the socket is closed if it was open. -/
def release (fails : Bool) : Option (State P) :=
  (s.listeners n).map fun l =>
    if fails then s.setListener n none else (s.setFile l.path none).setListener n none

end State

inductive Label (P : Type)
  | listen (p : P) (f : Faults)
  | close (n : ℕ) (fails : Bool)
  | release (n : ℕ) (removeFails : Bool)
  deriving DecidableEq, Repr

def step (s : State P) : Label P → Option (State P)
  | .listen p f => some (s.rocUnixListen p f).1
  | .close n fails => s.rocListenerClose n fails
  | .release n fails => s.release n fails

/-- The process starts with no listener, and files that are not its own. -/
def system (P : Type) [DecidableEq P] : Transition.System (State P) (Label P) where
  init s := (∀ n, s.listeners n = none) ∧ ∀ p n, s.files p ≠ some (.socket n)
  step := step

end RocNet.UnixFiles
