import Mathlib.Algebra.Group.Nat.Defs

/-!
# Connecting to one of several addresses

`tcp_connect` of `net.rs`, after the name lookup. Times are nanoseconds; the clock does not go on between two
looks at it in one turn of the loop. How long each attempt takes, and how it ends, is an argument.
-/

namespace RocNet.Connect

variable {ε : Type}

/-- An address, by what comes of trying it: how long it takes, and its error unless it connects. -/
structure Address (ε : Type) where
  took : ℕ
  error : Option ε

/-- An attempt that was made. -/
structure Attempt where
  start : ℕ
  deadline : Option ℕ
  ended : ℕ
  deriving DecidableEq, Repr

inductive Result (ε : Type)
  | connected
  | failed (e : ε)
  -- `TimedOut`, and `NotFound` where the name did not resolve
  | timedOut
  | notFound
  deriving DecidableEq, Repr

structure Outcome (ε : Type) where
  made : List Attempt
  result : Result ε
  returned : ℕ

end RocNet.Connect
