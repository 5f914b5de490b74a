import RocNet.Model.Connect

/-!
# Every address gets its share

A share of the time left is rounded down, so an attempt that takes no more leaves the others theirs.
-/

namespace RocNet.Connect

open List Option Nat

variable {ε : Type} {addr : Address ε} {addrs rest : List (Address ε)} {now n q left end_ : ℕ} {last : Result ε}

/-- The first attempt, before the deadline. -/
def first (end_ now n : ℕ) (addr : Address ε) : Attempt :=
  ⟨now, some (now + max ((end_ - now) / (n + 1)) 1000000), now + addr.took⟩

/-- What a call comes to in which each address has at least `q`. -/
structure Shares (q end_ : ℕ) (addrs : List (Address ε)) (o : Outcome ε) : Prop where
  made : ∀ i < addrs.length, (∀ a ∈ addrs.take i, a.error ≠ none) → i < o.made.length
  share : ∀ a ∈ o.made, ∃ d, a.deadline = some d ∧ a.start + q ≤ d ∧ d ≤ end_
  returned : o.returned ≤ end_

end RocNet.Connect
