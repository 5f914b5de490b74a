import RocNet.Library.Fallible

/-!
# Random numbers of a range

`between!` of `platform/Random.roc`. What `u64!` draws, call by call, is an argument; arithmetic is that of
`U64`, checked.
-/

namespace RocNet.Random

open Fallible

/-- The loop of `between!`: draw again below `threshold`. `none`: the draws given do not suffice. -/
def redraw (threshold : ℕ) : List UInt64 → Option ℕ
  | [] => none
  | n :: draws => if n.toNat < threshold then redraw threshold draws else some n.toNat

/-- `between!` (Random.roc:61-81). -/
def between (low high : UInt64) (draws : List UInt64) : Result Empty Overflow (Option ℕ) :=
  if high ≤ low then pure (some low.toNat)
  else do
    let width ← sub64 high.toNat low.toNat
    if width = 18446744073709551615 then pure (draws.head?.map UInt64.toNat)
    else
      let range ← add64 width 1
      let left ← sub64 18446744073709551615 range
      let surplus ← add64 left 1
      let threshold := surplus % range
      match redraw threshold draws with
      | none => pure none
      | some n => some <$> add64 low.toNat (n % range)

end RocNet.Random
