import RocNet.Model.NoiseHandshake

/-!
# HKDF with SHA-256

`HkdfSha256.expand` of `platform/Cryptography.roc`. The counter is a byte, since it is put at the end of
what is hashed, and `+` on bytes crashes where it overflows.
-/

namespace RocNet.Hkdf

open Fallible
open NoiseHandshake (Primitives tag)

inductive Err
  | tooLong
  deriving DecidableEq, Repr

variable (P : Primitives) (prk info : List UInt8)

lemma tag_length (key message : List UInt8) : (tag P key message).length = 32 := by simp [tag]

/-- The loop of `expand`. -/
def expandLoop (length : ℕ) (out previous : List UInt8) (counter : UInt8) : Result Err Overflow (List UInt8) :=
  if out.length < length then do
    let previous := tag P prk (previous ++ info ++ [counter])
    let out := out ++ previous
    let counter ← addU8 counter 1
    expandLoop length out previous counter
  else pure out
termination_by length - out.length
decreasing_by
  rw [List.length_append, tag_length]
  omega

/-- `expand` (Cryptography.roc:256-270). -/
def expand (length : ℕ) : Result Err Overflow (List UInt8) :=
  if length > 255 * 32 then fail .tooLong
  else do
    let out ← expandLoop P prk info length [] [] 1
    pure (out.take length)

end RocNet.Hkdf
