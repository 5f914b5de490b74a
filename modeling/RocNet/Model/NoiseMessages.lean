import Mathlib.Algebra.Group.Nat.Defs
import Mathlib.Data.List.Basic

/-!
# Noise transport messages

The receiving half of a Noise stream (noise.rs:138-254): ciphertext from the socket, taken apart into messages, and
the plaintext of the last message that reads have not taken yet. The cipher is a parameter.
-/

namespace RocNet.Noise

abbrev Bytes := List UInt8

/-- One direction's AEAD under its key, by nonce. -/
structure Cipher where
  sealInPlace : ℕ → Bytes → Bytes
  openInPlace : ℕ → Bytes → Option Bytes

/-- The last nonce, which the Noise specification reserves. -/
def maxNonce : ℕ := 2 ^ 64 - 1

/-- Why a read failed. -/
inductive ReadError
  -- "Noise: a message failed to authenticate"
  | notAuthentic
  -- "Noise: this stream has used up its nonces"
  | noncesUsedUp
  -- "Noise: the stream ended partway through a message"
  | unexpectedEof
  deriving DecidableEq, Repr

/-- What a stream has received. -/
structure Received where
  nonce : ℕ
  -- Plaintext of the last message, and how much of it reads have taken.
  plain : Bytes
  taken : ℕ
  ciphertext : Bytes
  ended : Bool
  failed : Bool
  deriving DecidableEq, Repr

namespace Received

def new (nonce : ℕ) : Received := ⟨nonce, [], 0, [], false, false⟩

/-- Up to `max` bytes of the plaintext left over, if there is any. -/
def take (r : Received) (max : ℕ) : Option (Bytes × Received) :=
  if r.taken ≥ r.plain.length then none
  else
    let stop := min (r.taken + max) r.plain.length
    some ((r.plain.take stop).drop r.taken, { r with taken := stop })

/-- The length of the whole message at the front of the ciphertext, if one has arrived. -/
def wholeMessage (r : Received) : Option ℕ :=
  match r.ciphertext with
  | high :: low :: _ =>
    let len := high.toNat * 256 + low.toNat
    if r.ciphertext.length ≥ 2 + len then some len else none
  | _ => none

/-- Whether a read would return without waiting: plaintext, a message to decrypt, or the end. -/
def readable (r : Received) : Bool :=
  decide (r.taken < r.plain.length) || r.wholeMessage.isSome || r.ended || r.failed

/-- The message of length `len` is taken off the front of the ciphertext. -/
def message (r : Received) (len : ℕ) : Bytes := (r.ciphertext.take (2 + len)).drop 2

def dropMessage (r : Received) (len : ℕ) : Received :=
  { r with ciphertext := r.ciphertext.drop (2 + len) }

/-- The loop of `next`, for at most so many messages. -/
def nextLoop (c : Cipher) (max : ℕ) : ℕ → Received → Except ReadError (Option Bytes) × Received
  | 0, r => (.ok none, r)
  | n + 1, r =>
    match r.take max with
    | some (bytes, r') => (.ok (some bytes), r')
    | none =>
      match r.wholeMessage with
      | none =>
        if !r.ended then (.ok none, r)
        else if r.ciphertext.isEmpty then (.ok (some []), r)
        else (.error .unexpectedEof, r)
      | some len =>
        if r.nonce = maxNonce then (.error .noncesUsedUp, r.dropMessage len)
        else
          let r' := { r.dropMessage len with nonce := r.nonce + 1 }
          match c.openInPlace r.nonce (r.message len) with
          | none => (.error .notAuthentic, { r' with failed := true })
          | some plain => nextLoop c max n { r' with plain := plain, taken := 0 }

/-- What a read returns without waiting: plaintext, decrypting messages that have arrived as needed; nothing at
the end of the stream; `none` if it must wait. Every message takes two bytes at least, so the loop does not run
out (`nextLoop_enough`). -/
def next (c : Cipher) (max : ℕ) (r : Received) : Except ReadError (Option Bytes) × Received :=
  if r.failed then (.error .notAuthentic, r) else nextLoop c max (r.ciphertext.length + 1) r

/-- Bytes read from the socket, none at its end. -/
@[simps] def receive (r : Received) (got : Bytes) : Received :=
  { r with ciphertext := r.ciphertext ++ got, ended := r.ended || got.isEmpty }

end Received

end RocNet.Noise
