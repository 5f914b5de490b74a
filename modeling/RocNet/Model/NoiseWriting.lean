import RocNet.Model.Noise

/-!
# Two ends of a Noise stream

`write_all` of `noise.rs`, called by any number of tasks on one end, and the reading side of the other
(`Model.Noise`). A write takes the write lock, seals its data in messages of at most `maxPlaintext` bytes, each under
the next nonce, and writes each as a frame, in pieces, before it seals the next.

What the other end reads from its socket is left open, so that it may be anything that an adversary makes of what was
written. The AEAD is ideal: it opens what has been sealed under the nonce it is given, and nothing else. Nonces,
messages, bytes and data are kept as histories.
-/

namespace RocNet.Noise

/-- `MAX_PLAINTEXT`. -/
def maxPlaintext : ℕ := 65535 - 16

/-- A message as it goes on the socket: its length as a `u16`, and its bytes. -/
def frame (sealed : Bytes) : Bytes :=
  [.ofNat (sealed.length % 65536 / 256), .ofNat (sealed.length % 65536 % 256)] ++ sealed

/-- A message that was sealed. -/
structure Sealed where
  nonce : ℕ
  plain : Bytes
  ciphertext : Bytes
  deriving DecidableEq, Repr

/-- The ideal AEAD, once these messages have been sealed. -/
def opening (sealInPlace : ℕ → Bytes → Bytes) (log : List Sealed) : Cipher where
  sealInPlace := sealInPlace
  openInPlace n ciphertext := (log.find? fun x => x.nonce = n ∧ x.ciphertext = ciphertext).map Sealed.plain

/-! ## Writing -/

/-- Where a task stands in `write_all`. -/
inductive WriteOp
  | none
  | wants (data : Bytes)
  -- with the lock: about to seal the next chunk of what is left; writing a frame
  | chunks (data rest : Bytes)
  | sending (data rest left : Bytes)
  deriving DecidableEq, Repr

structure Writer where
  nonce : ℕ
  locked : Option ℕ
  ops : ℕ → WriteOp
  used : List ℕ
  log : List Sealed
  outbound : Bytes
  written : List Bytes
  failed : Bool

namespace Writer

variable (w : Writer)

@[simps] def setOp (t : ℕ) (o : WriteOp) : Writer := { w with ops := Function.update w.ops t o }

/-- `write_all` returns, releasing the lock. -/
@[simps] def release (t : ℕ) : Writer := { w with ops := Function.update w.ops t .none, locked := none }

@[simps] def fail : Writer := { w with failed := true }

/-- `next_nonce`. -/
@[simps] def nextNonce : Writer := { w with nonce := w.nonce + 1, used := w.used ++ [w.nonce] }

/-- A message is sealed. -/
@[simps] def addSealed (x : Sealed) : Writer := { w with log := w.log ++ [x] }

@[simps] def send (bytes : Bytes) : Writer := { w with outbound := w.outbound ++ bytes }

end Writer

inductive WriteLabel
  | start (t : ℕ) (data : Bytes)
  | lock (t : ℕ)
  | encrypt (t : ℕ) (ok : Bool)
  | send (t : ℕ) (count : ℕ)
  | fail (t : ℕ)
  | finish (t : ℕ)
  deriving DecidableEq, Repr

/-- One chunk: the next nonce, sealing, and the frame. -/
def encrypt (sealInPlace : ℕ → Bytes → Bytes) (w : Writer) (t : ℕ) (data rest : Bytes) (ok : Bool) : Writer :=
  if w.nonce = maxNonce then (w.release t).fail
  else if ok then
    let chunk := rest.take maxPlaintext
    let sealed := sealInPlace w.nonce chunk
    (w.nextNonce.addSealed ⟨w.nonce, chunk, sealed⟩).setOp t
      (.sending data (rest.drop maxPlaintext) (frame sealed))
  else (w.nextNonce.release t).fail

def writeStep (sealInPlace : ℕ → Bytes → Bytes) (w : Writer) : WriteLabel → Option Writer
  | .start t data =>
    match w.ops t with
    | .none => some (w.setOp t (.wants data))
    | _ => none
  | .lock t =>
    match w.ops t, w.locked with
    | .wants data, none => some { w.setOp t (.chunks data data) with locked := some t }
    | _, _ => none
  | .encrypt t ok =>
    match w.ops t with
    | .chunks data rest => if rest.isEmpty then none else some (encrypt sealInPlace w t data rest ok)
    | _ => none
  | .send t count =>
    match w.ops t with
    | .sending data rest left =>
      if 1 ≤ count ∧ count ≤ left.length then
        let left' := left.drop count
        some ((w.send (left.take count)).setOp t
          (if left'.isEmpty then .chunks data rest else .sending data rest left'))
      else none
    | _ => none
  | .fail t =>
    match w.ops t with
    | .sending _ _ _ => some (w.release t).fail
    | _ => none
  | .finish t =>
    match w.ops t with
    | .chunks data rest =>
      if rest.isEmpty then some { w.release t with written := w.written ++ [data] } else none
    | _ => none

/-! ## Both ends -/

/-- The nonces under which the loop of `next` opens messages. -/
def openedLoop (c : Cipher) (max : ℕ) : ℕ → Received → List ℕ
  | 0, _ => []
  | n + 1, r =>
    match r.take max with
    | some _ => []
    | none =>
      match r.wholeMessage with
      | none => []
      | some len =>
        if r.nonce = maxNonce then []
        else
          match c.openInPlace r.nonce (r.message len) with
          | none => [r.nonce]
          | some plain =>
            r.nonce :: openedLoop c max n { r.dropMessage len with nonce := r.nonce + 1, plain, taken := 0 }

/-- The nonces under which `next` opens messages. -/
def opened (c : Cipher) (max : ℕ) (r : Received) : List ℕ :=
  if r.failed then [] else openedLoop c max (r.ciphertext.length + 1) r

/-- The nonces under which a step of the reading side opens messages. -/
def openedBy (c : Cipher) (s : State) : Label → List ℕ
  | .look t =>
    match s.ops t with
    | .looking (.read max) | .looking (.tryRead max) => opened c max s.received
    | _ => []
  | _ => []

structure Pair where
  writer : Writer
  reader : State
  opened : List ℕ

inductive PairLabel
  | write (l : WriteLabel)
  | read (l : Label)
  deriving DecidableEq, Repr

def pairStep (sealInPlace : ℕ → Bytes → Bytes) (S : ℕ) (y : Pair) : PairLabel → Option Pair
  | .write l => (writeStep sealInPlace y.writer l).map fun w => { y with writer := w }
  | .read l =>
    let c := opening sealInPlace y.writer.log
    (step c S y.reader l).map fun s => { y with reader := s, opened := y.opened ++ openedBy c y.reader l }

/-- Two ends whose next message is under `nonce`; the reading one is over socket `S`. -/
def pair (sealInPlace : ℕ → Bytes → Bytes) (S nonce : ℕ) : Transition.System Pair PairLabel where
  init y := y = {
    writer := ⟨nonce, none, fun _ => .none, [], [], [], [], false⟩
    reader := initial nonce
    opened := [] }
  step := pairStep sealInPlace S

end RocNet.Noise
