import RocNet.Library.Transition
import RocNet.Model.NoiseHandshake

/-!
# Two sides of a handshake

Messages handed over whole (`alternation`), and `handshake!` of `platform/Noise.roc`, run by both sides at once
(`link`). There each message goes as a two-byte big-endian length and the message, written and read in pieces of any
size, and the steps of the two sides interleave in any way. A side whose handshake is done may send other bytes on the
stream: `sent` keeps them, as a history.
-/

namespace RocNet.NoiseHandshake

open Bytes Fallible

/-! ## Messages that are handed over -/

/-- One side writes a message, and the other reads it: what it has read, and both sides after it. -/
def exchange (P : Primitives) (x : Role → Handshake) (w : Role) (payload : List UInt8) (fresh : SecretKey) :
    Result HandshakeErr Crash (List UInt8 × (Role → Handshake)) := do
  let (message, a) ← writeMessage P (x w) payload fresh
  let (received, b) ← readMessage P (x w.other) message
  pure (received, Function.update (Function.update x w a) w.other b)

/-- A message of one of the sides. -/
structure Exchange where
  writer : Role
  payload : List UInt8
  fresh : SecretKey
  deriving DecidableEq, Repr

/-- Two handshakes from `start!` whose messages are handed over one after the other. -/
def alternation (P : Primitives) (started : Role → Handshake) :
    Transition.System (Role → Handshake) Exchange where
  init x := x = started
  step x l := (exchange P x l.writer l.payload l.fresh).toOption.map Prod.snd

/-! ## `handshake!` -/

/-- How `handshake!` fails. -/
inductive ExchangeErr
  | handshake (e : HandshakeErr)
  | notFinished
  | handshakeEnded
  | streamErr
  | crashed (c : Crash)
  deriving DecidableEq, Repr

/-- Where a side stands in `handshake!`. -/
inductive Phase
  | loop
  -- in `write!`, with bytes left; the handshake to go on with
  | writing (left : List UInt8) (next : Handshake)
  -- reading the length, or a message of this length
  | header (got : List UInt8)
  | body (length : ℕ) (got : List UInt8)
  | done (result : Finished)
  | failed (e : ExchangeErr)
  deriving DecidableEq, Repr

structure Party where
  handshake : Handshake
  mine : List (List UInt8)
  received : List (List UInt8)
  phase : Phase
  deriving DecidableEq, Repr

/-- A message as it goes on the stream. -/
def frame (message : List UInt8) : List UInt8 := u16Be (.ofNat message.length) ++ message

section Party

variable (P : Primitives)

/-- The calls of a handshake that fail. -/
def Party.fail (p : Party) : Failure HandshakeErr Crash → Party
  | .err e => { p with phase := .failed (.handshake e) }
  | .crash c => { p with phase := .failed (.crashed c) }

/-- The head of the loop: finish, write the next message, or begin to read it. -/
def Party.turn (p : Party) (fresh : SecretKey) : Party :=
  if p.handshake.isFinished then
    match finish P p.handshake with
    | some result => { p with phase := .done result }
    | none => { p with phase := .failed .notFinished }
  else if p.handshake.myTurn then
    let payload := p.mine.headD []
    let p := { p with mine := p.mine.tail }
    match writeMessage P p.handshake payload fresh with
    | .ok (message, next) => { p with phase := .writing (frame message) next }
    | .error e => p.fail e
  else { p with phase := .header [] }

/-- A write of which `left` is left. -/
def Party.wrote (p : Party) (left : List UInt8) (next : Handshake) : Party :=
  if left.isEmpty then { p with handshake := next, phase := .loop } else { p with phase := .writing left next }

/-- A whole message is there. -/
def Party.readWhole (p : Party) (message : List UInt8) : Party :=
  match readMessage P p.handshake message with
  | .ok (payload, next) => { p with handshake := next, received := p.received ++ [payload], phase := .loop }
  | .error e => p.fail e

/-- The loop over the bytes of a message. -/
def Party.collect (p : Party) (length : ℕ) (got : List UInt8) : Party :=
  if got.length < length then { p with phase := .body length got } else p.readWhole P got

/-- What the read that a side is in asks for. -/
def Phase.wants : Phase → ℕ
  | .header got => 2 - got.length
  | .body length got => length - got.length
  | _ => 0

/-- The read that a side is in returns bytes. -/
def Party.receive (p : Party) (bytes : List UInt8) : Party :=
  match p.phase with
  | .header got =>
    if (got ++ bytes).length < 2 then { p with phase := .header (got ++ bytes) }
    else p.collect P ((u16BeAt (got ++ bytes) 0).toOption.getD 0).toNat []
  | .body length got => p.collect P length (got ++ bytes)
  | _ => p

end Party

/-- The two sides, the bytes on the way to each, and what each has sent after its handshake. -/
structure Link where
  party : Role → Party
  inbox : Role → List UInt8
  sent : Role → List UInt8

namespace Link

variable (x : Link)

@[simps] def setParty (r : Role) (p : Party) : Link := { x with party := Function.update x.party r p }

@[simps] def setInbox (r : Role) (bytes : List UInt8) : Link :=
  { x with inbox := Function.update x.inbox r bytes }

/-- Bytes go on the way to the other side. -/
def send (r : Role) (bytes : List UInt8) : Link := x.setInbox r.other (x.inbox r.other ++ bytes)

@[simps] def addSent (r : Role) (bytes : List UInt8) : Link :=
  { x with sent := Function.update x.sent r (x.sent r ++ bytes) }

end Link

inductive LinkLabel
  | turn (r : Role) (fresh : SecretKey)
  | write (r : Role) (count : ℕ)
  | read (r : Role) (count : ℕ)
  | ended (r : Role)
  | fails (r : Role)
  | transport (r : Role) (bytes : List UInt8)
  deriving DecidableEq, Repr

def linkStep (P : Primitives) (x : Link) : LinkLabel → Option Link
  | .turn r fresh =>
    match (x.party r).phase with
    | .loop => some (x.setParty r ((x.party r).turn P fresh))
    | _ => none
  | .write r count =>
    match (x.party r).phase with
    | .writing left next =>
      if 1 ≤ count ∧ count ≤ left.length then
        some ((x.setParty r ((x.party r).wrote (left.drop count) next)).send r (left.take count))
      else none
    | _ => none
  | .read r count =>
    if 1 ≤ count ∧ count ≤ (x.party r).phase.wants ∧ count ≤ (x.inbox r).length then
      some ((x.setParty r ((x.party r).receive P ((x.inbox r).take count))).setInbox r
        ((x.inbox r).drop count))
    else none
  | .ended r =>
    if 0 < (x.party r).phase.wants then
      some (x.setParty r { x.party r with phase := .failed .handshakeEnded })
    else none
  | .fails r =>
    match (x.party r).phase with
    | .writing _ _ | .header _ | .body _ _ =>
      some (x.setParty r { x.party r with phase := .failed .streamErr })
    | _ => none
  | .transport r bytes =>
    match (x.party r).phase with
    | .done _ => some ((x.send r bytes).addSent r bytes)
    | _ => none

/-- Both sides call `handshake!`, with these handshakes from `start!` and these payloads. -/
def link (P : Primitives) (started : Role → Handshake) (payloads : Role → List (List UInt8)) :
    Transition.System Link LinkLabel where
  init x := x = {
    party := fun r => ⟨started r, payloads r, [], .loop⟩
    inbox := fun _ => []
    sent := fun _ => [] }
  step := linkStep P

end RocNet.NoiseHandshake
