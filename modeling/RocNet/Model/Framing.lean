import RocNet.Library.Incremental
import RocNet.Model.Bytes

/-!
# Framing

`Reader` of `Framing.roc`: reading lines, delimited records, messages of a parser, fixed numbers of bytes and
length-prefixed frames from a stream.

A stream is what the calls of `read_append!` will bring, one after the other: a segment of 1 to 4096 bytes, or an
error; after the last, the stream has ended and every further call adds nothing. With each segment comes what
`started.elapsed!()` reads once it has arrived. A read returns the reader to go on with; the stream is passed along
beside it. Whether a stream that is polled has something now is an argument.

The loops of `read_until!`, `read_parsed!` and `take_exactly!` are one loop (`readLoop`); `readLoop_eq` states it in
terms of `readAppend`.
-/

namespace RocNet.Framing

open Incremental

/-! ## Streams -/

/-- What one `read_append!` adds. -/
structure Segment where
  bytes : List UInt8
  nonempty : bytes ≠ []
  short : bytes.length ≤ 4096

/-- The kinds of streams, by the tag of their errors. -/
inductive Family
  | tcp
  | unix
  | tls
  | noise
  deriving DecidableEq, Repr

/-- `IOErr`, as far as readers look at it. -/
inductive IOErr
  | timedOut
  | other (code : ℕ)
  deriving DecidableEq, Repr

structure StreamErr where
  family : Family
  err : IOErr
  deriving DecidableEq, Repr

/-- What a call of `read_append!` brings. -/
inductive Arrival
  | data (segment : Segment) (elapsed : ℕ)
  | failed (err : StreamErr)

abbrev Stream := List Arrival

/-- `stream.read_append!(buffered, 4096)`. -/
def readAppend : Stream → List UInt8 → Except StreamErr (List UInt8) × Stream
  | [], buffered => (.ok buffered, [])
  | .data segment _ :: rest, buffered => (.ok (buffered ++ segment.bytes), rest)
  | .failed err :: rest, _ => (.error err, rest)

/-- What `started.elapsed!()` reads after the next `read_append!`. -/
def elapsed : Stream → ℕ
  | .data _ elapsed :: _ => elapsed
  | _ => 0

/-- The segments a stream will still bring. -/
def segments : Stream → List (List UInt8)
  | [] => []
  | .data segment _ :: rest => segment.bytes :: segments rest
  | .failed _ :: rest => segments rest

/-- The bytes a stream will still bring. -/
def bytes (s : Stream) : List UInt8 := (segments s).flatten

/-! ## Readers -/

/-- A reader, without its stream. -/
structure Reader where
  buffered : List UInt8
  maxLen : ℕ
  messageTimeoutNs : ℕ
  deriving DecidableEq, Repr

/-- How reads fail; `μ` is the type of a parser's own errors. -/
inductive ReadErr (μ : Type)
  | endOfStream
  | unexpectedEof
  | tooLong
  | badUtf8
  | messageTimedOut
  | idle (r : Reader)
  | stream (err : StreamErr)
  | malformed (e : μ)
  deriving DecidableEq, Repr

/-- `reader_with_max` (Framing.roc:503). -/
def readerWithMax (maxLen : ℕ) : Reader := ⟨[], maxLen, 60000000000⟩

/-- `reader` (Framing.roc:499). -/
def reader : Reader := readerWithMax 1048576

/-- `timed_out` (Framing.roc:484-488). -/
def timedOut (err : StreamErr) : Bool :=
  match err.family, err.err with
  | .tcp, .timedOut | .unix, .timedOut | .tls, .timedOut => true
  | _, _ => false

/-- `out_of_time!` (Framing.roc:492). -/
def outOfTime (timeoutNs elapsed : ℕ) : Bool := decide (timeoutNs > 0 ∧ elapsed > timeoutNs)

variable {β μ : Type}

/-- What a read comes to: a value and the reader to go on with, or an error; and the stream. -/
abbrev Outcome (β μ : Type) := Except (ReadErr μ) (β × Reader) × Stream

/-- The stream ended, with these bytes of the message received. -/
def atEnd (buffered : List UInt8) : ReadErr μ :=
  if buffered.length = 0 then .endOfStream else .unexpectedEof

/-- The stream failed; a timeout between messages leaves the reader as it was. -/
def onError (r : Reader) (messageStart : Bool) (buffered : List UInt8) (err : StreamErr) : ReadErr μ :=
  if messageStart && buffered.length == 0 && timedOut err then .idle { r with buffered := [] }
  else .stream err

/-- The loop of the reads of a reader `r`. The answer is asked of the bytes buffered so far, and may
start its search after the `searched` bytes that were there when it was asked before. -/
def readLoop (r : Reader) (messageStart : Bool)
    (answer : ℕ → List UInt8 → Answer β (ReadErr μ)) : Stream → List UInt8 → ℕ → Outcome β μ
  | s, buffered, searched =>
    match answer searched buffered with
    | .done value used => (.ok (value, { r with buffered := buffered.drop used }), s)
    | .fail e => (.error e, s)
    | .more =>
      match s with
      | [] => (.error (atEnd buffered), [])
      | .failed err :: rest => (.error (onError r messageStart buffered err), rest)
      | .data segment elapsed :: rest =>
        if outOfTime r.messageTimeoutNs elapsed then (.error .messageTimedOut, rest)
        else readLoop r messageStart answer rest (buffered ++ segment.bytes) buffered.length

/-- The loop, as the source has it (Framing.roc:91-109, 158-175, 461-478). -/
theorem readLoop_eq (r : Reader) (messageStart : Bool)
    (answer : ℕ → List UInt8 → Answer β (ReadErr μ)) (s : Stream) (buffered : List UInt8)
    (searched : ℕ) : readLoop r messageStart answer s buffered searched =
      match answer searched buffered with
      | .done value used => (.ok (value, { r with buffered := buffered.drop used }), s)
      | .fail e => (.error e, s)
      | .more =>
        match readAppend s buffered with
        | (.error err, rest) => (.error (onError r messageStart buffered err), rest)
        | (.ok grown, rest) =>
          if grown.length = buffered.length then (.error (atEnd buffered), rest)
          else if outOfTime r.messageTimeoutNs (elapsed s) then (.error .messageTimedOut, rest)
          else readLoop r messageStart answer rest grown buffered.length := by
  conv_lhs => unfold readLoop
  cases answer searched buffered with
  | done value used | fail e => rfl
  | more =>
    match s with
    | [] => simp [readAppend]
    | .failed err :: rest => rfl
    | .data segment time :: rest =>
      have hgrown : (buffered ++ segment.bytes).length ≠ buffered.length := by
        have hpos := List.length_pos_iff.mpr segment.nonempty
        rw [List.length_append]
        omega
      simp only [readAppend, elapsed, if_neg hgrown]
      rfl

/-! ## The reads -/

/-- What `read_until!` sees in its buffer (Framing.roc:72-90). -/
def untilAnswer (delimiter : UInt8) (maxLen searched : ℕ) (buffered : List UInt8) :
    Answer (List UInt8) (ReadErr μ) :=
  match (buffered.drop searched).findIdx? fun byte => byte == delimiter with
  | some offset =>
    let stop := searched + offset
    if stop > maxLen then .fail .tooLong else .done (buffered.take stop) (stop + 1)
  | none => if buffered.length > maxLen then .fail .tooLong else .more

/-- `Reader.read_until!`. -/
def readUntil (r : Reader) (delimiter : UInt8) (s : Stream) : Outcome (List UInt8) μ :=
  readLoop r true (untilAnswer delimiter r.maxLen) s r.buffered 0

/-- Without one `\r` at the end. -/
def withoutCr (record : List UInt8) : List UInt8 :=
  if record.getLast? = some 13 then record.dropLast else record

/-- The line of a record, if it is valid UTF-8. -/
def lineOf (record : List UInt8) : Option String :=
  String.fromUTF8? ⟨(withoutCr record).toArray⟩

/-- `Reader.read_line!`. -/
def readLine (r : Reader) (s : Stream) : Outcome String μ :=
  match readUntil r 10 s with
  | (.error e, s') => (.error e, s')
  | (.ok (record, next), s') =>
    match lineOf record with
    | some line => (.ok (line, next), s')
    | none => (.error .badUtf8, s')

/-- What a parser says of a buffer. -/
inductive Parse (β μ : Type)
  | parsed (value : β) (used : ℕ)
  | needMore
  | malformed (e : μ)

/-- What `read_parsed!` sees in its buffer (Framing.roc:143-157). -/
def parsedAnswer (parse : List UInt8 → Parse β μ) (maxLen : ℕ) (_searched : ℕ)
    (buffered : List UInt8) : Answer β (ReadErr μ) :=
  match parse buffered with
  | .parsed value used => if used > maxLen then .fail .tooLong else .done value used
  | .malformed e => .fail (.malformed e)
  | .needMore => if buffered.length > maxLen then .fail .tooLong else .more

/-- `Reader.read_parsed!`. -/
def readParsed (r : Reader) (parse : List UInt8 → Parse β μ) (s : Stream) : Outcome β μ :=
  readLoop r true (parsedAnswer parse r.maxLen) s r.buffered 0

/-- What `take_exactly!` sees in its buffer. -/
def exactlyAnswer (count : ℕ) (_searched : ℕ) (buffered : List UInt8) :
    Answer (List UInt8) (ReadErr μ) :=
  if buffered.length < count then .more else .done (buffered.take count) count

/-- `take_exactly!`. -/
def takeExactly (r : Reader) (count : ℕ) (messageStart : Bool) (s : Stream) : Outcome (List UInt8) μ :=
  readLoop r messageStart (exactlyAnswer count) s r.buffered 0

/-- `Reader.read_exactly!`. -/
def readExactly (r : Reader) (count : ℕ) (s : Stream) : Outcome (List UInt8) μ :=
  if count > r.maxLen then (.error .tooLong, s) else takeExactly r count true s

/-- `Bytes.take_u32_be`, of the length of a frame. -/
def takeLength (bytes : List UInt8) : Option (ℕ × List UInt8) :=
  (Bytes.takeU32Be bytes).toOption.map fun x => (x.1.toNat, x.2)

/-- `Reader.read_frame!`. -/
def readFrame (r : Reader) (s : Stream) : Outcome (List UInt8) μ :=
  match takeExactly r 4 true s with
  | (.error e, s') => (.error e, s')
  | (.ok (header, afterHeader), s') =>
    match takeLength header with
    | none => (.error .unexpectedEof, s')
    | some (len, _) =>
      if len > r.maxLen then (.error .tooLong, s') else takeExactly afterHeader len false s'

/-! ## Polls -/

/-- What `stream.try_read!(4096)` brings: no bytes are the end of the stream. -/
inductive TryRead
  | notReady
  | data (bytes : List UInt8)
  | failed (err : StreamErr)
  deriving DecidableEq, Repr

/-- `stream.try_read!(4096)`, when the stream has something to bring now (`ready`) and when not. -/
def tryRead (ready : Bool) (s : Stream) : TryRead × Stream :=
  if ready then
    match s with
    | [] => (.data [], [])
    | .data segment _ :: rest => (.data segment.bytes, rest)
    | .failed err :: rest => (.failed err, rest)
  else (.notReady, s)

/-- What a poll comes to: `none` is `NotReady`. -/
abbrev Polled (β μ : Type) := Option (Except (ReadErr μ) (β × Reader)) × Stream

/-- `try_read_with!` (Framing.roc:442-453). -/
def tryReadWith (r : Reader) (complete : List UInt8 → Bool) (read : Reader → Stream → Outcome β μ)
    (ready : Bool) (s : Stream) : Polled β μ :=
  if complete r.buffered then (read r s).map some id
  else
    match tryRead ready s with
    | (.notReady, s') => (none, s')
    | (.data bytes, s') => (read { r with buffered := r.buffered ++ bytes } s').map some id
    | (.failed err, s') => (some (.error (.stream err)), s')

/-- `Reader.try_read_line!`. -/
def tryReadLine (r : Reader) (ready : Bool) (s : Stream) : Polled String μ :=
  tryReadWith r (fun buffered => buffered.contains 10) readLine ready s

/-- `Bytes.u32_be_at`, of the length of a frame at the front. -/
def announced (bytes : List UInt8) : Option ℕ := (Bytes.u32BeAt bytes 0).toOption.map UInt32.toNat

/-- `frame_complete`. -/
def frameComplete (buffered : List UInt8) : Bool :=
  match announced buffered with
  | some len => buffered.length ≥ 4 + len
  | none => false

/-- `Reader.try_read_frame!`. -/
def tryReadFrame (r : Reader) (ready : Bool) (s : Stream) : Polled (List UInt8) μ :=
  tryReadWith r frameComplete readFrame ready s

/-- The parser has an answer. -/
def parseComplete (parse : List UInt8 → Parse β μ) (buffered : List UInt8) : Bool :=
  match parse buffered with
  | .needMore => false
  | _ => true

/-- `Reader.try_read_parsed!`. -/
def tryReadParsed (r : Reader) (parse : List UInt8 → Parse β μ) (ready : Bool) (s : Stream) :
    Polled β μ :=
  tryReadWith r (parseComplete parse) (fun r s => readParsed r parse s) ready s

/-! ## Writing frames -/

/-- What `write_frame!` gives to `stream.write!`. -/
def writeFrame (payload : List UInt8) : List UInt8 :=
  Bytes.u32Be (UInt32.ofNat payload.length) ++ payload

/-! ## Loops over messages -/

/-- What a fold's handler says. -/
inductive Flow (σ : Type)
  | goOn (state : σ)
  | stop (state : σ)

/-- How a fold ends well: the source returns the state either way. -/
inductive Finish (σ : Type)
  | ended (state : σ)
  | stopped (state : σ)

variable {σ η : Type}

/-- `fold!` (Framing.roc:405-427), for `n` messages at most (`none`: that was not enough). The handler's
errors are `η`. -/
def fold (read : Reader → Stream → Outcome β μ) (step : σ → β → Except η (Flow σ)) :
    ℕ → Reader → Stream → σ → Option (Except (ReadErr μ ⊕ η) (Finish σ))
  | 0, _, _, _ => none
  | n + 1, r, s, state =>
    match read r s with
    | (.error .endOfStream, _) => some (.ok (.ended state))
    | (.error e, _) => some (.error (.inl e))
    | (.ok (message, next), rest) =>
      match step state message with
      | .error e => some (.error (.inr e))
      | .ok (.goOn state) => fold read step n next rest state
      | .ok (.stop state) => some (.ok (.stopped state))

/-- `each!` (Framing.roc:393-400): a fold without a state. -/
def each (read : Reader → Stream → Outcome β μ) (handle : β → Except η Bool) (n : ℕ) (r : Reader)
    (s : Stream) : Option (Except (ReadErr μ ⊕ η) (Finish Unit)) :=
  fold read (fun _ message => (handle message).map fun goOn => if goOn then .goOn () else .stop ())
    n r s ()

end RocNet.Framing
