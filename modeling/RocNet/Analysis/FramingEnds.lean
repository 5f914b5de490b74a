import Mathlib.Data.List.Forall2
import RocNet.Analysis.BytesCodecs
import RocNet.Analysis.FramingRecords
import RocNet.Library.Transition

/-!
# A truncated message is not a clean finish

Reads by any of a reader's functions, one after the other, on any stream: every byte is part of a message that was
returned, or still to be read, and a read reports the end of the stream only where no byte is left, unless the stream
ends right after the header of a frame.
-/

namespace RocNet.Framing

open List Incremental

variable {α β γ μ σ η : Type} {r next : Reader} {s s' : Stream}

/-! ## The reads -/

inductive Op (β μ : Type)
  | line
  | record (delimiter : UInt8)
  | parsed (parse : List UInt8 → Parse β μ)
  | exactly (count : ℕ)
  | frame

inductive Message (β : Type)
  | text (line : String)
  | bytes (b : List UInt8)
  | value (v : β)

/-- A read whose value is passed on in another form. -/
def Outcome.mapValue (f : α → γ) (x : Outcome α μ) : Outcome γ μ :=
  match x with
  | (.ok (value, next), s) => (.ok (f value, next), s)
  | (.error e, s) => (.error e, s)

def Op.read (op : Op β μ) (r : Reader) (s : Stream) : Outcome (Message β) μ :=
  match op with
  | .line => Outcome.mapValue .text (readLine r s)
  | .record delimiter => Outcome.mapValue .bytes (readUntil r delimiter s)
  | .parsed parse => Outcome.mapValue .value (readParsed r parse s)
  | .exactly count => Outcome.mapValue .bytes (readExactly r count s)
  | .frame => Outcome.mapValue .bytes (readFrame r s)

/-- The bytes that make up a message. -/
def Op.Encodes (op : Op β μ) (raw : List UInt8) (m : Message β) : Prop :=
  match op with
  | .line => ∃ record line, raw = record ++ [10] ∧ 10 ∉ record ∧ lineOf record = some line ∧ m = .text line
  | .record delimiter => ∃ record, raw = record ++ [delimiter] ∧ delimiter ∉ record ∧ m = .bytes record
  | .parsed parse => ∃ buffered v used, parse buffered = .parsed v used ∧ raw = buffered.take used ∧ m = .value v
  | .exactly count => raw.length = count ∧ m = .bytes raw
  | .frame => ∃ header payload, raw = header ++ payload ∧
      takeLength header = some (payload.length, []) ∧ m = .bytes payload

/-- What is left to read: buffered, and to come. -/
def remaining (r : Reader) (s : Stream) : List UInt8 := r.buffered ++ bytes s

/-- A four-byte header that announces a payload within the limit, and nothing after it. -/
def HeaderOnly (maxLen : ℕ) (xs : List UInt8) : Prop := ∃ len, takeLength xs = some (len, []) ∧ len ≠ 0 ∧ len ≤ maxLen

variable {f : α → γ} {count : ℕ} {v header : List UInt8} {messageStart : Bool} {x : Outcome α μ}

lemma mapValue_ok (h : x.mapValue f = (.ok (value, next), s')) : ∃ v, x = (.ok (v, next), s') ∧ value = f v := by
  unfold Outcome.mapValue at h
  split at h
  · cases h
    exact ⟨_, rfl, rfl⟩
  · cases h

lemma mapValue_error (h : x.mapValue f = (.error e, s')) : x = (.error e, s') := by
  unfold Outcome.mapValue at h
  split at h
  · cases h
  · cases h
    rfl

/-! ## Successful reads -/

lemma exactlyAnswer_done (h : exactlyAnswer count 0 received = (.done v used : Answer _ (ReadErr μ))) :
    used = count ∧ v = received.take count ∧ count ≤ received.length := by
  unfold exactlyAnswer at h
  split at h
  · cases h
  · next hlen =>
    cases h
    exact ⟨rfl, rfl, Nat.le_of_not_lt hlen⟩

lemma takeExactly_ok (h : takeExactly r count messageStart s = ((.ok (v, next), s') : Outcome _ μ)) :
    v.length = count ∧ v ++ remaining next s' = remaining r s ∧ next.maxLen = r.maxLen ∧
      (s' = [] → Calm r.messageTimeoutNs s) := by
  obtain ⟨received, used, hanswer, rfl, hbytes, hcalm⟩ := readLoop_ok (fun _ _ _ => rfl) rfl h
  obtain ⟨rfl, rfl, hlen⟩ := exactlyAnswer_done hanswer
  refine ⟨by rw [length_take, Nat.min_eq_left hlen], ?_, rfl, hcalm⟩
  unfold remaining
  rw [← hbytes, ← append_assoc, take_append_drop]

lemma readUntil_ok (h : readUntil r d s = ((.ok (record, next), s') : Outcome _ μ)) :
    d ∉ record ∧ (record ++ [d]) ++ remaining next s' = remaining r s ∧ next.maxLen = r.maxLen := by
  obtain ⟨received, used, hanswer, rfl, hbytes, -⟩ := readLoop_ok untilAnswer_resumes rfl h
  obtain ⟨hrecord, -, rfl, rest, rfl⟩ := untilAnswer_done hanswer
  refine ⟨hrecord, ?_, rfl⟩
  unfold remaining
  rw [← hbytes]
  simp

/-- The length of a frame is read back, and nothing else is read as one. -/
theorem takeLength_eq_some_iff {xs rest : List UInt8} :
    takeLength xs = some (len, rest) ↔ ∃ n : UInt32, n.toNat = len ∧ xs = Bytes.u32Be n ++ rest := by
  unfold takeLength
  constructor
  · intro h
    obtain ⟨-, hdec⟩ | ⟨n, rest', rfl, hdec⟩ := Bytes.u32Be_codec.split xs
    · rw [hdec] at h
      cases h
    · rw [hdec] at h
      cases h
      exact ⟨n, rfl, rfl⟩
  · rintro ⟨n, rfl, rfl⟩
    rw [Bytes.u32Be_codec.dec_enc]
    rfl

lemma takeLength_eq_none_iff {xs : List UInt8} : takeLength xs = none ↔ xs.length < 4 := by
  unfold takeLength
  obtain ⟨hlt, hdec⟩ | ⟨n, rest, rfl, hdec⟩ := Bytes.u32Be_codec.split xs
  · rw [hdec]
    exact iff_of_true rfl hlt
  · rw [hdec, length_append, Bytes.u32Be_codec.length]
    exact iff_of_false nofun (by omega)

lemma length_of_takeLength (h : takeLength header = some (len, [])) : header.length = 4 := by
  obtain ⟨n, -, rfl⟩ := takeLength_eq_some_iff.mp h
  rfl

lemma takeLength_of_length (h : header.length = 4) : ∃ len, takeLength header = some (len, []) := by
  obtain ⟨n, rfl⟩ := Bytes.u32Be_codec.exists_enc header h
  exact ⟨n.toNat, takeLength_eq_some_iff.mpr ⟨n, rfl, (append_nil _).symm⟩⟩

/-- A read of a frame fails with its header, or goes on to the payload, unless that is too long. -/
theorem readFrame_cases (h : readFrame r s = (result, s')) :
    (∃ e, takeExactly r 4 true s = ((.error e, s') : Outcome _ μ) ∧ result = .error e) ∨
    ∃ header after s'' len, takeExactly r 4 true s = ((.ok (header, after), s'') : Outcome _ μ) ∧
      takeLength header = some (len, []) ∧ header ++ remaining after s'' = remaining r s ∧ after.maxLen = r.maxLen ∧
      (result = .error .tooLong ∨ len ≤ r.maxLen ∧ takeExactly after len false s'' = (result, s')) := by
  unfold readFrame at h
  split at h
  · next e s'' hheader =>
    cases h
    exact .inl ⟨e, hheader, rfl⟩
  · next header after s'' hheader =>
    obtain ⟨hlen, hbytes, hmax, -⟩ := takeExactly_ok hheader
    obtain ⟨len, htake⟩ := takeLength_of_length hlen
    refine .inr ⟨header, after, s'', len, hheader, htake, hbytes, hmax, ?_⟩
    simp only [htake] at h
    split at h
    · cases h
      exact .inl rfl
    · next hlong => exact .inr ⟨Nat.not_lt.mp hlong, h⟩

variable {op : Op β μ}

/-- A read that succeeds takes the bytes of its message off what was left. -/
theorem read_ok (h : op.read r s = (.ok (m, next), s')) :
    ∃ raw, op.Encodes raw m ∧ raw ++ remaining next s' = remaining r s ∧ next.maxLen = r.maxLen := by
  cases op with
  | line =>
    obtain ⟨line, hline, rfl⟩ := mapValue_ok h
    unfold readLine at hline
    split at hline
    · cases hline
    · next record next' s'' hread =>
      split at hline
      · next hutf8 =>
        cases hline
        obtain ⟨hrecord, hbytes⟩ := readUntil_ok hread
        exact ⟨_, ⟨record, _, rfl, hrecord, hutf8, rfl⟩, hbytes⟩
      · cases hline
  | record d =>
    obtain ⟨record, hread, rfl⟩ := mapValue_ok h
    obtain ⟨hrecord, hbytes⟩ := readUntil_ok hread
    exact ⟨_, ⟨record, rfl, hrecord, rfl⟩, hbytes⟩
  | parsed parse =>
    obtain ⟨v, hread, rfl⟩ := mapValue_ok h
    obtain ⟨received, used, hanswer, rfl, hbytes, -⟩ := readLoop_ok (fun _ _ _ => rfl) rfl hread
    have hparse : parse received = .parsed v used := by
      unfold parsedAnswer at hanswer
      split at hanswer
      · next hparse =>
        split at hanswer
        · cases hanswer
        · cases hanswer
          exact hparse
      · cases hanswer
      · split at hanswer <;> cases hanswer
    refine ⟨received.take used, ⟨received, v, used, hparse, rfl, rfl⟩, ?_, rfl⟩
    unfold remaining
    rw [← hbytes, ← append_assoc, take_append_drop]
  | exactly count =>
    obtain ⟨v, hread, rfl⟩ := mapValue_ok h
    unfold readExactly at hread
    split at hread
    · cases hread
    · obtain ⟨hlen, hbytes, hmax, -⟩ := takeExactly_ok hread
      exact ⟨v, ⟨hlen, rfl⟩, hbytes, hmax⟩
  | frame =>
    obtain ⟨payload, hread, rfl⟩ := mapValue_ok h
    rcases readFrame_cases hread with ⟨e, -, hresult⟩ | ⟨header, after, s'', len, -, htake, hbytes, hmax, hread⟩
    · cases hresult
    · rcases hread with hresult | ⟨-, hread⟩
      · cases hresult
      · obtain ⟨hlen, hbytes', hmax', -⟩ := takeExactly_ok hread
        refine ⟨header ++ payload, ⟨header, payload, rfl, by rw [htake, hlen], rfl⟩, ?_, hmax'.trans hmax⟩
        rw [← hbytes, ← hbytes', append_assoc]

/-! ## Reads that find the end of the stream -/

lemma takeExactly_endOfStream (h : takeExactly r count messageStart s = ((.error .endOfStream, s') : Outcome _ μ)) :
    s = [] ∧ r.buffered = [] ∧ count ≠ 0 := by
  obtain ⟨hs, hbuffered, hmore⟩ := readLoop_endOfStream (fun _ _ _ => exactlyAnswer_refusal) h
  refine ⟨hs, hbuffered, ?_⟩
  rintro rfl
  simp [exactlyAnswer] at hmore

/-- **The end of the stream is between messages.** A read that reports it had nothing left to read,
unless it took the header of a frame for all there was. -/
theorem read_endOfStream
    (huncut : op = .frame → Calm r.messageTimeoutNs s → ¬ HeaderOnly r.maxLen (remaining r s))
    (h : op.read r s = (.error .endOfStream, s')) : s = [] ∧ r.buffered = [] := by
  have huntil : ∀ {d : UInt8}, readUntil r d s = ((.error .endOfStream, s') : Outcome _ μ) →
      s = [] ∧ r.buffered = [] := by
    intro d hread
    obtain ⟨hs, hbuffered, -⟩ := readLoop_endOfStream (fun _ _ _ => untilAnswer_refusal) hread
    exact ⟨hs, hbuffered⟩
  cases op with
  | line =>
    have hline := mapValue_error h
    unfold readLine at hline
    split at hline
    · next hread =>
      cases hline
      exact huntil hread
    · split at hline <;> cases hline
  | record d => exact huntil (mapValue_error h)
  | parsed parse =>
    obtain ⟨hs, hbuffered, -⟩ := readLoop_endOfStream (fun _ _ _ => parsedAnswer_refusal) (mapValue_error h)
    exact ⟨hs, hbuffered⟩
  | exactly count =>
    have hread := mapValue_error h
    unfold readExactly at hread
    split at hread
    · cases hread
    · obtain ⟨hs, hbuffered, -⟩ := takeExactly_endOfStream hread
      exact ⟨hs, hbuffered⟩
  | frame =>
    have hread := mapValue_error h
    rcases readFrame_cases hread with
      ⟨e, hheader, hresult⟩ | ⟨header, after, s'', len, hheader, htake, hbytes, -, hread⟩
    · cases hresult
      obtain ⟨hs, hbuffered, -⟩ := takeExactly_endOfStream hheader
      exact ⟨hs, hbuffered⟩
    · rcases hread with hresult | ⟨hmax, hread⟩
      · cases hresult
      · -- the payload is missing altogether: what was left was the header
        obtain ⟨rfl, hbuffered, hcount⟩ := takeExactly_endOfStream hread
        have hleft : remaining r s = header := by
          rw [← hbytes]
          unfold remaining
          rw [hbuffered]
          simp [bytes, segments]
        have hcalm := (takeExactly_ok hheader).2.2.2 rfl
        exact absurd ⟨len, by rw [hleft, htake], hcount, hmax⟩ (huncut rfl hcalm)

lemma read_idle (h : op.read r s = (.error (.idle next), s')) : remaining next s' = remaining r s := by
  have hsame : true = true ∧ r.buffered = [] ∧ next.buffered = [] ∧ bytes s' = bytes s →
      remaining next s' = remaining r s := by
    rintro ⟨-, hr, hnext, hbytes⟩
    unfold remaining
    rw [hr, hnext, hbytes]
  have hexactly : ∀ {count : ℕ}, takeExactly r count true s = ((.error (.idle next), s') : Outcome _ μ) →
      remaining next s' = remaining r s :=
    fun hread => hsame (readLoop_idle (fun _ _ _ => exactlyAnswer_refusal) hread)
  cases op with
  | line =>
    have hline := mapValue_error h
    unfold readLine at hline
    split at hline
    · next hread =>
      cases hline
      exact hsame (readLoop_idle (fun _ _ _ => untilAnswer_refusal) hread)
    · split at hline <;> cases hline
  | record d => exact hsame (readLoop_idle (fun _ _ _ => untilAnswer_refusal) (mapValue_error h))
  | parsed parse =>
    exact hsame (readLoop_idle (fun _ _ _ => parsedAnswer_refusal) (mapValue_error h))
  | exactly count =>
    have hread := mapValue_error h
    unfold readExactly at hread
    split at hread
    · cases hread
    · exact hexactly hread
  | frame =>
    rcases readFrame_cases (mapValue_error h) with ⟨e, hheader, hresult⟩ | ⟨_, _, _, len, -, -, -, -, hread⟩
    · cases hresult
      exact hexactly hheader
    · rcases hread with hresult | ⟨-, hread⟩
      · cases hresult
      · -- in the middle of a frame a timeout is not idle
        cases (readLoop_idle (fun _ _ _ => exactlyAnswer_refusal) hread).1

/-! ## Sequences of reads -/

/-- A reader in use: the stream, and what was read. -/
structure Session (β μ : Type) where
  reader : Reader
  stream : Stream
  messages : List (Op β μ × Message β)

/-- A read, to go on with the reader it gives back. -/
def Session.step (x : Session β μ) (op : Op β μ) : Option (Session β μ) :=
  match op.read x.reader x.stream with
  | (.ok (m, next), s) => some ⟨next, s, x.messages ++ [(op, m)]⟩
  | (.error (.idle next), s) => some ⟨next, s, x.messages⟩
  | _ => none

/-- The reads of a fresh reader on a stream. -/
def reading (maxLen timeoutNs : ℕ) (s : Stream) : Transition.System (Session β μ) (Op β μ) where
  init x := x = ⟨⟨[], maxLen, timeoutNs⟩, s, []⟩
  step := Session.step

/-- No frame is read where the stream ends right after the header of one. -/
def Uncut (x : Session β μ) (op : Op β μ) : Prop :=
  op = .frame → Calm x.reader.messageTimeoutNs x.stream →
    ¬ HeaderOnly x.reader.maxLen (remaining x.reader x.stream)

/-- What was read and what is left make up the stream. -/
def Accounts (s : Stream) (x : Session β μ) : Prop :=
  ∃ raws, Forall₂ (fun m raw => m.1.Encodes raw m.2) x.messages raws ∧
    raws.flatten ++ remaining x.reader x.stream = bytes s

lemma accounts_step {x x' : Session β μ} (h : Accounts s x) (hstep : x.step op = some x') : Accounts s x' := by
  obtain ⟨raws, hraws, hbytes⟩ := h
  unfold Session.step at hstep
  split at hstep
  · next m next s' hread =>
    cases hstep
    obtain ⟨raw, hraw, hleft, -⟩ := read_ok hread
    refine ⟨raws ++ [raw], rel_append hraws (.cons hraw .nil), ?_⟩
    rw [flatten_append, ← hbytes, ← hleft]
    simp
  · next next s' hread =>
    cases hstep
    refine ⟨raws, hraws, ?_⟩
    rw [← hbytes]
    exact congrArg (raws.flatten ++ ·) (read_idle hread)
  · cases hstep

/-! ## Loops over messages -/

/-- A whole number of messages of one kind. -/
def Whole (op : Op β μ) (xs : List UInt8) : Prop :=
  ∃ ms raws, Forall₂ (fun m raw => op.Encodes raw m) ms raws ∧ raws.flatten = xs

/-- A loop that comes to the end of the stream has gone through a whole number of messages. -/
theorem fold_ended {read : Reader → Stream → Outcome α μ} {f : α → Message β} {step : σ → α → Except η (Flow σ)}
    (hop : ∀ r s, op.read r s = (read r s).mapValue f)
    (huncut : ∀ front rest, Whole op front → front ++ rest = whole → op = .frame → ¬ HeaderOnly r.maxLen rest)
    (hfront : Whole op front) (hbytes : front ++ remaining r s = whole)
    (h : fold read step n r s state = some (.ok (.ended final))) : Whole op whole := by
  induction n generalizing r s state front with
  | zero => cases h
  | succ n ih =>
    unfold fold at h
    split at h
    · next s' hread =>
      have hend : op.read r s = (.error .endOfStream, s') := by
        rw [hop, hread]
        rfl
      obtain ⟨rfl, hbuffered⟩ := read_endOfStream (fun hframe _ => huncut front _ hfront hbytes hframe) hend
      have hnil : remaining r [] = [] := by
        unfold remaining
        rw [hbuffered]
        rfl
      rwa [← hbytes, hnil, append_nil]
    · cases h
    · next message next s' hread =>
      split at h
      · cases h
      · have hok : op.read r s = (.ok (f message, next), s') := by
          rw [hop, hread]
          rfl
        obtain ⟨raw, hraw, hleft, hmax⟩ := read_ok hok
        obtain ⟨ms, raws, hraws, hflatten⟩ := hfront
        have hfront' : Whole op (front ++ raw) := by
          refine ⟨ms ++ [f message], raws ++ [raw], rel_append hraws (.cons hraw .nil), ?_⟩
          simp [hflatten]
        rw [← hmax] at huncut
        refine ih huncut hfront' ?_ h
        rw [append_assoc, hleft, hbytes]
      · cases h

/-- **Framing reports a clean finish only between messages.** In every sequence of reads by a fresh reader in
which no frame is read where just its header is left: a read that fails with `EndOfStream` does so at the end of
the stream, with every byte returned as part of a message. So a loop over lines, or over the frames of a stream
that is not cut right after a header, finishes by itself only on a whole number of messages. -/
theorem endOfStream_between_messages (maxLen timeoutNs : ℕ) (s : Stream) :
    (∀ (x : Session β μ) (op : Op β μ) (s' : Stream),
      Transition.ReachableBy (reading maxLen timeoutNs s) Uncut x → Uncut x op →
      op.read x.reader x.stream = (.error .endOfStream, s') →
      x.stream = [] ∧ ∃ raws, List.Forall₂ (fun m raw => m.1.Encodes raw m.2) x.messages raws ∧
        raws.flatten = bytes s) ∧ (∀ (σ η : Type) (step : σ → String → Except η (Flow σ)) (n : ℕ) (state final : σ),
      fold (readLine : _ → _ → Outcome _ μ) step n ⟨[], maxLen, timeoutNs⟩ s state =
        some (.ok (.ended final)) → Whole (.line : Op β μ) (bytes s)) ∧
    ∀ (σ η : Type) (step : σ → List UInt8 → Except η (Flow σ)) (n : ℕ) (state final : σ),
      (∀ front rest, Whole (.frame : Op β μ) front → front ++ rest = bytes s → ¬ HeaderOnly maxLen rest) →
      fold (readFrame : _ → _ → Outcome _ μ) step n ⟨[], maxLen, timeoutNs⟩ s state =
        some (.ok (.ended final)) → Whole (.frame : Op β μ) (bytes s) := by
  have hnone : ∀ op : Op β μ, Whole op [] := fun op => ⟨[], [], .nil, rfl⟩
  refine ⟨fun x op s' hreach huncut hread => ?_, fun σ η step n state final h => ?_,
    fun σ η step n state final huncut h => ?_⟩
  · have hacc : Accounts s x := by
      apply Transition.ReachableBy.invariant (I := fun y => Accounts s y) _ _ hreach
      · rintro y rfl
        exact ⟨[], .nil, rfl⟩
      · intro y op y' _ hy hstep
        exact accounts_step hy hstep
    obtain ⟨raws, hraws, hbytes⟩ := hacc
    obtain ⟨hstream, hbuffered⟩ := read_endOfStream huncut hread
    refine ⟨hstream, raws, hraws, ?_⟩
    rw [← hbytes]
    unfold remaining
    rw [hstream, hbuffered]
    simp [bytes, segments]
  · refine fold_ended (fun _ _ => rfl) ?_ (hnone .line) rfl h
    intro front rest _ _ hframe
    cases hframe
  · exact fold_ended (fun _ _ => rfl) (fun front rest hfront hrest _ => huncut front rest hfront hrest)
      (hnone .frame) rfl h

/-- A frame of two bytes, in two reads. -/
def twoByteFrame : Stream :=
  [.data ⟨[0, 0, 0], by decide, by decide⟩ 1, .data ⟨[2, 8, 9], by decide, by decide⟩ 2]

/-- The reads of a stream of one frame: the frame, and the end. -/
theorem endOfStream_between_messages_oneFrame :
    ∃ x : Session Unit Unit, Transition.ReachableBy (reading 10 0 twoByteFrame) Uncut x ∧
      x.stream = [] ∧ ∃ raws, List.Forall₂ (fun m raw => m.1.Encodes raw m.2) x.messages raws ∧
        raws.flatten = bytes twoByteFrame := by
  have huncut : Uncut (⟨⟨[], 10, 0⟩, twoByteFrame, []⟩ : Session Unit Unit) .frame := by
    rintro - - ⟨len, hlen, -⟩
    exact absurd (length_of_takeLength hlen) (by decide)
  have hlength : takeLength [0, 0, 0, 2] = some (2, []) := takeLength_eq_some_iff.mpr ⟨2, rfl, rfl⟩
  have hreach : Transition.ReachableBy (reading 10 0 twoByteFrame) Uncut
      (⟨⟨[], 10, 0⟩, [], [(.frame, .bytes [8, 9])]⟩ : Session Unit Unit) :=
    .next (.start rfl) huncut (by
      simp [reading, Session.step, Op.read, Outcome.mapValue, readFrame, takeExactly, readLoop,
        twoByteFrame, exactlyAnswer, hlength, outOfTime])
  refine ⟨_, hreach, (endOfStream_between_messages 10 0 twoByteFrame).1 _ .frame [] hreach ?_ rfl⟩
  rintro - - ⟨len, hlen, -⟩
  cases hlen

/-- A stream that is just the header of a frame of ten bytes. -/
def headerOfTen : Stream := [.data ⟨[0, 0, 0, 10], by decide, by decide⟩ 1]

/-- A stream that ends right after a frame's header finishes cleanly, though it is not a whole number of
frames. -/
theorem frame_cut_after_header : (readFrame reader headerOfTen : Outcome _ Unit) = (.error .endOfStream, []) ∧
      (each readFrame (fun _ => (.ok true : Except Unit Bool)) 1 reader headerOfTen :
        Option (Except (ReadErr Unit ⊕ Unit) (Finish Unit))) = some (.ok (.ended ())) ∧
      ¬ Whole (.frame : Op Unit Unit) (bytes headerOfTen) := by
  have hlength : takeLength [0, 0, 0, 10] = some (10, []) := takeLength_eq_some_iff.mpr ⟨10, rfl, rfl⟩
  have hread : (readFrame reader headerOfTen : Outcome _ Unit) = (.error .endOfStream, []) := by
    simp [readFrame, takeExactly, readLoop, headerOfTen, exactlyAnswer, hlength, outOfTime, reader,
      readerWithMax, atEnd]
  refine ⟨hread, by simp [each, fold, hread], ?_⟩
  rintro ⟨ms, raws, hraws, hflatten⟩
  cases hraws with
  | nil => cases hflatten
  | cons hraw hrest =>
    obtain ⟨header, payload, rfl, hheader, -⟩ := hraw
    -- the frame starts with the four bytes there are, and its payload is missing
    rw [flatten_cons, append_assoc] at hflatten
    have hsplit := append_inj (hflatten.trans (append_nil _).symm) (length_of_takeLength hheader)
    rw [hsplit.1, (append_eq_nil_iff.mp hsplit.2).1] at hheader
    cases hlength.symm.trans hheader

end RocNet.Framing
