import RocNet.Analysis.FramingEnds

/-!
# Polls of a reader

A poll answers `NotReady` where the buffer has no whole message and the stream brings nothing now. Within the reader's
limit, the blocking read could not have answered from the buffer either; beyond it, it answers `TooLong`.
-/

namespace RocNet.Framing

open List Incremental

variable {α β γ μ : Type} {r : Reader} {s s' : Stream} {messageStart : Bool}
  {answer : ℕ → List UInt8 → Answer β (ReadErr μ)} {buffered : List UInt8} {searched : ℕ}

/-! ## Reads that ask the stream -/

/-- The read takes something from every stream that brings something, and fails as the stream does. -/
structure Asks (read : Stream → Outcome β μ) : Prop where
  takes : ∀ a rest, (read (a :: rest)).2 <:+ rest
  fails : ∀ err rest, err.err ≠ .timedOut → read (.failed err :: rest) = (.error (.stream err), rest)

/-- A read that asks the stream has no result that it would give on every stream. -/
theorem Asks.undecided {read : Stream → Outcome β μ} (h : Asks read)
    (result : Except (ReadErr μ) (β × Reader)) : ∃ s, (read s).1 ≠ result := by
  by_contra hsame
  push Not at hsame
  have hzero := h.fails ⟨.tcp, .other 0⟩ [] (by decide)
  have hone := h.fails ⟨.tcp, .other 1⟩ [] (by decide)
  have heq := (hsame [.failed ⟨.tcp, .other 0⟩]).trans (hsame [.failed ⟨.tcp, .other 1⟩]).symm
  rw [hzero, hone] at heq
  cases heq

lemma readLoop_suffix : (readLoop r messageStart answer s buffered searched).2 <:+ s := by
  induction s generalizing buffered searched with
  | nil =>
    unfold readLoop
    cases answer searched buffered with
    | done value used | fail e | more => exact suffix_refl _
  | cons a s ih =>
    unfold readLoop
    cases answer searched buffered with
    | done value used | fail e => exact suffix_refl _
    | more =>
      cases a with
      | failed err => exact suffix_cons _ _
      | data segment elapsed =>
        dsimp only
        split
        · exact suffix_cons _ _
        · exact ih.trans (suffix_cons _ _)

lemma timedOut_eq_false (h : err.err ≠ .timedOut) : timedOut err = false := by
  obtain ⟨family, err⟩ := err
  cases err with
  | timedOut => exact absurd rfl h
  | other code => cases family <;> rfl

lemma readLoop_asks (hmore : answer searched buffered = .more) :
    Asks fun s => readLoop r messageStart answer s buffered searched where
  takes a rest := by
    unfold readLoop
    rw [hmore]
    cases a with
    | failed err => exact suffix_refl _
    | data segment elapsed =>
      dsimp only
      split
      · exact suffix_refl _
      · exact readLoop_suffix
  fails err rest herr := by
    unfold readLoop
    rw [hmore]
    simp only [onError, timedOut_eq_false herr, Bool.and_false]
    rfl

/-- A read whose first part asks the stream: it fails as that does, or goes on from there. -/
theorem Asks.of_first {first : Stream → Outcome α μ} {read : Stream → Outcome β μ} (h : Asks first)
    (herror : ∀ s e s', first s = (.error e, s') → read s = (.error e, s'))
    (hok : ∀ s v s', first s = (.ok v, s') → (read s).2 <:+ s') : Asks read where
  takes a rest := by
    have hrest := h.takes a rest
    cases hfirst : first (a :: rest) with
    | mk result s' =>
      rw [hfirst] at hrest
      cases result with
      | error e =>
        rw [herror _ e s' hfirst]
        exact hrest
      | ok v => exact (hok _ v s' hfirst).trans hrest
  fails err rest herr := herror _ _ _ (h.fails err rest herr)

lemma Asks.mapValue {read : Stream → Outcome α μ} (h : Asks read) (f : α → γ) :
    Asks fun s => (read s).mapValue f := by
  refine h.of_first (fun s e s' hread => ?_) fun s v s' hread => ?_
  · rw [hread]
    rfl
  · rw [hread]
    exact suffix_refl _

lemma readLine_asks (h : Asks fun s => (readUntil r 10 s : Outcome _ μ)) :
    Asks fun s => (readLine r s : Outcome _ μ) := by
  refine h.of_first (fun s e s' hread => ?_) fun s v s' hread => ?_
  · simp only [readLine, hread]
  · simp only [readLine, hread]
    split <;> exact suffix_refl _

/-! ## Frames in the buffer -/

lemma announced_eq (b : List UInt8) : announced b = (takeLength b).map Prod.fst := by
  unfold announced takeLength
  rw [Bytes.u32BeAt, Bytes.u32Be_codec.takeAt_eq, UInt64.toNat_zero, drop_zero]
  cases Bytes.takeU32Be b <;> rfl

lemma takeLength_take (h : takeLength b = some (len, rest)) :
    takeLength (b.take 4) = some (len, []) ∧ b.drop 4 = rest ∧ 4 ≤ b.length := by
  obtain ⟨n, hn, rfl⟩ := takeLength_eq_some_iff.mp h
  have hlen : (Bytes.u32Be n).length = 4 := rfl
  refine ⟨takeLength_eq_some_iff.mpr ⟨n, hn, ?_⟩, drop_left' hlen, ?_⟩
  · rw [take_left' hlen, append_nil]
  · rw [length_append]
    omega

/-- A frame whose header is buffered fails at once, or waits for its payload. -/
theorem readFrame_of_buffered {len : ℕ} {tail : List UInt8} (htake : takeLength r.buffered = some (len, tail))
    (s : Stream) : (readFrame r s : Outcome _ μ) = if len > r.maxLen then (.error .tooLong, s) else
      readLoop { r with buffered := r.buffered.drop 4 } false (exactlyAnswer len) s (r.buffered.drop 4) 0 := by
  obtain ⟨hheader, -, hlen⟩ := takeLength_take htake
  have hfirst : (takeExactly r 4 true s : Outcome _ μ) =
      (.ok (r.buffered.take 4, { r with buffered := r.buffered.drop 4 }), s) := by
    unfold takeExactly readLoop
    rw [exactlyAnswer, if_neg (Nat.not_lt.mpr hlen)]
  unfold readFrame
  rw [hfirst]
  simp only [hheader]
  rfl

/-- A buffer without a whole frame, of a length within the limit if it is there: the frame cannot be
read from the buffer. -/
theorem readFrame_asks (hcomplete : frameComplete r.buffered = false)
    (hwithin : ∀ len, announced r.buffered = some len → len ≤ r.maxLen) :
    Asks fun s => (readFrame r s : Outcome _ μ) := by
  unfold frameComplete at hcomplete
  rw [announced_eq] at hcomplete hwithin
  cases htake : takeLength r.buffered with
  | none =>
    have hmore : exactlyAnswer 4 0 r.buffered = (.more : Answer _ (ReadErr μ)) := if_pos (takeLength_eq_none_iff.mp htake)
    have hheader : Asks fun s => (takeExactly r 4 true s : Outcome _ μ) := readLoop_asks hmore
    refine hheader.of_first (fun s e s' hread => ?_) fun s v s' hread => ?_
    · simp only [readFrame, hread]
    · simp only [readFrame, hread]
      split
      · exact suffix_refl _
      · split
        · exact suffix_refl _
        · exact readLoop_suffix
  | some p =>
    obtain ⟨len, tail⟩ := p
    have hlen := (takeLength_take htake).2.2
    have hlong : ¬ len > r.maxLen := Nat.not_lt.mpr (hwithin len (by rw [htake]; rfl))
    have hpayload : (r.buffered.drop 4).length < len := by
      rw [htake, Option.map_some] at hcomplete
      have hshort := of_decide_eq_false hcomplete
      rw [length_drop]
      omega
    simp only [readFrame_of_buffered htake, if_neg hlong]
    exact readLoop_asks (if_pos hpayload)

/-! ## The polls -/

/-- The polls of a reader. -/
inductive Poll (β μ : Type)
  | line
  | frame
  | parsed (parse : List UInt8 → Parse β μ)

/-- The read that a poll stands for. -/
def Poll.op : Poll β μ → Op β μ
  | .line => .line
  | .frame => .frame
  | .parsed parse => .parsed parse

/-- The poll answers `NotReady`, and leaves this of the stream. -/
def Poll.NotReady (poll : Poll β μ) (r : Reader) (ready : Bool) (s s' : Stream) : Prop :=
  match poll with
  | .line => (tryReadLine r ready s : Polled _ μ) = (none, s')
  | .frame => (tryReadFrame r ready s : Polled _ μ) = (none, s')
  | .parsed parse => tryReadParsed r parse ready s = (none, s')

/-- What a poll looks for in the buffer before it asks the stream. -/
def Poll.complete : Poll β μ → List UInt8 → Bool
  | .line => fun buffered => buffered.contains 10
  | .frame => frameComplete
  | .parsed parse => parseComplete parse

/-- What is buffered is within the limit: the start of a line or message, or the length a frame announces. -/
def Poll.Within (poll : Poll β μ) (r : Reader) : Prop :=
  match poll with
  | .line | .parsed _ => r.buffered.length ≤ r.maxLen
  | .frame => ∀ len, announced r.buffered = some len → len ≤ r.maxLen

/-- A poll answers `NotReady` if the buffer is not complete and the stream has nothing now. -/
theorem tryReadWith_notReady {complete : List UInt8 → Bool} {read : Reader → Stream → Outcome β μ}
    (h : tryReadWith r complete read ready s = (none, s')) : complete r.buffered = false ∧ s' = s := by
  unfold tryReadWith at h
  split at h
  · cases h
  · next hcomplete =>
    refine ⟨by simpa using hcomplete, ?_⟩
    unfold tryRead at h
    cases ready with
    | false =>
      cases h
      rfl
    | true =>
      cases s with
      | nil => cases h
      | cons a rest =>
        cases a with
        | data segment elapsed | failed err => cases h

/-- A poll of a stream that has nothing now answers `NotReady` if the buffer is not complete. -/
theorem tryReadWith_of_incomplete {complete : List UInt8 → Bool} {read : Reader → Stream → Outcome β μ}
    (h : complete r.buffered = false) (s : Stream) : tryReadWith r complete read false s = (none, s) := by
  unfold tryReadWith tryRead
  simp [h]

lemma parsedAnswer_of_incomplete {parse : List UInt8 → Parse β μ} (h : parseComplete parse buffered = false) :
    parsedAnswer parse maxLen searched buffered = if buffered.length > maxLen then .fail .tooLong else .more := by
  unfold parseComplete at h
  unfold parsedAnswer
  cases hparse : parse buffered with
  | parsed value used | malformed e => simp [hparse] at h
  | needMore => rfl

section Incomplete

variable {poll : Poll β μ} (hcomplete : poll.complete r.buffered = false)

include hcomplete

/-- What a poll finds incomplete within the limit, the blocking read asks the stream for. -/
theorem read_asks (hwithin : poll.Within r) : Asks (poll.op.read r) := by
  cases poll with
  | line =>
    have hmem : (10 : UInt8) ∉ r.buffered := by simpa [Poll.complete] using hcomplete
    have hmore : untilAnswer 10 r.maxLen 0 r.buffered = (.more : Answer _ (ReadErr μ)) := by
      rw [untilAnswer_of_notMem hmem, if_neg (Nat.not_lt.mpr hwithin)]
    exact (readLine_asks (readLoop_asks hmore)).mapValue Message.text
  | frame => exact (readFrame_asks hcomplete hwithin).mapValue Message.bytes
  | parsed parse =>
    have hmore : parsedAnswer parse r.maxLen 0 r.buffered = .more := by
      rw [parsedAnswer_of_incomplete hcomplete, if_neg (Nat.not_lt.mpr hwithin)]
    exact (readLoop_asks hmore).mapValue Message.value

/-- Beyond the limit the blocking read has its answer, whatever the stream brings. -/
theorem read_tooLong (hbeyond : ¬ poll.Within r) (s : Stream) : (poll.op.read r s).1 = .error .tooLong := by
  cases poll with
  | line =>
    have hmem : (10 : UInt8) ∉ r.buffered := by simpa [Poll.complete] using hcomplete
    have hread : (readLine r s : Outcome _ μ) = (.error .tooLong, s) := by
      unfold readLine readUntil readLoop
      rw [untilAnswer_of_notMem hmem, if_pos (Nat.not_le.mp hbeyond)]
    simp only [Poll.op, Op.read, hread, Outcome.mapValue]
  | frame =>
    obtain ⟨len, hlen, hlong⟩ : ∃ len, announced r.buffered = some len ∧ r.maxLen < len := by
      simpa [Poll.Within] using hbeyond
    rw [announced_eq] at hlen
    obtain ⟨⟨len, tail⟩, htake, rfl⟩ := Option.map_eq_some_iff.mp hlen
    simp only [Poll.op, Op.read, readFrame_of_buffered htake, if_pos hlong, Outcome.mapValue]
  | parsed parse =>
    have hread : readParsed r parse s = (.error .tooLong, s) := by
      unfold readParsed readLoop
      rw [parsedAnswer_of_incomplete hcomplete, if_pos (Nat.not_le.mp hbeyond)]
    simp only [Poll.op, Op.read, hread, Outcome.mapValue]

end Incomplete

/-- **When a poll does not sleep on an answer**: exactly if the buffer is complete or within the reader's limit. Then a
poll that answers `NotReady` takes nothing, and the blocking read on the same reader would have to ask the stream: it
has no result that does not depend on what the stream brings. -/
theorem notReady_asks_iff (poll : Poll β μ) (r : Reader) :
    (∀ ready s s', poll.NotReady r ready s s' →
      s' = s ∧ Asks (poll.op.read r) ∧ ∀ result, ∃ s'', (poll.op.read r s'').1 ≠ result) ↔
      poll.complete r.buffered = true ∨ poll.Within r := by
  constructor
  · intro hasks
    by_contra hneither
    obtain ⟨hcomplete, hbeyond⟩ := not_or.mp hneither
    have hcomplete := Bool.eq_false_iff.mpr hcomplete
    have hnot : poll.NotReady r false [] [] := by
      cases poll with
      | line | frame | parsed parse => exact tryReadWith_of_incomplete hcomplete []
    obtain ⟨s, hs⟩ := (hasks false [] [] hnot).2.2 (.error .tooLong)
    exact hs (read_tooLong hcomplete hbeyond s)
  · intro hwithin ready s s' hnot
    obtain ⟨hcomplete, hs⟩ : poll.complete r.buffered = false ∧ s' = s := by
      cases poll with
      | line | frame | parsed parse => exact tryReadWith_notReady hnot
    have hasks := read_asks hcomplete (hwithin.resolve_left (Bool.eq_false_iff.mp hcomplete))
    exact ⟨hs, hasks, hasks.undecided⟩

/-- A line of one byte, and the start of one that is too long, in one read. -/
def lineAndLonger : Stream := [.data ⟨[97, 10, 98, 99, 100, 101, 102], by decide, by decide⟩ 1]

/-- A frame of one byte, and the header of one that is too long, in one read. -/
def frameAndLonger : Stream := [.data ⟨[0, 0, 0, 1, 97, 0, 0, 0, 9], by decide, by decide⟩ 1]

/-- A reader of messages of up to 3 bytes reads a line, and keeps five bytes of the next; another reads a frame,
and keeps the header of one of nine. Both polls are `NotReady`, and both blocking reads fail with `TooLong` on
every stream. -/
theorem notReady_but_tooLong : (readLine ⟨[], 3, 0⟩ lineAndLonger : Outcome _ Unit) =
        (.ok ("a", ⟨[98, 99, 100, 101, 102], 3, 0⟩), []) ∧
      (Poll.line : Poll Unit Unit).NotReady ⟨[98, 99, 100, 101, 102], 3, 0⟩ false [] [] ∧
      (∀ s, (readLine ⟨[98, 99, 100, 101, 102], 3, 0⟩ s : Outcome _ Unit) = (.error .tooLong, s)) ∧
      (readFrame ⟨[], 3, 0⟩ frameAndLonger : Outcome _ Unit) = (.ok ([97], ⟨[0, 0, 0, 9], 3, 0⟩), []) ∧
      (Poll.frame : Poll Unit Unit).NotReady ⟨[0, 0, 0, 9], 3, 0⟩ false [] [] ∧
      ∀ s, (readFrame ⟨[0, 0, 0, 9], 3, 0⟩ s : Outcome _ Unit) = (.error .tooLong, s) := by
  have hline : lineOf [97] = some "a" := by decide
  have hone : takeLength [0, 0, 0, 1] = some (1, []) := takeLength_eq_some_iff.mpr ⟨1, rfl, rfl⟩
  have hnine : takeLength [0, 0, 0, 9] = some (9, []) := takeLength_eq_some_iff.mpr ⟨9, rfl, rfl⟩
  refine ⟨?_, rfl, fun s => ?_, ?_, ?_, fun s => ?_⟩
  · simp [readLine, readUntil, readLoop, lineAndLonger, untilAnswer, outOfTime, findIdx?_cons, hline]
  · unfold readLine readUntil readLoop
    simp [untilAnswer, findIdx?_cons]
  · simp [readFrame, takeExactly, readLoop, frameAndLonger, exactlyAnswer, hone, outOfTime]
  · simp [Poll.NotReady, tryReadFrame, tryReadWith, frameComplete, announced_eq, hnine, tryRead]
  · unfold readFrame takeExactly readLoop
    simp [exactlyAnswer, hnine]

end RocNet.Framing
