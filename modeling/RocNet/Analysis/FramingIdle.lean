import RocNet.Analysis.FramingEnds

/-!
# Idle readers

A read fails with `Idle` when the first `read_append!` for a message times out, on streams whose timeouts `timed_out`
knows (not Noise). Apart from that, a read gives what it gives on the stream without timeouts.
-/

namespace RocNet.Framing

open List Option Incremental Transition

variable {α β γ μ : Type} {r next : Reader} {s s' : Stream} {messageStart : Bool}
  {answer : ℕ → List UInt8 → Answer β (ReadErr μ)} {buffered : List UInt8} {searched : ℕ}

/-! ## Where reads are idle -/

/-- With nothing buffered, the read asks the stream for bytes. -/
def Op.Wants (op : Op β μ) (maxLen : ℕ) : Prop :=
  match op with
  | .line | .record _ | .frame => True
  | .parsed parse => parse [] = .needMore
  | .exactly count => 0 < count ∧ count ≤ maxLen

/-- The next call of `read_append!`, the first one for a message, times out. -/
def TimesOutBetween (op : Op β μ) (r : Reader) (s s' : Stream) : Prop :=
  r.buffered = [] ∧ op.Wants r.maxLen ∧ ∃ err, s = .failed err :: s' ∧ err.err = .timedOut

def NotNoise (s : Stream) : Prop := ∀ err, Arrival.failed err ∈ s → err.family ≠ .noise

variable {err : StreamErr} {maxLen count : ℕ}

lemma timedOut_iff : timedOut err ↔ err.family ≠ .noise ∧ err.err = .timedOut := by
  obtain ⟨family, err⟩ := err
  cases family <;> cases err <;> simp [timedOut]

lemma untilAnswer_nil (d : UInt8) (maxLen : ℕ) : untilAnswer d maxLen 0 [] = (.more : Answer _ (ReadErr μ)) := by
  simp [untilAnswer]

lemma parsedAnswer_nil {parse : List UInt8 → Parse β μ} :
    parsedAnswer parse maxLen 0 [] = .more ↔ parse [] = .needMore := by
  unfold parsedAnswer
  cases parse [] with
  | parsed value used =>
    dsimp only
    split
    · simp
    · simp
  | needMore | malformed e => simp

lemma exactlyAnswer_nil : exactlyAnswer count 0 [] = (.more : Answer _ (ReadErr μ)) ↔ 0 < count := by
  unfold exactlyAnswer
  split
  · next h => exact iff_of_true rfl h
  · next h => exact iff_of_false (by simp) h

variable {e : ReadErr μ}

lemma mapValue_error_iff {f : α → γ} {x : Outcome α μ} : x.mapValue f = (.error e, s') ↔ x = (.error e, s') :=
  ⟨mapValue_error, fun h => by rw [h]; rfl⟩

lemma readLine_idle_iff : (readLine r s : Outcome _ μ) = (.error (.idle next), s') ↔
      (readUntil r 10 s : Outcome _ μ) = (.error (.idle next), s') := by
  unfold readLine
  split
  · next e s'' hread => rw [hread, Prod.mk.injEq, Prod.mk.injEq, Except.error.injEq, Except.error.injEq]
  · next record next' s'' hread =>
    rw [hread]
    split <;> simp

lemma readFrame_idle_iff : (readFrame r s : Outcome _ μ) = (.error (.idle next), s') ↔
      (takeExactly r 4 true s : Outcome _ μ) = (.error (.idle next), s') := by
  constructor
  · intro h
    rcases readFrame_cases h with ⟨e, hheader, hresult⟩ | ⟨_, _, _, len, -, -, -, -, hread⟩
    · cases hresult
      exact hheader
    · rcases hread with hresult | ⟨-, hread⟩
      · cases hresult
      · cases (readLoop_idle (fun _ _ _ => exactlyAnswer_refusal) hread).1
  · intro h
    unfold readFrame
    rw [h]

variable {op : Op β μ}

/-- **A read is idle where a message's first `read_append!` times out**, if `timed_out` knows the
timeouts of the stream. -/
theorem read_idle_iff : op.read r s = (.error (.idle next), s') ↔
      next = r ∧ TimesOutBetween op r s s' ∧ ∀ err, s = .failed err :: s' → err.family ≠ .noise := by
  -- each read is idle where its loop is, and that has a condition of the same shape
  have hshape : ∀ {p : Prop}, (op.Wants r.maxLen ↔ p) →
      ((true = true ∧ r.buffered = [] ∧ p ∧ next = { r with buffered := [] } ∧
        ∃ err, s = .failed err :: s' ∧ timedOut err = true) ↔
      next = r ∧ TimesOutBetween op r s s' ∧ ∀ err, s = .failed err :: s' → err.family ≠ .noise) := by
    intro p hp
    constructor
    · rintro ⟨-, hbuffered, hwants, rfl, err, rfl, htime⟩
      obtain ⟨hfamily, herr⟩ := timedOut_iff.mp htime
      refine ⟨?_, ⟨hbuffered, hp.mpr hwants, err, rfl, herr⟩, ?_⟩
      · rw [← hbuffered]
      · intro err' heq
        cases heq
        exact hfamily
    · rintro ⟨rfl, ⟨hbuffered, hwants, err, rfl, herr⟩, hfamily⟩
      refine ⟨rfl, hbuffered, hp.mp hwants, ?_, err, rfl, timedOut_iff.mpr ⟨hfamily err rfl, herr⟩⟩
      rw [← hbuffered]
  cases op with
  | line =>
    refine mapValue_error_iff.trans (readLine_idle_iff.trans ?_)
    refine (readLoop_idle_iff fun _ _ _ => untilAnswer_refusal).trans (hshape ?_)
    exact iff_of_true trivial (untilAnswer_nil 10 r.maxLen)
  | record d =>
    refine mapValue_error_iff.trans ?_
    refine (readLoop_idle_iff fun _ _ _ => untilAnswer_refusal).trans (hshape ?_)
    exact iff_of_true trivial (untilAnswer_nil d r.maxLen)
  | parsed parse =>
    refine mapValue_error_iff.trans ?_
    refine (readLoop_idle_iff fun _ _ _ => parsedAnswer_refusal).trans (hshape ?_)
    exact parsedAnswer_nil.symm
  | exactly count =>
    refine mapValue_error_iff.trans ?_
    unfold readExactly
    split
    · next hlong =>
      refine iff_of_false (by simp) ?_
      rintro ⟨-, ⟨-, hwants, -⟩, -⟩
      exact absurd hwants.2 (Nat.not_le.mpr hlong)
    · next hshort =>
      refine (readLoop_idle_iff fun _ _ _ => exactlyAnswer_refusal).trans (hshape ?_)
      rw [exactlyAnswer_nil]
      exact and_iff_left (Nat.le_of_not_lt hshort)
  | frame =>
    refine mapValue_error_iff.trans (readFrame_idle_iff.trans ?_)
    refine (readLoop_idle_iff fun _ _ _ => exactlyAnswer_refusal).trans (hshape ?_)
    exact iff_of_true trivial (exactlyAnswer_nil.mpr (by decide))

/-! ## The stream without its timeouts -/

def Arrival.isTimeout : Arrival → Bool
  | .data _ _ => false
  | .failed err => decide (err.err = .timedOut)

/-- The same stream, had no read of it timed out. -/
def untimed (s : Stream) : Stream := s.filter fun a => !a.isTimeout

/-- The read failed because a read of the stream timed out. -/
def ReadErr.isTimeout : ReadErr μ → Bool
  | .idle _ => true
  | .stream err => decide (err.err = .timedOut)
  | _ => false

def TimedOut (result : Except (ReadErr μ) (β × Reader)) : Prop :=
  ∃ e, result = .error e ∧ e.isTimeout = true

/-- A read that does not time out gives the same without the timeouts that come after it. -/
def IgnoresTimeouts (read : Reader → Stream → Outcome β μ) : Prop :=
  ∀ (r : Reader) (s s' : Stream) (result : Except (ReadErr μ) (β × Reader)),
    read r s = (result, s') → ¬ TimedOut result → read r (untimed s) = (result, untimed s')

@[simp]
lemma untimed_data (segment : Segment) (elapsed : ℕ) (s : Stream) :
    untimed (.data segment elapsed :: s) = .data segment elapsed :: untimed s := rfl

lemma untimed_timeout (h : err.err = .timedOut) (s : Stream) : untimed (.failed err :: s) = untimed s := by
  simp [untimed, Arrival.isTimeout, h]

lemma untimed_failed (h : err.err ≠ .timedOut) (s : Stream) :
    untimed (.failed err :: s) = .failed err :: untimed s := by
  simp [untimed, Arrival.isTimeout, h]

lemma readLoop_untimed (h : readLoop r messageStart answer s buffered searched = (result, s'))
    (hresult : ¬ TimedOut result) :
    readLoop r messageStart answer (untimed s) buffered searched = (result, untimed s') := by
  induction s generalizing buffered searched with
  | nil =>
    unfold readLoop at h ⊢
    cases hanswer : answer searched buffered with
    | done value used | fail e | more =>
      simp only [hanswer] at h
      cases h
      rfl
  | cons a s ih =>
    unfold readLoop at h ⊢
    cases hanswer : answer searched buffered with
    | done value used | fail e =>
      simp only [hanswer] at h
      cases h
      rfl
    | more =>
      simp only [hanswer] at h
      cases a with
      | failed err =>
        cases h
        have herr : err.err ≠ .timedOut := by
          intro heq
          refine hresult ⟨_, rfl, ?_⟩
          unfold onError
          split
          · rfl
          · simp [ReadErr.isTimeout, heq]
        rw [untimed_failed herr]
      | data segment elapsed =>
        rw [untimed_data]
        dsimp only at h ⊢
        split at h
        · next htime =>
          cases h
          rw [if_pos htime]
        · next htime =>
          rw [if_neg htime]
          exact ih h

variable {result : Except (ReadErr μ) (List UInt8 × Reader)}

lemma takeExactly_untimed (h : takeExactly r count messageStart s = (result, s')) (hresult : ¬ TimedOut result) :
    takeExactly r count messageStart (untimed s) = (result, untimed s') :=
  readLoop_untimed h hresult

lemma readUntil_untimed (h : readUntil r d s = (result, s')) (hresult : ¬ TimedOut result) :
    readUntil r d (untimed s) = (result, untimed s') :=
  readLoop_untimed h hresult

lemma not_timedOut_ok (value : β × Reader) : ¬ TimedOut (.ok value : Except (ReadErr μ) _) := by
  rintro ⟨e, h, -⟩
  cases h

lemma timedOut_error_iff :
    TimedOut (.error e : Except _ (α × Reader)) ↔ TimedOut (.error e : Except _ (γ × Reader)) := by
  constructor
  · rintro ⟨e, h, he⟩
    cases h
    exact ⟨e, rfl, he⟩
  · rintro ⟨e, h, he⟩
    cases h
    exact ⟨e, rfl, he⟩

lemma readLine_untimed : IgnoresTimeouts (readLine : _ → _ → Outcome _ μ) := by
  intro r s s' result h hresult
  unfold readLine at h ⊢
  cases hread : (readUntil r 10 s : Outcome _ μ) with
  | mk first s'' =>
    rw [hread] at h
    cases first with
    | error e =>
      cases h
      rw [readUntil_untimed hread (mt timedOut_error_iff.mpr hresult)]
    | ok p =>
      obtain ⟨record, next⟩ := p
      rw [readUntil_untimed hread (not_timedOut_ok _)]
      dsimp only at h ⊢
      split at h
      · cases h
        rfl
      · cases h
        rfl

lemma readFrame_untimed : IgnoresTimeouts (readFrame : _ → _ → Outcome _ μ) := by
  intro r s s' result h hresult
  unfold readFrame at h ⊢
  cases hheader : (takeExactly r 4 true s : Outcome _ μ) with
  | mk first s'' =>
    rw [hheader] at h
    cases first with
    | error e =>
      cases h
      rw [takeExactly_untimed hheader hresult]
    | ok p =>
      obtain ⟨header, afterHeader⟩ := p
      rw [takeExactly_untimed hheader (not_timedOut_ok _)]
      dsimp only at h ⊢
      split at h
      · cases h
        rfl
      · split at h
        · next hlong =>
          cases h
          rw [if_pos hlong]
        · next hshort =>
          rw [if_neg hshort]
          exact takeExactly_untimed h hresult

lemma mapValue_untimed (f : α → γ) (read : Reader → Stream → Outcome α μ)
    (h : IgnoresTimeouts read) : IgnoresTimeouts fun r s => (read r s).mapValue f := by
  intro r s s' result hread hresult
  dsimp only [Outcome.mapValue] at hread ⊢
  cases hinner : read r s with
  | mk first s'' =>
    rw [hinner] at hread
    cases first with
    | error e =>
      cases hread
      rw [h _ _ _ _ hinner (mt timedOut_error_iff.mpr hresult)]
    | ok p =>
      obtain ⟨value, next⟩ := p
      cases hread
      rw [h _ _ _ _ hinner (not_timedOut_ok _)]

/-- **A read that does not time out does not depend on the timeouts of its stream.** -/
theorem read_untimed (op : Op β μ) : IgnoresTimeouts op.read := by
  cases op with
  | line => exact mapValue_untimed Message.text _ readLine_untimed
  | record d =>
    exact mapValue_untimed Message.bytes (fun r s => readUntil r d s) fun _ _ _ _ => readUntil_untimed
  | parsed parse =>
    exact mapValue_untimed Message.value (fun r s => readParsed r parse s) fun _ _ _ _ => readLoop_untimed
  | exactly count =>
    refine mapValue_untimed Message.bytes (fun r s => readExactly r count s) ?_
    intro r s s' result h hresult
    dsimp only [readExactly] at h ⊢
    split at h
    · next hlong =>
      cases h
      rw [if_pos hlong]
    · next hshort =>
      rw [if_neg hshort]
      exact takeExactly_untimed h hresult
  | frame => exact mapValue_untimed Message.bytes _ readFrame_untimed

/-! ## Sequences of reads -/

lemma untimed_of_idle (h : op.read r s = (.error (.idle next), s')) : next = r ∧ untimed s' = untimed s := by
  obtain ⟨rfl, ⟨-, -, err, rfl, herr⟩, -⟩ := read_idle_iff.mp h
  exact ⟨rfl, (untimed_timeout herr s').symm⟩

/-- What a session would be on the stream without its timeouts. -/
def Session.untimed (x : Session β μ) : Session β μ := ⟨x.reader, Framing.untimed x.stream, x.messages⟩

variable {x x' : Session β μ}

/-- A step of a session is a read of the stream without its timeouts, or an idle one. -/
theorem untimed_step (h : x.step op = some x') :
    (∃ m, x'.messages = x.messages ++ [(op, m)] ∧ x.untimed.step op = some x'.untimed) ∨
      x'.messages = x.messages ∧ x'.untimed = x.untimed := by
  unfold Session.step at h
  split at h
  · next m next s hread =>
    cases h
    refine .inl ⟨m, rfl, ?_⟩
    have huntimed := read_untimed op _ _ _ _ hread (not_timedOut_ok _)
    unfold Session.step Session.untimed
    simp only [huntimed]
  · next next s hread =>
    cases h
    obtain ⟨rfl, hs⟩ := untimed_of_idle hread
    refine .inr ⟨rfl, ?_⟩
    simp only [Session.untimed, hs]
  · cases h

/-- The reads of a session that returned messages, without the idle ones, are a session on the stream
without its timeouts. -/
theorem untimed_run (h : run (reading maxLen timeoutNs s₀) x ops = some x') : ∃ ms, x'.messages = x.messages ++ ms ∧
      run (reading maxLen timeoutNs (untimed s₀)) x.untimed (ms.map Prod.fst) = some x'.untimed := by
  induction ops generalizing x with
  | nil =>
    cases h
    exact ⟨[], (append_nil _).symm, rfl⟩
  | cons op ops ih =>
    obtain ⟨y, hstep, hrest⟩ := bind_eq_some_iff.mp h
    obtain ⟨ms, hms, hrun⟩ := ih hrest
    rcases untimed_step hstep with ⟨m, hy, hstep'⟩ | ⟨hy, hsame⟩
    · refine ⟨(op, m) :: ms, by rw [hms, hy, append_assoc]; rfl, ?_⟩
      exact bind_eq_some_iff.mpr ⟨_, hstep', hrun⟩
    · rw [hy] at hms
      rw [hsame] at hrun
      exact ⟨ms, hms, hrun⟩

/-- **Idle means that nothing was lost**, on streams that are not Noise streams. A read fails with `Idle`
exactly when the first call of `read_append!` for its message times out, and gives back the same reader; never
after a byte of the message was received. After any sequence of reads, the messages and the reader are those of
the reads that were not idle on the stream without its timeouts; and there the next read gives what it gives
here, unless it times out. -/
theorem idle_loses_nothing (maxLen timeoutNs : ℕ) (s : Stream) (hstream : NotNoise s) :
    (∀ (op : Op β μ) (r next : Reader) (s' : Stream),
      op.read r s = (.error (.idle next), s') ↔ next = r ∧ TimesOutBetween op r s s') ∧
    (∀ (op : Op β μ) (r next : Reader) (s' : Stream),
      (r.buffered ≠ [] ∨ ∃ segment elapsed rest, s = .data segment elapsed :: rest) →
        op.read r s ≠ (.error (.idle next), s')) ∧ ∀ (ops : List (Op β μ)) (x : Session β μ),
      Transition.run (reading maxLen timeoutNs s) ⟨⟨[], maxLen, timeoutNs⟩, s, []⟩ ops = some x →
      Transition.run (reading maxLen timeoutNs (untimed s)) ⟨⟨[], maxLen, timeoutNs⟩, untimed s, []⟩
          (x.messages.map Prod.fst) = some ⟨x.reader, untimed x.stream, x.messages⟩ ∧
        ∀ (op : Op β μ) (s' : Stream) (result : Except (ReadErr μ) (Message β × Reader)),
          op.read x.reader x.stream = (result, s') → ¬ TimedOut result →
            op.read x.reader (untimed x.stream) = (result, untimed s') := by
  have hidle : ∀ (op : Op β μ) (r next : Reader) (s' : Stream),
      op.read r s = (.error (.idle next), s') ↔ next = r ∧ TimesOutBetween op r s s' := by
    intro op r next s'
    rw [read_idle_iff]
    refine and_congr_right fun _ => and_iff_left ?_
    rintro err rfl
    exact hstream err mem_cons_self
  refine ⟨hidle, ?_, ?_⟩
  · intro op r next s' hreceived hread
    obtain ⟨-, hbuffered, -, err, herr, -⟩ := (hidle op r next s').mp hread
    rcases hreceived with hbytes | ⟨segment, elapsed, rest, hdata⟩
    · exact hbytes hbuffered
    · rw [herr] at hdata
      cases hdata
  · intro ops x hrun
    obtain ⟨ms, hms, huntimed⟩ := untimed_run hrun
    rw [nil_append] at hms
    subst hms
    exact ⟨huntimed, fun op s' result => read_untimed op x.reader x.stream s' result⟩

/-- A line in two chunks, and timeouts before and after it. -/
def lineBetweenTimeouts (family : Family) : Stream :=
  [.failed ⟨family, .timedOut⟩, .failed ⟨family, .timedOut⟩, .data ⟨[104], by decide, by decide⟩ 1,
    .data ⟨[105, 10], by decide, by decide⟩ 2, .failed ⟨family, .timedOut⟩]

/-- A TCP reader that times out before and after a line. -/
theorem idle_loses_nothing_tcp : ∃ x : Session Unit Unit, Transition.run (reading 10 0 (lineBetweenTimeouts .tcp))
      ⟨⟨[], 10, 0⟩, lineBetweenTimeouts .tcp, []⟩ [.line, .line, .line, .line] = some x ∧
    Transition.run (reading 10 0 (untimed (lineBetweenTimeouts .tcp)))
      ⟨⟨[], 10, 0⟩, untimed (lineBetweenTimeouts .tcp), []⟩ (x.messages.map Prod.fst) =
        some ⟨x.reader, untimed x.stream, x.messages⟩ := by
  have hstream : NotNoise (lineBetweenTimeouts .tcp) := by
    intro err herr
    simp only [lineBetweenTimeouts, mem_cons, reduceCtorEq, Arrival.failed.injEq, or_false,
      false_or, not_mem_nil] at herr
    rcases herr with rfl | rfl | rfl <;> decide
  have hline : lineOf [104, 105] = some "hi" := by decide
  have hrun : run (reading 10 0 (lineBetweenTimeouts .tcp))
      (⟨⟨[], 10, 0⟩, lineBetweenTimeouts .tcp, []⟩ : Session Unit Unit) [.line, .line, .line, .line] =
        some ⟨⟨[], 10, 0⟩, [], [(.line, .text "hi")]⟩ := by
    simp [run, reading, Session.step, lineBetweenTimeouts, Op.read, readLine, readUntil,
      readLoop, untilAnswer, outOfTime, onError, timedOut, Outcome.mapValue, findIdx?_cons, hline]
  exact ⟨_, hrun, ((idle_loses_nothing 10 0 (lineBetweenTimeouts .tcp) hstream).2.2 _ _ hrun).1⟩

/-- On a Noise stream the reads fail for good where a read of the stream times out between messages. -/
theorem noise_timeout_not_idle : TimesOutBetween (.line : Op Unit Unit) reader (lineBetweenTimeouts .noise)
        (lineBetweenTimeouts .noise).tail ∧ (readLine reader (lineBetweenTimeouts .noise) : Outcome _ Unit).1 =
        .error (.stream ⟨.noise, .timedOut⟩) ∧ (readUntil reader 10 (lineBetweenTimeouts .noise) : Outcome _ Unit).1 =
        .error (.stream ⟨.noise, .timedOut⟩) ∧
      (readParsed reader (fun _ => .needMore) (lineBetweenTimeouts .noise) : Outcome Unit Unit).1 =
        .error (.stream ⟨.noise, .timedOut⟩) ∧ (readExactly reader 3 (lineBetweenTimeouts .noise) : Outcome _ Unit).1 =
        .error (.stream ⟨.noise, .timedOut⟩) ∧ (readFrame reader (lineBetweenTimeouts .noise) : Outcome _ Unit).1 =
        .error (.stream ⟨.noise, .timedOut⟩) := by
  refine ⟨⟨rfl, trivial, _, rfl, rfl⟩, ?_, ?_, ?_, ?_, ?_⟩
  all_goals
    simp [lineBetweenTimeouts, readLine, readUntil, readParsed, readExactly, readFrame, takeExactly,
      readLoop, untilAnswer, parsedAnswer, exactlyAnswer, onError, timedOut, reader, readerWithMax]

end RocNet.Framing
