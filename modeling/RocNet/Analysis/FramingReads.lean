import RocNet.Model.Framing

/-!
# What the reading loop does with a stream

On a stream without errors or timeouts `readLoop` is a reader fed with segments (`readLoop_of_feed`). On any stream it
accounts for every byte (`readLoop_ok`), and reports the end only where nothing was buffered and nothing came.
-/

namespace RocNet.Framing

open List Incremental

variable {β μ : Type} {r : Reader} {s s' : Stream} {messageStart : Bool}
  {answer : ℕ → List UInt8 → Answer β (ReadErr μ)} {buffered : List UInt8} {searched : ℕ}

/-! ## Streams without errors or timeouts -/

/-- The stream brings data, and no message runs out of time. -/
def Calm (timeoutNs : ℕ) (s : Stream) : Prop :=
  ∀ a ∈ s, ∃ segment elapsed, a = .data segment elapsed ∧ outOfTime timeoutNs elapsed = false

/-- An answer to a longer buffer may search it from where the last one stopped. -/
def Resumes (answer : ℕ → List UInt8 → Answer β (ReadErr μ)) : Prop :=
  ∀ buffered more, answer 0 buffered = .more → answer buffered.length (buffered ++ more) = answer 0 (buffered ++ more)

/-- The loop on a calm stream, in terms of being fed with its segments. -/
theorem readLoop_of_feed (r : Reader) (messageStart : Bool) (buffered : List UInt8) (searched : ℕ)
    (hresumes : Resumes answer) (hcalm : Calm r.messageTimeoutNs s)
    (hsearched : answer searched buffered = answer 0 buffered) :
    match feed (answer 0) (segments s) buffered with
    | .done value rest segments' => ∃ s', readLoop r messageStart answer s buffered searched =
        (.ok (value, { r with buffered := rest }), s') ∧ segments s' = segments' ∧
        Calm r.messageTimeoutNs s'
    | .fail e => (readLoop r messageStart answer s buffered searched).1 = .error e
    | .ended received =>
      (readLoop r messageStart answer s buffered searched).1 = .error (atEnd received) := by
  induction s generalizing buffered searched with
  | nil =>
    unfold feed readLoop
    rw [hsearched]
    cases answer 0 buffered with
    | done value used => exact ⟨[], rfl, rfl, hcalm⟩
    | fail e | more => rfl
  | cons a s ih =>
    obtain ⟨segment, elapsed, rfl, htime⟩ := hcalm a mem_cons_self
    unfold feed readLoop
    rw [hsearched]
    cases hanswer : answer 0 buffered with
    | done value used => exact ⟨_, rfl, rfl, hcalm⟩
    | fail e => rfl
    | more =>
      have hrest := ih (buffered ++ segment.bytes) buffered.length
        (fun a ha => hcalm a (mem_cons_of_mem _ ha)) (hresumes buffered segment.bytes hanswer)
      simp only [segments, htime]
      exact hrest

/-- **The loop on a calm stream sees all of it.** It comes to what the answer to all the bytes is, if
the answers are stable up to some relation of errors. -/
theorem readLoop_of_whole {R : ReadErr μ → ReadErr μ → Prop} (r : Reader) (messageStart : Bool)
    (buffered : List UInt8) (hresumes : Resumes answer)
    (hstable : StableUpTo R (answer 0)) (hrefl : ∀ e, R e e) (hcalm : Calm r.messageTimeoutNs s) :
    match answer 0 (buffered ++ bytes s) with
    | .done value used => ∃ rest s', readLoop r messageStart answer s buffered 0 =
        (.ok (value, { r with buffered := rest }), s') ∧ Calm r.messageTimeoutNs s' ∧
        rest ++ bytes s' = (buffered ++ bytes s).drop used
    | .fail e => ∃ e', (readLoop r messageStart answer s buffered 0).1 = .error e' ∧ R e' e
    | .more => (readLoop r messageStart answer s buffered 0).1 = .error (atEnd (buffered ++ bytes s)) := by
  have hloop := readLoop_of_feed r messageStart buffered 0 hresumes hcalm rfl
  have hfeed := feed_answers hstable hrefl (segments s) buffered
  unfold bytes
  generalize answer 0 (buffered ++ (segments s).flatten) = whole at hfeed ⊢
  cases whole with
  | done value used =>
    obtain ⟨rest, segments', hfeed, hrest⟩ := hfeed
    rw [hfeed] at hloop
    obtain ⟨s', hread, rfl, hcalm'⟩ := hloop
    exact ⟨rest, s', hread, hcalm', hrest⟩
  | fail e =>
    obtain ⟨e', hfeed, hR⟩ := hfeed
    rw [hfeed] at hloop
    exact ⟨e', hloop, hR⟩
  | more =>
    rw [hfeed] at hloop
    exact hloop

/-! ## Read after read -/

/-- Read until a read fails, `n` times at most. -/
def readAll (read : Reader → Stream → Outcome β μ) :
    ℕ → Reader → Stream → Option (List β × ReadErr μ)
  | 0, _, _ => none
  | n + 1, r, s =>
    match read r s with
    | (.error e, _) => some ([], e)
    | (.ok (value, next), s') => (readAll read n next s').map fun p => (value :: p.1, p.2)

variable {read : Reader → Stream → Outcome β μ} {e : ReadErr μ}

lemma readAll_of_error (h : (read r s).1 = .error e) : readAll read (n + 1) r s = some ([], e) := by
  have hread : read r s = (.error e, (read r s).2) := Prod.ext h rfl
  unfold readAll
  rw [hread]

/-- The error that a sequence of reads ends with. -/
def stopError : Stop UInt8 (ReadErr μ) → ReadErr μ
  | .fail e => e
  | .ended received => atEnd received

variable {maxLen : ℕ} {next : Reader} {received : List UInt8}

/-- **Read after read, segmentation does not matter.** On a calm stream the reads of a reader with stable
answers give what these give on all the bytes at once. -/
theorem readAll_eq_split {timeoutNs : ℕ} (hread : ∀ buffered s, read ⟨buffered, maxLen, timeoutNs⟩ s =
      readLoop ⟨buffered, maxLen, timeoutNs⟩ true answer s buffered 0) (hstable : Stable (answer 0))
    (hresumes : Resumes answer) (hcalm : Calm timeoutNs s) (n : ℕ) : readAll read n ⟨buffered, maxLen, timeoutNs⟩ s =
      (split (answer 0) n (buffered ++ bytes s)).map fun p => (p.1, stopError p.2) := by
  have hfed : ∀ (n : ℕ) (s : Stream) (buffered : List UInt8), Calm timeoutNs s →
      readAll read n ⟨buffered, maxLen, timeoutNs⟩ s =
        (feedAll (answer 0) n (segments s) buffered).map fun p => (p.1, stopError p.2) := by
    intro n
    induction n with
    | zero => exact fun _ _ _ => rfl
    | succ n ih =>
      intro s buffered hcalm
      have hloop := readLoop_of_feed ⟨buffered, maxLen, timeoutNs⟩ true buffered 0 hresumes hcalm rfl
      rw [← hread] at hloop
      unfold feedAll
      cases hfeed : feed (answer 0) (segments s) buffered with
      | done value rest segments' =>
        rw [hfeed] at hloop
        obtain ⟨s', hresult, hsegments, hcalm'⟩ := hloop
        unfold readAll
        rw [hresult]
        simp only [ih s' rest hcalm', hsegments, Option.map_map]
        rfl
      | fail e | ended received =>
        rw [hfeed] at hloop
        exact readAll_of_error hloop
  rw [hfed n s buffered hcalm, feedAll_eq_split hstable]
  rfl

/-! ## Every byte is accounted for -/

/-- A read that succeeds returns the answer to a buffer, and leaves what that did not use and what the
stream has not brought yet. What it took of the stream was calm. -/
theorem readLoop_ok (hresumes : Resumes answer) (hsearched : answer searched buffered = answer 0 buffered)
    (h : readLoop r messageStart answer s buffered searched = (.ok (value, next), s')) :
    ∃ received used, answer 0 received = .done value used ∧ next = { r with buffered := received.drop used } ∧
      received ++ bytes s' = buffered ++ bytes s ∧ (s' = [] → Calm r.messageTimeoutNs s) := by
  induction s generalizing buffered searched with
  | nil =>
    unfold readLoop at h
    split at h
    · next value' used hanswer =>
      cases h
      exact ⟨buffered, used, hsearched.symm.trans hanswer, rfl, rfl, nofun⟩
    · cases h
    · cases h
  | cons a s ih =>
    unfold readLoop at h
    split at h
    · next value' used hanswer =>
      cases h
      exact ⟨buffered, used, hsearched.symm.trans hanswer, rfl, rfl, nofun⟩
    · cases h
    · next hmore =>
      split at h
      · cases h
      · cases h
      · next segment elapsed rest heq =>
        cases heq
        split at h
        · cases h
        · next htime =>
          have hmore' := hresumes buffered segment.bytes (hsearched.symm.trans hmore)
          obtain ⟨received, used, hanswer, hnext, hbytes, hcalm⟩ := ih hmore' h
          refine ⟨received, used, hanswer, hnext, ?_, fun hs' => ?_⟩
          · rw [hbytes, append_assoc]
            rfl
          · exact forall_mem_cons.mpr ⟨⟨segment, elapsed, rfl, eq_false_of_ne_true htime⟩, hcalm hs'⟩

/-- Where a read fails: an answer refuses what was received, the stream ends or fails, or the time is
up. Only with the first arrival can nothing have been received. -/
theorem readLoop_error (h : readLoop r messageStart answer s buffered searched = (.error e, s')) :
    (∃ searched received, answer searched received = .fail e) ∨ (∃ received, e = atEnd received ∧
      (received = [] → s = [] ∧ buffered = [] ∧ answer searched [] = .more)) ∨
    (∃ received err, e = onError r messageStart received err ∧
      (received = [] → s = .failed err :: s' ∧ buffered = [] ∧ answer searched [] = .more)) ∨ e = .messageTimedOut := by
  induction s generalizing buffered searched with
  | nil =>
    unfold readLoop at h
    split at h
    · cases h
    · next he =>
      cases h
      exact .inl ⟨_, _, he⟩
    · next hmore =>
      cases h
      refine .inr (.inl ⟨buffered, rfl, ?_⟩)
      rintro rfl
      exact ⟨rfl, rfl, hmore⟩
  | cons a s ih =>
    unfold readLoop at h
    split at h
    · cases h
    · next he =>
      cases h
      exact .inl ⟨_, _, he⟩
    · next hmore =>
      split at h
      · next heq => cases heq
      · next err rest heq =>
        cases heq
        cases h
        refine .inr (.inr (.inl ⟨buffered, err, rfl, ?_⟩))
        rintro rfl
        exact ⟨rfl, rfl, hmore⟩
      · next segment elapsed rest heq =>
        cases heq
        split at h
        · cases h
          exact .inr (.inr (.inr rfl))
        · -- the buffer has bytes from here on
          have hbytes : buffered ++ segment.bytes ≠ [] :=
            fun hnil => segment.nonempty (append_eq_nil_iff.mp hnil).2
          rcases ih h with hfail | ⟨received, rfl, hnil⟩ | ⟨received, err, rfl, hnil⟩ | htime
          · exact .inl hfail
          · exact .inr (.inl ⟨received, rfl, fun hr => absurd (hnil hr).2.1 hbytes⟩)
          · exact .inr (.inr (.inl ⟨received, err, rfl, fun hr => absurd (hnil hr).2.1 hbytes⟩))
          · exact .inr (.inr (.inr htime))

/-- What an answer can refuse a buffer with. -/
def Refusal (e : ReadErr μ) : Prop := e = .tooLong ∨ ∃ x, e = .malformed x

lemma atEnd_eq_endOfStream (h : (.endOfStream : ReadErr μ) = atEnd received) : received = [] := by
  unfold atEnd at h
  split at h
  · next hlen => exact eq_nil_of_length_eq_zero hlen
  · cases h

section

variable (hrefusal : ∀ searched received e, answer searched received = .fail e → Refusal e)

include hrefusal

/-- The end of the stream is reported only where nothing was buffered, and nothing came. -/
theorem readLoop_endOfStream (h : readLoop r messageStart answer s buffered searched = (.error .endOfStream, s')) :
    s = [] ∧ buffered = [] ∧ answer searched [] = .more := by
  rcases readLoop_error h with ⟨_, _, hfail⟩ | ⟨received, he, hnil⟩ | ⟨received, err, he, -⟩ | he
  · rcases hrefusal _ _ _ hfail with he | ⟨x, he⟩
    · cases he
    · cases he
  · exact hnil (atEnd_eq_endOfStream he)
  · unfold onError at he
    split at he <;> cases he
  · cases he

lemma readLoop_idle_iff
    :
    readLoop r messageStart answer s buffered searched = (.error (.idle next), s') ↔
      messageStart ∧ buffered = [] ∧ answer searched [] = .more ∧
        next = { r with buffered := [] } ∧ ∃ err, s = .failed err :: s' ∧ timedOut err := by
  constructor
  · intro h
    rcases readLoop_error h with ⟨_, _, hfail⟩ | ⟨received, he, -⟩ | ⟨received, err, he, hnil⟩ | he
    · rcases hrefusal _ _ _ hfail with he | ⟨x, he⟩
      · cases he
      · cases he
    · unfold atEnd at he
      split at he <;> cases he
    · unfold onError at he
      split at he
      · next hidle =>
        cases he
        rw [Bool.and_eq_true, Bool.and_eq_true] at hidle
        obtain rfl := eq_nil_of_length_eq_zero (of_decide_eq_true hidle.1.2)
        obtain ⟨hs, hbuffered, hmore⟩ := hnil rfl
        exact ⟨hidle.1.1, hbuffered, hmore, rfl, err, hs, hidle.2⟩
      · cases he
    · cases he
  · rintro ⟨rfl, rfl, hmore, rfl, err, rfl, htime⟩
    unfold readLoop
    simp only [hmore, onError, htime]
    rfl

lemma readLoop_idle (h : readLoop r messageStart answer s buffered searched = (.error (.idle next), s')) :
    messageStart ∧ buffered = [] ∧ next.buffered = [] ∧ bytes s' = bytes s := by
  obtain ⟨hstart, hbuffered, -, rfl, err, rfl, -⟩ := (readLoop_idle_iff hrefusal).mp h
  exact ⟨hstart, hbuffered, rfl, rfl⟩

end

/-! ## What the answers refuse -/

lemma untilAnswer_refusal (h : untilAnswer d maxLen searched received = .fail e) : Refusal e := by
  unfold untilAnswer at h
  split at h
  · dsimp only at h
    split at h
    · cases h
      exact .inl rfl
    · cases h
  · split at h
    · cases h
      exact .inl rfl
    · cases h

lemma parsedAnswer_refusal {parse : List UInt8 → Parse β μ}
    (h : parsedAnswer parse maxLen searched received = .fail e) : Refusal e := by
  unfold parsedAnswer at h
  split at h
  · split at h
    · cases h
      exact .inl rfl
    · cases h
  · cases h
    exact .inr ⟨_, rfl⟩
  · split at h
    · cases h
      exact .inl rfl
    · cases h

lemma exactlyAnswer_refusal {count : ℕ} (h : exactlyAnswer count searched received = .fail e) : Refusal e := by
  unfold exactlyAnswer at h
  split at h <;> cases h

end RocNet.Framing
