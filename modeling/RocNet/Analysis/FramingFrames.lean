import RocNet.Analysis.FramingPolls

/-!
# Frames

The length of a payload is written modulo 2^32.
-/

namespace RocNet.Framing

open List Incremental Nat UInt32

variable {μ : Type} {r next : Reader} {s s' : Stream} {payload rest : List UInt8}

/-! ## Headers -/

lemma takeLength_writeFrame (payload rest : List UInt8) :
    takeLength (writeFrame payload ++ rest) = some (payload.length % 2 ^ 32, payload ++ rest) :=
  takeLength_eq_some_iff.mpr ⟨_, toNat_ofNat', append_assoc _ _ _⟩

lemma takeLength_append (h : takeLength header = some (len, [])) (rest : List UInt8) :
    takeLength (header ++ rest) = some (len, rest) := by
  obtain ⟨n, hn, rfl⟩ := takeLength_eq_some_iff.mp h
  exact takeLength_eq_some_iff.mpr ⟨n, hn, by rw [append_nil]⟩

/-! ## Exactly so many bytes -/

lemma exactlyAnswer_stable (count : ℕ) :
    Stable (exactlyAnswer count 0 : _ → Answer _ (ReadErr μ)) where
  used_le := by
    intro xs v n h
    obtain ⟨rfl, -, hlen⟩ := exactlyAnswer_done h
    exact hlen
  done := by
    intro xs v n ys h
    obtain ⟨rfl, rfl, hlen⟩ := exactlyAnswer_done h
    unfold exactlyAnswer
    rw [length_append, if_neg (by omega), take_append_of_le_length hlen]
  fail := by
    intro xs e ys h
    unfold exactlyAnswer at h
    split at h <;> cases h

lemma takeExactly_of_le {count : ℕ} (messageStart : Bool) (hcalm : Calm r.messageTimeoutNs s)
    (hcount : count ≤ (remaining r s).length) :
    ∃ rest s', takeExactly r count messageStart s =
        ((.ok ((remaining r s).take count, { r with buffered := rest }), s') : Outcome _ μ) ∧
      Calm r.messageTimeoutNs s' ∧ rest ++ bytes s' = (remaining r s).drop count := by
  have hanswer : exactlyAnswer count 0 (r.buffered ++ bytes s) =
      (.done ((remaining r s).take count) count : Answer _ (ReadErr μ)) :=
    if_neg (Nat.not_lt.mpr hcount)
  have hloop := readLoop_of_whole r messageStart r.buffered (fun _ _ _ => rfl)
    (exactlyAnswer_stable (μ := μ) count).upTo (fun _ => rfl) hcalm
  rw [hanswer] at hloop
  exact hloop

/-! ## Reading a frame -/

/-- On a calm stream with a header and that many bytes after it, they are the frame that is read. -/
theorem readFrame_of_header {tail : List UInt8} (hcalm : Calm r.messageTimeoutNs s)
    (hheader : takeLength (remaining r s) = some (len, tail)) (hmax : len ≤ r.maxLen) (htail : len ≤ tail.length) :
    ∃ buffered s', readFrame r s = ((.ok (tail.take len, { r with buffered }), s') : Outcome _ μ) ∧
      Calm r.messageTimeoutNs s' ∧ buffered ++ bytes s' = tail.drop len := by
  obtain ⟨htake, hdrop, hfour⟩ := takeLength_take hheader
  obtain ⟨buffered, s₁, hread, hcalm₁, hleft⟩ := takeExactly_of_le (μ := μ) true hcalm hfour
  rw [hdrop] at hleft
  have hremaining : remaining { r with buffered } s₁ = tail := hleft
  have hcount : len ≤ (remaining { r with buffered } s₁).length := by rwa [hremaining]
  obtain ⟨buffered', s₂, hread', hcalm₂, hleft'⟩ :=
    takeExactly_of_le (μ := μ) (r := { r with buffered }) false hcalm₁ hcount
  rw [hremaining] at hread' hleft'
  refine ⟨buffered', s₂, ?_, hcalm₂, hleft'⟩
  unfold readFrame
  rw [hread]
  simp only [htake, if_neg (Nat.not_lt.mpr hmax)]
  exact hread'

/-- A frame of fewer than 2^32 bytes is read back, and what comes after it is left. -/
theorem readFrame_of_frame (hcalm : Calm r.messageTimeoutNs s) (hlen : payload.length < 2 ^ 32)
    (hmax : payload.length ≤ r.maxLen) (hbytes : remaining r s = writeFrame payload ++ rest) :
    ∃ buffered s', readFrame r s = ((.ok (payload, { r with buffered }), s') : Outcome _ μ) ∧
      Calm r.messageTimeoutNs s' ∧ buffered ++ bytes s' = rest := by
  have hheader := takeLength_writeFrame payload rest
  rw [← hbytes, mod_eq_of_lt hlen] at hheader
  have htail : payload.length ≤ (payload ++ rest).length := by
    rw [length_append]
    omega
  have hread := readFrame_of_header (μ := μ) hcalm hheader hmax htail
  rwa [take_left, drop_left] at hread

lemma readFrame_of_end (hcalm : Calm r.messageTimeoutNs s) (hbytes : remaining r s = []) :
    (readFrame r s : Outcome _ μ).1 = .error .endOfStream := by
  obtain ⟨hbuffered, hs⟩ := append_eq_nil_iff.mp hbytes
  have hloop := readLoop_of_whole r true r.buffered (fun _ _ _ => rfl)
    (exactlyAnswer_stable (μ := μ) 4).upTo (fun _ => rfl) hcalm
  rw [hbuffered, hs] at hloop
  have hheader : (takeExactly r 4 true s : Outcome _ μ).1 = .error .endOfStream := by
    unfold takeExactly
    rw [hbuffered]
    exact hloop
  unfold readFrame
  cases hread : (takeExactly r 4 true s : Outcome _ μ) with
  | mk result s' =>
    rw [hread] at hheader
    cases hheader
    rfl

/-! ## Reading frames by turns -/

/-- A way to read a frame: wait for it, or poll for it. -/
inductive Turn
  | wait
  | poll (ready : Bool)
  deriving DecidableEq, Repr

def Turn.read (turn : Turn) (r : Reader) (s : Stream) : Polled (List UInt8) μ :=
  match turn with
  | .wait => (readFrame r s).map some id
  | .poll ready => tryReadFrame r ready s

/-- What the turns return, up to a failure. A poll that is not ready leaves the reader. -/
def takeFrames : List Turn → Reader → Stream → List (Except (ReadErr μ) (List UInt8))
  | [], _, _ => []
  | turn :: turns, r, s =>
    match turn.read r s with
    | (none, s') => takeFrames turns r s'
    | (some (.ok (payload, next)), s') => .ok payload :: takeFrames turns next s'
    | (some (.error e), _) => [.error e]

def frameBytes (payloads : List (List UInt8)) : List UInt8 := (payloads.map writeFrame).flatten

/-- What reading some frames, to the end of the stream, returns. -/
def frameResults (payloads : List (List UInt8)) : List (Except (ReadErr μ) (List UInt8)) :=
  payloads.map .ok ++ [.error .endOfStream]

/-- A turn is not ready, and takes nothing, or it reads a frame from what is left. Only a poll can be
not ready. -/
theorem turn_cases (turn : Turn) (hcalm : Calm r.messageTimeoutNs s) :
    turn ≠ .wait ∧ (turn.read r s : Polled _ μ) = (none, s) ∨ ∃ buffered s', (turn.read r s : Polled _ μ) =
          (readFrame { r with buffered } s').map some id ∧ Calm r.messageTimeoutNs s' ∧
        buffered ++ bytes s' = remaining r s := by
  cases turn with
  | wait => exact .inr ⟨r.buffered, s, rfl, hcalm, rfl⟩
  | poll ready =>
    dsimp only [Turn.read, tryReadFrame, tryReadWith]
    split
    · exact .inr ⟨r.buffered, s, rfl, hcalm, rfl⟩
    · cases ready with
      | false => exact .inl ⟨by decide, rfl⟩
      | true =>
        refine .inr ?_
        cases s with
        | nil =>
          refine ⟨r.buffered, [], ?_, hcalm, rfl⟩
          simp [tryRead]
        | cons a s =>
          obtain ⟨segment, elapsed, rfl, -⟩ := hcalm a mem_cons_self
          refine ⟨r.buffered ++ segment.bytes, s, rfl, fun a ha => hcalm a (mem_cons_of_mem _ ha), ?_⟩
          rw [append_assoc]
          rfl

/-- The turns return the frames that are left in order, one each, and the end of the stream after the
last; polls that are not ready come in between. -/
theorem takeFrames_of_frames (hcalm : Calm r.messageTimeoutNs s)
    (hpayloads : ∀ payload ∈ payloads, payload.length ≤ r.maxLen ∧ payload.length < 2 ^ 32)
    (hbytes : remaining r s = frameBytes payloads) :
    takeFrames turns r s <+: (frameResults payloads : List (Except (ReadErr μ) _)) ∧
      (payloads.length < turns.count .wait →
        takeFrames turns r s = (frameResults payloads : List (Except (ReadErr μ) _))) := by
  induction turns generalizing r s payloads with
  | nil => exact ⟨ nil_prefix, fun h => absurd h (not_lt_zero _)⟩
  | cons turn turns ih =>
    rcases turn_cases (μ := μ) turn hcalm with ⟨hturn, hread⟩ | ⟨buffered, s₁, hread, hcalm₁, hleft⟩
    · -- not ready: the other turns read the same frames
      simp only [takeFrames, hread, count_cons_of_ne hturn]
      exact ih hcalm hpayloads hbytes
    · have hremaining : remaining { r with buffered } s₁ = frameBytes payloads := hleft.trans hbytes
      cases payloads with
      | nil =>
        have hend := readFrame_of_end (μ := μ) (r := { r with buffered }) hcalm₁ hremaining
        have hresult : (turn.read r s : Polled _ μ) =
            (some (.error .endOfStream), (readFrame { r with buffered } s₁ : Outcome _ μ).2) := by
          rw [hread]
          exact Prod.ext (congrArg some hend) rfl
        have htake : takeFrames (turn :: turns) r s = (frameResults [] : List (Except (ReadErr μ) _)) := by
          simp only [takeFrames, hresult]
          rfl
        exact ⟨htake ▸ prefix_refl _, fun _ => htake⟩
      | cons payload payloads =>
        obtain ⟨hmax, hlen⟩ := hpayloads payload mem_cons_self
        obtain ⟨buffered', s₂, hframe, hcalm₂, hleft'⟩ :=
          readFrame_of_frame (μ := μ) (r := { r with buffered }) hcalm₁ hlen hmax hremaining
        have hresult : (turn.read r s : Polled _ μ) = (some (.ok (payload, { r with buffered := buffered' })), s₂) := by
          rw [hread, hframe]
          rfl
        have hrest := ih (r := { r with buffered := buffered' }) hcalm₂
          (fun p hp => hpayloads p (mem_cons_of_mem _ hp)) hleft'
        simp only [takeFrames, hresult]
        refine ⟨cons_prefix_cons.mpr ⟨rfl, hrest.1⟩, fun hcount => ?_⟩
        refine congrArg (cons (.ok payload)) (hrest.2 ?_)
        rw [length_cons, count_cons] at hcount
        split at hcount <;> omega

/-- **Frames survive every segmentation.** What `write_frame!` writes for payloads of fewer than 2^32
bytes, within the reader's limit, cut in any way into reads without errors or timeouts: any sequence of
blocking reads and polls returns these payloads in order, and the end of the stream after the last; and
it comes to the end if there are more blocking reads than frames. -/
theorem frames_survive_segmentation (maxLen timeoutNs : ℕ) (payloads : List (List UInt8)) (s : Stream)
    (hpayloads : ∀ payload ∈ payloads, payload.length ≤ maxLen ∧ payload.length < 2 ^ 32)
    (hbytes : bytes s = (payloads.map writeFrame).flatten) (hcalm : Calm timeoutNs s) (turns : List Turn) :
    takeFrames turns ⟨[], maxLen, timeoutNs⟩ s <+:
        (payloads.map .ok ++ [.error .endOfStream] : List (Except (ReadErr μ) _)) ∧
      (payloads.length < turns.count .wait → takeFrames turns ⟨[], maxLen, timeoutNs⟩ s =
          (payloads.map .ok ++ [.error .endOfStream] : List (Except (ReadErr μ) _))) :=
  takeFrames_of_frames hcalm hpayloads hbytes

/-- Two frames, one of them empty, in three reads. -/
def twoFrames : Stream :=
  [.data ⟨[0, 0], by decide, by decide⟩ 1, .data ⟨[0, 1, 7, 0, 0], by decide, by decide⟩ 2,
    .data ⟨[0, 0], by decide, by decide⟩ 3]

/-- Two frames, one empty, cut inside the headers. -/
theorem frames_survive_segmentation_twoFrames :
    takeFrames [.poll false, .wait, .poll true, .poll false, .wait, .wait] ⟨[], 10, 0⟩ twoFrames =
      ([.ok [7], .ok [], .error .endOfStream] : List (Except (ReadErr Unit) _)) := by
  have hcalm : Calm 0 twoFrames := by
    intro a ha
    simp only [twoFrames, mem_cons, not_mem_nil, or_false] at ha
    rcases ha with rfl | rfl | rfl
    · exact ⟨_, _, rfl, rfl⟩
    · exact ⟨_, _, rfl, rfl⟩
    · exact ⟨_, _, rfl, rfl⟩
  refine (frames_survive_segmentation 10 0 [[7], []] twoFrames ?_ ?_ hcalm _).2 (by decide)
  · simp
  · decide

/-! ## Frames of any length -/

/-- Whatever the stream does, no other payload than that of a frame of fewer than 2^32 bytes is returned. -/
theorem eq_of_readFrame (hlen : payload.length < 2 ^ 32) (hbytes : remaining r s = writeFrame payload ++ rest)
    {v : List UInt8} (hread : readFrame r s = ((.ok (v, next), s') : Outcome _ μ)) :
    v = payload ∧ remaining next s' = rest := by
  have hop : (Op.frame : Op Unit μ).read r s = (.ok (.bytes v, next), s') := by
    unfold Op.read
    rw [hread]
    rfl
  obtain ⟨raw, ⟨header, payload', rfl, hheader, hv⟩, hleft, -⟩ := read_ok hop
  cases hv
  have hframe := takeLength_writeFrame payload rest
  rw [← hbytes, ← hleft, append_assoc, takeLength_append hheader, mod_eq_of_lt hlen] at hframe
  simp only [Option.some.injEq, Prod.mk.injEq] at hframe
  exact append_inj hframe.2 hframe.1

/-- A stream that brings one byte after the other. -/
def byteByByte (xs : List UInt8) : Stream :=
  xs.map fun b => .data ⟨[b], by simp, by simp⟩ 0

lemma bytes_byteByByte (xs : List UInt8) : bytes (byteByByte xs) = xs := by
  induction xs with
  | nil => rfl
  | cons b xs ih => exact congrArg (cons b) ih

lemma calm_byteByByte (timeoutNs : ℕ) (xs : List UInt8) : Calm timeoutNs (byteByByte xs) := by
  intro a ha
  obtain ⟨b, -, rfl⟩ := mem_map.mp ha
  exact ⟨_, 0, rfl, by simp [outOfTime]⟩

/-- Of a payload of any length, as many bytes are read back as its length has modulo 2^32. -/
theorem readFrame_of_wrapped (payload : List UInt8) :
    ∃ next s', readFrame (readerWithMax payload.length) (byteByByte (writeFrame payload)) =
      ((.ok (payload.take (payload.length % 2 ^ 32), next), s') : Outcome _ μ) ∧
        remaining next s' = payload.drop (payload.length % 2 ^ 32) := by
  have hheader := takeLength_writeFrame payload []
  rw [append_nil, append_nil] at hheader
  have hremaining : remaining (readerWithMax payload.length) (byteByByte (writeFrame payload)) =
      writeFrame payload := bytes_byteByByte _
  rw [← hremaining] at hheader
  have hle : payload.length % 2 ^ 32 ≤ payload.length := mod_le _ _
  obtain ⟨buffered, s', hread, -, hleft⟩ := readFrame_of_header (μ := μ) (calm_byteByByte _ _) hheader hle hle
  exact ⟨_, s', hread, hleft⟩

/-- **Which frames are never read as other data**: exactly those of fewer than 2^32 bytes. Whatever was written after
one, and whatever the stream does: if `read_frame!` returns a payload, it is that of the frame, and exactly the bytes
after it are left; and on a stream without errors or timeouts it does return one. -/
theorem frame_read_back_iff (payload : List UInt8) :
    (∀ (rest : List UInt8) (r : Reader) (s : Stream), payload.length ≤ r.maxLen →
      remaining r s = writeFrame payload ++ rest →
        (∀ (v : List UInt8) (next : Reader) (s' : Stream),
          readFrame r s = ((.ok (v, next), s') : Outcome _ μ) → v = payload ∧ remaining next s' = rest) ∧
        (Calm r.messageTimeoutNs s → ∃ next s',
          readFrame r s = ((.ok (payload, next), s') : Outcome _ μ) ∧ remaining next s' = rest)) ↔
      payload.length < 2 ^ 32 := by
  constructor
  · intro hback
    by_contra hlong
    obtain ⟨next, s', hread, -⟩ := readFrame_of_wrapped (μ := μ) payload
    have hbytes : remaining (readerWithMax payload.length) (byteByByte (writeFrame payload)) =
        writeFrame payload ++ [] := by
      rw [append_nil]
      exact bytes_byteByByte _
    -- a part of the payload is returned, and it is shorter than 2^32
    have hpart := congrArg length ((hback [] _ _ (Nat.le_refl _) hbytes).1 _ _ _ hread).1
    have hwraps := mod_lt payload.length (by decide : 0 < 2 ^ 32)
    rw [length_take] at hpart
    omega
  · intro hlen rest r s hmax hbytes
    refine ⟨fun v next s' hread => eq_of_readFrame hlen hbytes hread, fun hcalm => ?_⟩
    obtain ⟨buffered, s', hread, -, hleft⟩ := readFrame_of_frame (μ := μ) hcalm hlen hmax hbytes
    exact ⟨_, s', hread, hleft⟩

/-- What `write_frame!` writes for 2^32 bytes is read back as an empty frame, by a reader that takes
frames of that length; the payload is left, to be read as frames. -/
theorem frame_length_wraps : ∃ next s',
    readFrame (readerWithMax (2 ^ 32)) (byteByByte (writeFrame (List.replicate (2 ^ 32) 7))) =
      ((.ok ([], next), s') : Outcome _ Unit) ∧ remaining next s' = List.replicate (2 ^ 32) 7 := by
  obtain ⟨next, s', hread, hleft⟩ := readFrame_of_wrapped (μ := Unit) (List.replicate (2 ^ 32) 7)
  rw [length_replicate, mod_self, take_zero] at hread
  rw [length_replicate, mod_self, drop_zero] at hleft
  exact ⟨next, s', hread, hleft⟩

end RocNet.Framing
