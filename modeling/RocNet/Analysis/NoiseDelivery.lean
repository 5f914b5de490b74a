import RocNet.Analysis.NoiseReceiving
import RocNet.Analysis.NoiseWriting

/-!
# What reads of a Noise stream return

The loop of `next` under an ideal AEAD, against the messages that have been sealed: it opens the next of them or none
(`Takes.opens`).
-/

namespace RocNet.Noise

open Received (Opens Stops)
open List Option Nat UInt8

variable {sealInPlace : ℕ → Bytes → Bytes} {n₀ max len : ℕ} {log : List Sealed} {r r' : Received}
  {m m' x y : Bytes}

/-! ## Frames -/

lemma frame_ne_nil (m : Bytes) : frame m ≠ [] := nofun

lemma frame_append_inj (hm : m.length ≤ 65535) (hm' : m'.length ≤ 65535)
    (h : frame m ++ x = frame m' ++ y) : m = m' ∧ x = y := by
  unfold frame at h
  rw [append_assoc, append_assoc] at h
  obtain ⟨hheader, hrest⟩ := append_inj h rfl
  have hlength : m.length = m'.length := by
    simp only [cons.injEq, and_true, ← UInt8.toNat_inj, UInt8.toNat_ofNat'] at hheader
    omega
  exact append_inj hrest hlength

lemma eq_frame_of_wholeMessage (h : r.wholeMessage = some len) :
    r.ciphertext = frame (r.message len) ++ r.ciphertext.drop (2 + len) ∧ (r.message len).length ≤ 65535 := by
  have hle := Received.le_length_of_wholeMessage h
  have hlength : (r.message len).length = len := by
    unfold Received.message
    rw [length_drop, length_take]
    omega
  unfold Received.wholeMessage at h
  split at h
  · next high low rest hcipher =>
    dsimp only at h
    split at h
    · cases h
      have hhigh := high.toNat_lt
      have hlow := low.toNat_lt
      refine ⟨?_, by omega⟩
      have hheader : frame (r.message (high.toNat * 256 + low.toNat)) =
          [high, low] ++ r.message (high.toNat * 256 + low.toNat) := by
        unfold frame
        rw [hlength]
        congr 1
        simp only [cons.injEq, and_true, ← UInt8.toNat_inj, UInt8.toNat_ofNat']
        omega
      rw [hheader]
      unfold Received.message
      rw [hcipher, add_comm 2, take_succ_cons, take_succ_cons]
      simp only [drop_succ_cons, drop_zero, cons_append, nil_append]
      rw [take_append_drop]
    · cases h
  · cases h

lemma wholeMessage_of_frame (h : r.ciphertext = frame m ++ x) (hm : m.length ≤ 65535) :
    r.wholeMessage = some m.length := by
  unfold frame at h
  unfold Received.wholeMessage
  rw [h]
  dsimp only [cons_append, nil_append]
  have hlen : (ofNat (m.length % 65536 / 256)).toNat * 256 +
      (ofNat (m.length % 65536 % 256)).toNat = m.length := by
    rw [toNat_ofNat', toNat_ofNat']
    omega
  rw [hlen, if_pos]
  simp only [length_cons, length_append]
  omega

lemma message_of_isPrefix (h : r.wholeMessage = some len) (hm : m.length ≤ 65535)
    (hstart : r.ciphertext <+: frame m ++ x) : r.message len = m := by
  obtain ⟨heq, hlen⟩ := eq_frame_of_wholeMessage h
  obtain ⟨tail, htail⟩ := hstart
  rw [heq, append_assoc] at htail
  exact (frame_append_inj hlen hm htail).1

/-! ## What was opened -/

/-- Under the ideal AEAD, a message that opens is the one sealed under the nonce. -/
theorem opening_some (hle : ∀ i x, log[i]? = some x → n₀ + i ≤ x.nonce)
    (hk : ∀ i x, i < k → log[i]? = some x → x.nonce = n₀ + i) (hn : n = n₀ + k)
    (hopen : (opening sealInPlace log).openInPlace n m = some plain) : log[k]? = some ⟨n, plain, m⟩ := by
  obtain ⟨y, hfind, rfl⟩ := map_eq_some_iff.mp hopen
  have hy := find?_some hfind
  rw [decide_eq_true_eq] at hy
  obtain ⟨i, hi⟩ := mem_iff_getElem?.mp (mem_of_find?_eq_some hfind)
  -- earlier messages have smaller nonces, and later ones larger
  have hik : i = k := by
    have hge := hle i y hi
    by_contra hne
    have hlt : i < k := by omega
    have hnonce := hk i y hlt hi
    omega
  subst hik
  rw [hi, ← hy.1, ← hy.2]

lemma opening_ne_none {y : Sealed} (hy : y ∈ log) :
    (opening sealInPlace log).openInPlace y.nonce y.ciphertext ≠ none := by
  intro hnone
  have hfind := map_eq_none_iff.mp hnone
  rw [find?_eq_none] at hfind
  exact hfind y hy (by simp)

/-- The first `k` messages sealed have been opened: what reads have returned and what is left of the
last message is their plaintext. The frames of the messages taken and the ciphertext left are what was
received; if no read has failed, the messages taken are those. -/
structure Takes (n₀ : ℕ) (log : List Sealed) (delivered front : Bytes) (fine : Prop) (r : Received) (k : ℕ)
    (ms : List Bytes) : Prop where
  le_length : k ≤ log.length
  nonces : ∀ i x, i < k → log[i]? = some x → x.nonce = n₀ + i
  nonce : r.nonce = n₀ + k
  text : delivered ++ r.plain.drop r.taken = plaintext (log.take k)
  bytes : frames ms ++ r.ciphertext = front
  short : ∀ m ∈ ms, m.length ≤ 65535
  fine : fine → ms = (log.take k).map Sealed.ciphertext

namespace Takes

variable {delivered front : Bytes} {fine : Prop} {k : ℕ} {ms : List Bytes}

lemma short_append (h : ∀ m ∈ ms, m.length ≤ 65535) (hm : m.length ≤ 65535) :
    ∀ m' ∈ ms ++ [m], m'.length ≤ 65535 := by
  intro m' hmem
  obtain hmem | hmem := mem_append.mp hmem
  · exact h m' hmem
  · rw [mem_singleton] at hmem
    rwa [hmem]

lemma opens (hle : ∀ i x, log[i]? = some x → n₀ + i ≤ x.nonce) (h : Takes n₀ log delivered front fine r k ms)
    (hopens : Opens (opening sealInPlace log) r r') : ∃ ms', Takes n₀ log delivered front fine r' (k + 1) ms' := by
  cases hopens with
  | @mk len plain htaken hwhole hnonce hopen =>
    have hget := opening_some hle h.nonces h.nonce hopen
    obtain ⟨hlt, heq⟩ := List.getElem?_eq_some_iff.mp hget
    obtain ⟨hframe, hshort⟩ := eq_frame_of_wholeMessage hwhole
    have htake : log.take (k + 1) = log.take k ++ [⟨r.nonce, plain, r.message len⟩] := by
      rw [take_succ_eq_append_getElem hlt, heq]
    have hall := h.text
    rw [drop_eq_nil_of_le htaken, append_nil] at hall
    refine ⟨ms ++ [r.message len], hlt, ?_, ?_, ?_, ?_, short_append h.short hshort, ?_⟩
    · intro i x hi hx
      obtain hi | rfl := Nat.lt_succ_iff_lt_or_eq.mp hi
      · exact h.nonces i x hi hx
      · rw [hget] at hx
        cases hx
        exact h.nonce
    · dsimp only
      rw [h.nonce, add_assoc]
    · have hone : plaintext [(⟨r.nonce, plain, r.message len⟩ : Sealed)] = plain := append_nil _
      rw [htake, plaintext_append, hone, ← hall, drop_zero]
    · dsimp only [Received.dropMessage]
      rw [frames_append, frames_cons, frames_nil, append_nil, append_assoc, ← hframe, h.bytes]
    · intro hfine
      rw [h.fine hfine, htake, map_append]
      rfl

lemma mono (h : Takes n₀ log delivered front fine r k ms) (hlog : log <+: log') :
    Takes n₀ log' delivered front fine r k ms := by
  obtain ⟨later, rfl⟩ := hlog
  have htake : (log ++ later).take k = log.take k := take_append_of_le_length h.le_length
  refine ⟨?_, fun i x hi hx => ?_, h.nonce, ?_, h.bytes, h.short, ?_⟩
  · rw [length_append]
    exact h.le_length.trans (le_add_right _ _)
  · rw [getElem?_append_left (hi.trans_le h.le_length)] at hx
    exact h.nonces i x hi hx
  · rw [htake, h.text]
  · rw [htake]
    exact h.fine

end Takes

/-! ## Nonces -/

lemma nextLoop_nonce (c : Cipher) (max n : ℕ) (hmax : r.nonce ≤ maxNonce) :
    r.nonce ≤ (Received.nextLoop c max n r).2.nonce ∧ (Received.nextLoop c max n r).2.nonce ≤ maxNonce ∧
      openedLoop c max n r = range' r.nonce ((Received.nextLoop c max n r).2.nonce - r.nonce) := by
  induction n generalizing r with
  | zero =>
    refine ⟨le_rfl, hmax, ?_⟩
    simp [Received.nextLoop, openedLoop]
  | succ n ih =>
    cases htake : r.take max with
    | some taken =>
      have hnonce : taken.2.nonce = r.nonce := by
        unfold Received.take at htake
        split at htake
        · cases htake
        · cases htake
          rfl
      simp only [Received.nextLoop, openedLoop, htake, hnonce]
      refine ⟨le_rfl, hmax, ?_⟩
      simp
    | none =>
      cases hwhole : r.wholeMessage with
      | none =>
        simp only [Received.nextLoop, openedLoop, htake, hwhole]
        split
        · refine ⟨le_rfl, hmax, ?_⟩
          simp
        · split
          · refine ⟨le_rfl, hmax, ?_⟩
            simp
          · refine ⟨le_rfl, hmax, ?_⟩
            simp
      | some len =>
        simp only [Received.nextLoop, openedLoop, htake, hwhole]
        split
        · refine ⟨le_rfl, hmax, ?_⟩
          simp [Received.dropMessage]
        · next hnonce =>
          cases hopen : c.openInPlace r.nonce (r.message len) with
          | none =>
            dsimp only
            refine ⟨le_succ _, by omega, ?_⟩
            simp
          | some plain =>
            dsimp only
            generalize hr : ({ r.dropMessage len with nonce := r.nonce + 1, plain, taken := 0 } : Received) = r₁
            have hnonce₁ : r₁.nonce = r.nonce + 1 := by rw [← hr]
            obtain ⟨hle, hle', heq⟩ := ih (r := r₁) (by omega)
            refine ⟨by omega, hle', ?_⟩
            rw [heq, hnonce₁, ← range'_succ]
            congr 1
            omega

/-- `next` goes through consecutive nonces. -/
theorem next_nonce {c : Cipher} {x : Except ReadError (Option Bytes)} (hmax : r.nonce ≤ maxNonce)
    (hnext : r.next c max = (x, r')) : r.nonce ≤ r'.nonce ∧ r'.nonce ≤ maxNonce ∧
      opened c max r = range' r.nonce (r'.nonce - r.nonce) := by
  unfold Received.next at hnext
  unfold opened
  split at hnext
  · next hfailed =>
    cases hnext
    rw [if_pos hfailed]
    refine ⟨le_rfl, hmax, ?_⟩
    simp
  · next hfailed =>
    rw [if_neg hfailed]
    have hloop := nextLoop_nonce c max (r.ciphertext.length + 1) hmax
    rwa [hnext] at hloop

/-! ## Reads -/

/-- What reads have returned. -/
def delivered (results : List (Except ReadError Bytes)) : Bytes :=
  (results.filterMap Except.toOption).flatten

/-- What a look at `receive` adds to the results. -/
def reported (results : List (Except ReadError Bytes)) :
    Except ReadError (Option Bytes) → List (Except ReadError Bytes)
  | .ok none => results
  | .ok (some bytes) => results ++ [.ok bytes]
  | .error e => results ++ [.error e]

section Results

variable {results : List (Except ReadError Bytes)} {bytes : Bytes} {e : ReadError}

@[simp] lemma delivered_ok : delivered (results ++ [.ok bytes]) = delivered results ++ bytes := by
  simp [delivered, Except.toOption]

@[simp] lemma delivered_error : delivered (results ++ [.error e]) = delivered results := by
  simp [delivered, Except.toOption]

def Fine (results : List (Except ReadError Bytes)) : Prop := ∀ x ∈ results, ∃ bytes, x = .ok bytes

lemma Fine.of_append {x : Except ReadError Bytes} (h : Fine (results ++ [x])) : Fine results :=
  fun y hy => h y (mem_append_left _ hy)

lemma not_fine_error : ¬ Fine (results ++ [.error e]) := by
  intro h
  obtain ⟨bytes, hbytes⟩ := h (.error e) (mem_append_right _ mem_cons_self)
  cases hbytes

lemma take_some (h : r.take max = some (bytes, r')) :
    r' = { r with taken := r'.taken } ∧ bytes ++ r.plain.drop r'.taken = r.plain.drop r.taken ∧
      (1 ≤ max → bytes ≠ []) := by
  unfold Received.take at h
  split at h
  · cases h
  · next hlt =>
    cases h
    refine ⟨rfl, ?_, ?_⟩
    · dsimp only
      rw [drop_take]
      have hdrop : r.plain.drop (min (r.taken + max) r.plain.length) =
          (r.plain.drop r.taken).drop (min (r.taken + max) r.plain.length - r.taken) := by
        rw [drop_drop]
        congr 1
        omega
      rw [hdrop, take_append_drop]
    · intro hone hnil
      have hlength := congrArg length hnil
      rw [length_drop, length_take, length_nil] at hlength
      omega

end Results

/-- What reads have returned, and what is left of what was received. -/
structure Record (n₀ : ℕ) (log : List Sealed) (r : Received) (results : List (Except ReadError Bytes))
    (front : Bytes) : Prop where
  takes : r.failed = false → ∃ k ms, Takes n₀ log (delivered results) front (Fine results) r k ms
  text : delivered results <+: plaintext log
  rejected : .error .notAuthentic ∈ results → r.failed = true
  failed : r.failed = true → ¬ Fine results
  order : results.Pairwise fun x y => x = .error .notAuthentic → ∀ bytes, y ≠ .ok bytes
  clean : .ok [] ∈ results → r.failed = false ∧ r.ended = true ∧ r.ciphertext = [] ∧ r.plain.length ≤ r.taken

lemma plaintext_take_isPrefix (log : List Sealed) (k : ℕ) : plaintext (log.take k) <+: plaintext log := by
  refine ⟨plaintext (log.drop k), ?_⟩
  rw [← plaintext_append, take_append_drop]

lemma wholeMessage_nil (h : r.ciphertext = []) : r.wholeMessage = none := by
  unfold Received.wholeMessage
  rw [h]

namespace Record

variable {results : List (Except ReadError Bytes)} {front : Bytes}

section

variable (h : Record n₀ log r results front)

include h

lemma order_append {x : Except ReadError Bytes} (hx : r.failed → ∀ bytes, x ≠ .ok bytes) :
    (results ++ [x]).Pairwise fun x y => x = .error .notAuthentic → ∀ bytes, y ≠ .ok bytes := by
  rw [pairwise_append]
  refine ⟨h.order, pairwise_singleton _ _, ?_⟩
  intro y hy z hz hreject
  rw [mem_singleton] at hz
  subst hz
  subst hreject
  exact hx (h.rejected hy)

lemma next_failed (hfailed : r.failed) : Record n₀ log r (results ++ [.error .notAuthentic]) front := by
  refine ⟨fun hf => ?_, ?_, fun _ => hfailed, fun _ => not_fine_error, h.order_append fun _ => nofun, fun hmem => ?_⟩
  · rw [hfailed] at hf
    cases hf
  · rw [delivered_error]
    exact h.text
  · obtain hmem | hmem := mem_append.mp hmem
    · exact h.clean hmem
    · cases mem_singleton.mp hmem

lemma addError {e : ReadError} {k : ℕ} {ms : List Bytes} (hfailed : r.failed = false) (hclean : .ok [] ∉ results)
    (htakes : r'.failed = false → Takes n₀ log (delivered results) front False r' k ms)
    (hreject : e = .notAuthentic → r'.failed) : Record n₀ log r' (results ++ [.error e]) front := by
  refine ⟨fun hf => ?_, ?_, fun hmem => ?_, fun _ => not_fine_error, h.order_append fun _ => nofun, fun hmem => ?_⟩
  · obtain ⟨hk, hnonces, hnonce, htext, hbytes, hshort, -⟩ := htakes hf
    refine ⟨k, ms, hk, hnonces, hnonce, ?_, hbytes, hshort, fun hfine => absurd hfine not_fine_error⟩
    rwa [delivered_error]
  · rw [delivered_error]
    exact h.text
  · obtain hmem | hmem := mem_append.mp hmem
    · rw [h.rejected hmem] at hfailed
      cases hfailed
    · cases mem_singleton.mp hmem
      exact hreject rfl
  · obtain hmem | hmem := mem_append.mp hmem
    · exact absurd hmem hclean
    · cases mem_singleton.mp hmem

/-- Where the loop of a read stands. -/
structure Midway (n₀ : ℕ) (log : List Sealed) (r : Received) (results : List (Except ReadError Bytes))
    (front : Bytes) (r₁ : Received) : Prop where
  failed : r₁.failed = false
  ended : r₁.ended = r.ended
  takes : ∃ k ms, Takes n₀ log (delivered results) front (Fine results) r₁ k ms
  clean : .ok [] ∈ results → r₁ = r

lemma midway (hfailed : r.failed = false) : Midway n₀ log r results front r :=
  ⟨hfailed, rfl, h.takes hfailed, fun _ => rfl⟩

end

lemma Midway.opens {r₁ r₂ : Received} (hle : ∀ i x, log[i]? = some x → n₀ + i ≤ x.nonce)
    (h : Record n₀ log r results front) (hr₁ : Midway n₀ log r results front r₁)
    (hopens : Opens (opening sealInPlace log) r₁ r₂) : Midway n₀ log r results front r₂ := by
  obtain ⟨k, ms, htakes⟩ := hr₁.takes
  obtain ⟨ms', htakes'⟩ := htakes.opens hle hopens
  refine ⟨by rw [hopens.failed, hr₁.failed], ?_, ⟨_, _, htakes'⟩, fun hmem => ?_⟩
  · cases hopens
    exact hr₁.ended
  · -- after a clean end there is no message
    obtain ⟨-, -, hnil, -⟩ := h.clean hmem
    cases hopens with
    | mk _ hwhole =>
      rw [hr₁.clean hmem, wholeMessage_nil hnil] at hwhole
      cases hwhole

section

variable (h : Record n₀ log r results front) (hfailed : r.failed = false)

include h hfailed

lemma not_rejected : .error .notAuthentic ∉ results := by
  intro hmem
  rw [h.rejected hmem] at hfailed
  cases hfailed

lemma addBytes {r₁ : Received} {bytes : Bytes} (hr₁ : Midway n₀ log r results front r₁) (hmax : 1 ≤ max)
    (htake : r₁.take max = some (bytes, r')) : Record n₀ log r' (results ++ [.ok bytes]) front := by
  obtain ⟨k, ms, htakes⟩ := hr₁.takes
  obtain ⟨hr', hbytes, hne⟩ := take_some htake
  have htext : delivered (results ++ [.ok bytes]) ++ r₁.plain.drop r'.taken = plaintext (log.take k) := by
    rw [delivered_ok, append_assoc, hbytes, htakes.text]
  rw [hr']
  refine ⟨fun _ => ⟨k, ms, htakes.le_length, htakes.nonces, htakes.nonce, htext, htakes.bytes, htakes.short, fun hfine
    => htakes.fine hfine.of_append⟩, ?_, fun hmem => ?_, fun hf => ?_, h.order_append fun hf => ?_, fun hmem => ?_⟩
  · exact IsPrefix.trans ⟨_, htext⟩ (plaintext_take_isPrefix log k)
  · obtain hmem | hmem := mem_append.mp hmem
    · exact absurd hmem (h.not_rejected hfailed)
    · cases mem_singleton.mp hmem
  · cases hr₁.failed.symm.trans hf
  · cases hfailed.symm.trans hf
  · obtain hmem | hmem := mem_append.mp hmem
    · -- after a clean end there is no plaintext
      obtain ⟨-, -, -, htaken⟩ := h.clean hmem
      rw [hr₁.clean hmem, Received.take_eq_none.mpr htaken] at htake
      cases htake
    · cases mem_singleton.mp hmem
      exact absurd rfl (hne hmax)

lemma addEnd {r₁ : Received} (hr₁ : Midway n₀ log r results front r₁) (htaken : r₁.plain.length ≤ r₁.taken)
    (hended : r₁.ended) (hnil : r₁.ciphertext = []) : Record n₀ log r₁ (results ++ [.ok []]) front := by
  obtain ⟨k, ms, htakes⟩ := hr₁.takes
  have hsame : delivered (results ++ [.ok []]) = delivered results := by
    rw [delivered_ok, append_nil]
  refine ⟨fun _ => ⟨k, ms, htakes.le_length, htakes.nonces, htakes.nonce, ?_, htakes.bytes, htakes.short,
    fun hfine => htakes.fine hfine.of_append⟩, ?_, fun hmem => ?_, fun hf => ?_, h.order_append fun hf => ?_,
    fun _ => ⟨hr₁.failed, hended, hnil, htaken⟩⟩
  · rw [hsame]
    exact htakes.text
  · rw [hsame]
    exact h.text
  · obtain hmem | hmem := mem_append.mp hmem
    · exact absurd hmem (h.not_rejected hfailed)
    · cases mem_singleton.mp hmem
  · cases hr₁.failed.symm.trans hf
  · cases hfailed.symm.trans hf

end

/-- **A read.** -/
theorem next {x : Except ReadError (Option Bytes)} (hle : ∀ i x, log[i]? = some x → n₀ + i ≤ x.nonce)
    (h : Record n₀ log r results front) (hmax : 1 ≤ max) (hnext : r.next (opening sealInPlace log) max = (x, r')) :
    Record n₀ log r' (reported results x) front := by
  cases hfailed : r.failed with
  | true =>
    rw [Received.next_of_failed hfailed] at hnext
    cases hnext
    exact h.next_failed hfailed
  | false =>
    obtain ⟨r₁, hr₁, hstops⟩ := Received.next_cases (I := Midway n₀ log r results front)
      (fun r₁ r₂ hr₁ hopens => hr₁.opens hle h hopens) (h.midway hfailed) hfailed hnext
    obtain ⟨k, ms, htakes⟩ := hr₁.takes
    -- where a whole message is there, the end has not been reported
    have hopen : ∀ {len}, r₁.wholeMessage = some len → .ok [] ∉ results := by
      intro len hwhole hmem
      obtain ⟨-, -, hnil, -⟩ := h.clean hmem
      rw [hr₁.clean hmem, wholeMessage_nil hnil] at hwhole
      cases hwhole
    cases hstops with
    | takes htake => exact h.addBytes hfailed hr₁ hmax htake
    | waits htaken hwhole hended =>
      refine ⟨fun _ => hr₁.takes, h.text, fun hmem => ?_, fun hf => ?_, h.order, fun hmem => ?_⟩
      · exact absurd hmem (h.not_rejected hfailed)
      · cases hr₁.failed.symm.trans hf
      · rw [hr₁.clean hmem]
        exact h.clean hmem
    | ends htaken hended hnil => exact h.addEnd hfailed hr₁ htaken hended hnil
    | cut hwhole hended hne =>
      refine h.addError hfailed (fun hmem => ?_) (fun _ => ⟨htakes.le_length, htakes.nonces, htakes.nonce, htakes.text,
        htakes.bytes, htakes.short, False.elim⟩) nofun
      obtain ⟨-, -, hnil, -⟩ := h.clean hmem
      rw [hr₁.clean hmem] at hne
      exact hne hnil
    | @usedUp len hwhole hnonce =>
      obtain ⟨hframe, hshort⟩ := eq_frame_of_wholeMessage hwhole
      have hbytes : frames (ms ++ [r₁.message len]) ++ (r₁.dropMessage len).ciphertext = front := by
        dsimp only [Received.dropMessage]
        rw [frames_append, frames_cons, frames_nil, append_nil, append_assoc, ← hframe, htakes.bytes]
      exact h.addError hfailed (hopen hwhole) (fun _ => ⟨htakes.le_length, htakes.nonces, htakes.nonce,
        htakes.text, hbytes, Takes.short_append htakes.short hshort, False.elim⟩) nofun
    | rejected hwhole hnonce hreject =>
      have htakes' : ∀ r' : Received, r'.failed = true → r'.failed = false →
          Takes n₀ log (delivered results) front False r' k ms := by
        intro r' hf hf'
        cases hf.symm.trans hf'
      exact h.addError hfailed (hopen hwhole) (htakes' _ rfl) fun _ => rfl

lemma mono (h : Record n₀ log r results front) (hlog : log <+: log') : Record n₀ log' r results front := by
  refine ⟨fun hf => ?_, ?_, h.rejected, h.failed, h.order, h.clean⟩
  · obtain ⟨k, ms, htakes⟩ := h.takes hf
    exact ⟨k, ms, htakes.mono hlog⟩
  · obtain ⟨later, rfl⟩ := hlog
    rw [plaintext_append]
    exact h.text.trans (prefix_append _ _)

lemma receive (h : Record n₀ log r results front) (hended : r.ended = false) (bytes : Bytes) :
    Record n₀ log (r.receive bytes) results (front ++ bytes) := by
  refine ⟨fun hf => ?_, h.text, h.rejected, h.failed, h.order, fun hmem => ?_⟩
  · obtain ⟨k, ms, htakes⟩ := h.takes hf
    refine ⟨k, ms, htakes.le_length, htakes.nonces, htakes.nonce, htakes.text, ?_, htakes.short, htakes.fine⟩
    rw [Received.receive_ciphertext, ← append_assoc, htakes.bytes]
  · obtain ⟨-, hend, -⟩ := h.clean hmem
    rw [hended] at hend
    cases hend

end Record

end RocNet.Noise
