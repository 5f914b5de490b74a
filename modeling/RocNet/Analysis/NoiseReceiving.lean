import RocNet.Model.NoiseMessages

/-!
# What a read finds in the ciphertext received

`next` opens one message after the other (`Opens`) until it stops for one of six reasons (`Stops`).
-/

namespace RocNet.Noise.Received

variable {c : Cipher} {r r' : Received} {max n len : ℕ}

lemma take_eq_none : r.take max = none ↔ r.plain.length ≤ r.taken := by
  unfold take
  split
  · next h => exact ⟨fun _ => h, fun _ => rfl⟩
  · next h => exact ⟨nofun, fun hle => absurd hle h⟩

lemma le_length_of_wholeMessage (h : r.wholeMessage = some len) : 2 + len ≤ r.ciphertext.length := by
  unfold wholeMessage at h
  split at h
  · dsimp only at h
    split at h
    · next hle =>
      cases h
      exact hle
    · cases h
  · cases h

/-- The next message is opened. -/
inductive Opens (c : Cipher) (r : Received) : Received → Prop
  | mk {len : ℕ} {plain : Bytes} (htaken : r.plain.length ≤ r.taken) (hwhole : r.wholeMessage = some len)
      (hnonce : r.nonce ≠ maxNonce) (hopen : c.openInPlace r.nonce (r.message len) = some plain) :
      Opens c r { r.dropMessage len with nonce := r.nonce + 1, plain, taken := 0 }

/-- Why the loop stops, with what it returns and leaves. -/
inductive Stops (c : Cipher) (max : ℕ) (r : Received) : Except ReadError (Option Bytes) → Received → Prop
  | takes {bytes : Bytes} {r' : Received} (htake : r.take max = some (bytes, r')) : Stops c max r (.ok (some bytes)) r'
  | waits (htaken : r.plain.length ≤ r.taken) (hwhole : r.wholeMessage = none) (hended : r.ended = false) :
      Stops c max r (.ok none) r
  | ends (htaken : r.plain.length ≤ r.taken) (hended : r.ended = true) (hnil : r.ciphertext = []) :
      Stops c max r (.ok (some [])) r
  | cut (hwhole : r.wholeMessage = none) (hended : r.ended = true) (hne : r.ciphertext ≠ []) :
      Stops c max r (.error .unexpectedEof) r
  | usedUp {len : ℕ} (hwhole : r.wholeMessage = some len) (hnonce : r.nonce = maxNonce) :
      Stops c max r (.error .noncesUsedUp) (r.dropMessage len)
  | rejected {len : ℕ} (hwhole : r.wholeMessage = some len) (hnonce : r.nonce ≠ maxNonce)
      (hopen : c.openInPlace r.nonce (r.message len) = none) :
      Stops c max r (.error .notAuthentic) { r.dropMessage len with nonce := r.nonce + 1, failed := true }

/-- **The loop rule.** What holds before the loop and is kept by opening a message holds where the loop
stops. -/
theorem nextLoop_enough {I : Received → Prop} (max : ℕ) (hopens : ∀ r r', I r → Opens c r r' → I r') (h : I r)
    (hn : r.ciphertext.length < n) : ∃ r₁, I r₁ ∧ Stops c max r₁ (nextLoop c max n r).1 (nextLoop c max n r).2 := by
  induction n generalizing r with
  | zero => exact absurd hn (Nat.not_lt_zero _)
  | succ n ih =>
    unfold nextLoop
    split
    · next htake => exact ⟨r, h, .takes htake⟩
    · next htake =>
      have htaken := take_eq_none.mp htake
      split
      · next hwhole =>
        by_cases hended : r.ended = true
        · simp only [hended, Bool.not_true, Bool.false_eq_true, if_false]
          split
          · next hnil => exact ⟨r, h, .ends htaken hended (List.isEmpty_iff.mp hnil)⟩
          · next hne =>
            rw [List.isEmpty_iff] at hne
            exact ⟨r, h, .cut hwhole hended hne⟩
        · rw [Bool.not_eq_true] at hended
          simp only [hended, Bool.not_false, if_true]
          exact ⟨r, h, .waits htaken hwhole hended⟩
      · next len hwhole =>
        split
        · next hnonce => exact ⟨r, h, .usedUp hwhole hnonce⟩
        · next hnonce =>
          dsimp only
          split
          · next hopen => exact ⟨r, h, .rejected hwhole hnonce hopen⟩
          · next plain hopen =>
            apply ih (hopens _ _ h (.mk htaken hwhole hnonce hopen))
            have hle := le_length_of_wholeMessage hwhole
            simp only [dropMessage, List.length_drop]
            omega

lemma next_cases {I : Received → Prop} (hopens : ∀ r r', I r → Opens c r r' → I r') (h : I r)
    (hfailed : r.failed = false) (hnext : r.next c max = (x, r')) : ∃ r₁, I r₁ ∧ Stops c max r₁ x r' := by
  have hstops := nextLoop_enough max hopens h (Nat.lt_succ_self r.ciphertext.length)
  unfold next at hnext
  rw [if_neg (by rw [hfailed]; exact Bool.false_ne_true)] at hnext
  rwa [hnext] at hstops

lemma next_of_failed (hfailed : r.failed) : r.next c max = (.error .notAuthentic, r) := by
  unfold next
  rw [if_pos hfailed]

lemma Opens.failed (h : Opens c r r') : r'.failed = r.failed := by
  cases h
  rfl

lemma next_none (h : r.next c max = (.ok none, r')) : r'.readable = false := by
  cases hfailed : r.failed with
  | true =>
    rw [next_of_failed hfailed] at h
    cases h
  | false =>
    have hkept : ∀ r r', r.failed = false → Opens c r r' → r'.failed = false := by
      intro r r' hr hopens
      rw [hopens.failed, hr]
    obtain ⟨r₁, hr₁, hstops⟩ := next_cases hkept hfailed hfailed h
    cases hstops with
    | waits htaken hwhole hended => simp [readable, hwhole, hended, hr₁, Nat.not_lt.mpr htaken]

end RocNet.Noise.Received
