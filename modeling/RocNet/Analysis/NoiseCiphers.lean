import RocNet.Analysis.NoiseExchange

/-!
# Transport messages after a handshake

`CipherState.encrypt!` and `decrypt!` of `platform/Noise.roc`, with the states that `finish` gives the two sides. Each
direction has its own, so what is sent one way does not depend on what goes the other.
-/

namespace RocNet.NoiseHandshake

open Fallible List

/-! ## Cipher states -/

section CipherState

variable {P : Primitives} {c : CipherState} {associatedData plaintext : List UInt8} {n : ℕ}

/-- The ciphertext of a message under a nonce. -/
def CipherState.sealed (P : Primitives) (c : CipherState) (associatedData : List UInt8) (n : ℕ)
    (plaintext : List UInt8) : List UInt8 :=
  P.aeadSeal c.cipher c.key (nonceBytes c.cipher n) associatedData plaintext

lemma add64_one (hn : n < highest) : (add64 n 1 : Result HandshakeErr Crash ℕ) = .ok (n + 1) :=
  add64_of_lt (Nat.lt_of_le_of_lt hn (by decide))

lemma encrypt_eq (hkey : c.key.length = 32) (hn : n < highest) : CipherState.encrypt P { c with nonce := n }
      associatedData plaintext = .ok (c.sealed P associatedData n plaintext, { c with nonce := n + 1 }) := by
  unfold CipherState.encrypt sealWith
  simp only [if_neg hn.ne, if_pos (accepted_of_length hkey c.cipher n), add64_one hn]
  rfl

lemma decrypt_eq (hopens : P.OpensSealed) (hkey : c.key.length = 32) (hn : n < highest) :
    CipherState.decrypt P { c with nonce := n } associatedData (c.sealed P associatedData n plaintext) =
      .ok (plaintext, { c with nonce := n + 1 }) := by
  unfold CipherState.decrypt openWith CipherState.sealed
  simp only [if_neg hn.ne, if_pos (accepted_of_length hkey c.cipher n), hopens.opens, add64_one hn]
  rfl

end CipherState

/-! ## Messages one after the other -/

section Messages

variable (P : Primitives)

/-- Encrypt messages, each with its associated data, one after the other. -/
def encryptAll : CipherState → List (List UInt8 × List UInt8) →
    Result HandshakeErr Crash (List (List UInt8 × List UInt8) × CipherState)
  | c, [] => pure ([], c)
  | c, (associatedData, plaintext) :: messages => do
    let (sealed, c) ← c.encrypt P associatedData plaintext
    let (rest, c) ← encryptAll c messages
    pure ((associatedData, sealed) :: rest, c)

/-- Decrypt messages that came in this order. -/
def decryptAll : CipherState → List (List UInt8 × List UInt8) →
    Result HandshakeErr Crash (List (List UInt8) × CipherState)
  | c, [] => pure ([], c)
  | c, (associatedData, sealed) :: messages => do
    let (plaintext, c) ← c.decrypt P associatedData sealed
    let (rest, c) ← decryptAll c messages
    pure (plaintext :: rest, c)

variable {P} {c : CipherState} {n : ℕ}

lemma encryptAll_decryptAll (hopens : P.OpensSealed) (hkey : c.key.length = 32)
    (messages : List (List UInt8 × List UInt8)) (hn : n + messages.length ≤ highest) :
    ∃ sealed, encryptAll P { c with nonce := n } messages = .ok (sealed, { c with nonce := n + messages.length }) ∧
      decryptAll P { c with nonce := n } sealed =
        .ok (messages.map Prod.snd, { c with nonce := n + messages.length }) := by
  induction messages generalizing n with
  | nil => exact ⟨[], rfl, rfl⟩
  | cons m messages ih =>
    rw [length_cons] at hn
    obtain ⟨sealed, hencrypt, hdecrypt⟩ := @ih (n + 1) (by omega)
    have hlen : n + 1 + messages.length = n + (m :: messages).length := by
      rw [length_cons]
      omega
    rw [hlen] at hencrypt hdecrypt
    refine ⟨(m.1, c.sealed P m.1 n m.2) :: sealed, ?_, ?_⟩
    · rw [encryptAll, encrypt_eq hkey (by omega), ok_bind]
      dsimp only
      rw [hencrypt]
      rfl
    · rw [decryptAll, decrypt_eq hopens hkey (by omega), ok_bind]
      dsimp only
      rw [hdecrypt]
      rfl

lemma encryptAll_exhausted (hkey : c.key.length = 32) (hn : n ≤ highest)
    (messages : List (List UInt8 × List UInt8)) (hlong : highest < n + messages.length) :
    encryptAll P { c with nonce := n } messages = fail .nonceExhausted := by
  induction messages generalizing n with
  | nil => exact absurd hlong (Nat.not_lt.mpr hn)
  | cons m messages ih =>
    rw [length_cons] at hlong
    rcases Nat.eq_or_lt_of_le hn with rfl | hlt
    · rfl
    · rw [encryptAll, encrypt_eq hkey hlt, ok_bind]
      dsimp only
      rw [ih hlt (by omega)]
      rfl

end Messages

/-! ## After a handshake -/

variable {P : Primitives} {used : Role → SecretKey → Prop} {c₁ c₂ : Config} {a b : Handshake} {y : Role → Handshake}

lemma finish_fresh (h : finish P a = some f) : f.send.nonce = 0 ∧ f.send.key.length = 32 := by
  unfold finish at h
  split at h
  · cases h
  · cases h
    cases a.role <;> exact ⟨rfl, tag_length _ _⟩

/-- **Transport messages.** After a handshake of two configurations that match, whatever one side encrypts, up to
`2 ^ 64 - 1` messages, the other decrypts in the same order, and the two states stay the same, so that their next
messages have nonces that were not used; one message more fails with `NonceExhausted`. -/
theorem transport_reads_back (hopens : P.OpensSealed) (hcompat : Compatible P used) (hrole : c₁.role = .initiator)
    (hmatch : Matching P c₁ c₂) (huses : c₁.Uses used) (huses' : c₂.Uses used) (hstart : start P c₁ = .ok a)
    (hstart' : start P c₂ = .ok b)
    (hy : Transition.ReachableBy (alternation P (sides a b)) (fun _ l => used l.writer l.fresh) y)
    (hdone : (y .initiator).isFinished) :
    ∀ r, ∃ mine theirs, finish P (y r) = some mine ∧ finish P (y r.other) = some theirs ∧ ∀ messages,
      (messages.length ≤ highest → ∃ sealed, encryptAll P mine.send messages =
          .ok (sealed, { mine.send with nonce := messages.length }) ∧ decryptAll P theirs.receive sealed =
          .ok (messages.map Prod.snd, { mine.send with nonce := messages.length })) ∧
      (highest < messages.length → encryptAll P mine.send messages = fail .nonceExhausted) := by
  have hboth : Both P used y := by
    refine hy.invariant (I := Both P used) ?_ ?_
    · rintro _ rfl
      exact both_sides hrole hmatch huses huses' hstart hstart'
    · intro y l y' hfresh h hstep
      exact h.step hcompat hopens hfresh hstep
  intro r
  have hend : (y r).messages.length ≤ (y r).index := by
    rw [(hboth.index_eq .initiator r).1, (hboth.index_eq .initiator r).2]
    exact of_decide_eq_true hdone
  obtain ⟨f, g, hf, hg, hresults⟩ := finish_agrees (hboth r).2 hend
  obtain ⟨hzero, hkey⟩ := finish_fresh hf
  have hsend : f.send = { f.send with nonce := 0 } := by rw [← hzero]
  refine ⟨f, g, hf, hg, fun messages => ⟨fun hle => ?_, fun hlt => ?_⟩⟩
  · have hall := encryptAll_decryptAll hopens hkey (n := 0) messages (by omega)
    rw [← hresults.there]
    rwa [← hsend, Nat.zero_add] at hall
  · have hfail := encryptAll_exhausted (P := P) hkey (Nat.zero_le _) messages (by omega)
    rwa [← hsend] at hfail

/-- After a handshake with psks, the responder sends a byte. -/
theorem transport_reads_back_knownKey : ∃ y mine theirs sealed,
    Transition.ReachableBy (alternation zeros nkStarted) (fun _ _ => True) y ∧
      finish zeros (y .responder) = some mine ∧ finish zeros (y .initiator) = some theirs ∧
      encryptAll zeros mine.send [([], [7])] = .ok (sealed, { mine.send with nonce := 1 }) ∧
      decryptAll zeros theirs.receive sealed = .ok ([[7]], { mine.send with nonce := 1 }) := by
  obtain ⟨y, hy, hdone⟩ := Transition.exists_reachableBy_of_runBy (alternation zeros nkStarted) (fun _ _ => True)
    (s := nkStarted) rfl [⟨.initiator, [5], keyOf 3⟩, ⟨.responder, [], keyOf 4⟩] (fun y => (y .initiator).isFinished)
    (by decide)
  have hmatch : Matching zeros nkInitiator nkResponder := by
    refine ⟨rfl, rfl, rfl, rfl, .swap _ _ _, ?_, ?_⟩
    · intro hpre
      cases hpre
    · intro _ key hkey
      cases hkey
      rfl
  have hcompat : Compatible zeros fun _ _ => True := fun x y _ _ => ⟨replicate 32 0, rfl, rfl⟩
  have huses : ∀ c : Config, c.Uses fun _ _ => True := fun c => ⟨fun _ _ => trivial, fun _ _ => trivial⟩
  obtain ⟨mine, theirs, hmine, htheirs, hall⟩ :=
    transport_reads_back zeros_opensSealed hcompat rfl hmatch (huses _) (huses _) rfl rfl hy hdone .responder
  obtain ⟨sealed, hencrypt, hdecrypt⟩ := (hall [([], [7])]).1 (by decide)
  exact ⟨y, mine, theirs, sealed, hy, hmine, htheirs, hencrypt, hdecrypt⟩

end RocNet.NoiseHandshake
