import RocNet.Analysis.NoiseCrashes

/-!
# Two sides of a handshake in step

The two sides have the same symmetric state, and each has the other's public keys as far as both have them (`Mirror`);
every token, and so every message, keeps that so.

X25519 succeeds and commutes on the secret keys that the sides use, and the AEADs open what they sealed.
-/

namespace RocNet.NoiseHandshake

open List Fallible

variable {P : Primitives} {used : Role → SecretKey → Prop} {k : Known} {a b : Handshake}
  {sym : Symmetric} {token : Token} {tokens : List Token}

/-! ## What the primitives do -/

/-- X25519 gives the owners of both keys one secret. -/
def Primitives.Agrees (P : Primitives) (x y : SecretKey) : Prop :=
  ∃ shared, P.x25519Shared x (P.x25519PublicKey y) = some shared ∧ P.x25519Shared y (P.x25519PublicKey x) = some shared

/-- Sealing adds sixteen bytes, and is undone by opening. -/
structure Primitives.OpensSealed (P : Primitives) : Prop where
  opens : ∀ cipher key nonce associatedData plaintext,
    P.aeadOpen cipher key nonce associatedData (P.aeadSeal cipher key nonce associatedData plaintext) = some plaintext
  length : ∀ cipher key nonce associatedData plaintext,
    (P.aeadSeal cipher key nonce associatedData plaintext).length = plaintext.length + 16

/-! ## Two sides -/

structure Shares (P : Primitives) (used : Role → SecretKey → Prop) (k : Known) (a b : Handshake) :
    Prop where
  e : k.e a.role = true → ∃ x, used a.role x ∧ a.e = some (P.pair x) ∧ b.re = some (P.x25519PublicKey x)
  s : k.s a.role = true → ∃ x, used a.role x ∧ a.s = some (P.pair x) ∧ b.rs = some (P.x25519PublicKey x)
  own : ∀ pair, a.s = some pair → ∃ x, used a.role x ∧ pair = P.pair x
  fixed : ∀ x, a.ephemeral = .fixed x → used a.role x

/-- The two sides of a handshake. -/
structure Mirror (P : Primitives) (used : Role → SecretKey → Prop) (k : Known) (a b : Handshake) :
    Prop where
  role : b.role = a.role.other
  sym : b.sym = a.sym
  psks : b.psks = a.psks
  pskMode : b.pskMode = a.pskMode
  messages : b.messages = a.messages
  index : b.index = a.index
  mine : Shares P used k a b
  theirs : Shares P used k b a

lemma other_other (role : Role) : role.other.other = role := by
  cases role <;> rfl

lemma Mirror.symm (h : Mirror P used k a b) : Mirror P used k b a where
  role := by rw [h.role, other_other]
  sym := h.sym.symm
  psks := h.psks.symm
  pskMode := h.pskMode.symm
  messages := h.messages.symm
  index := h.index.symm
  mine := h.theirs
  theirs := h.mine

/-- The secret keys of the two sides agree. -/
def Compatible (P : Primitives) (used : Role → SecretKey → Prop) : Prop :=
  ∀ x y, used .initiator x → used .responder y → P.Agrees x y

variable {x : SecretKey} {sym' : Symmetric} {pub : PublicKey}

lemma dh_of_keys (hkeys : dhKeys a token = (some (P.pair x), some (P.x25519PublicKey y)))
    (hshared : P.x25519Shared x (P.x25519PublicKey y) = some shared) : dh P a token = .ok shared := by
  unfold dh
  rw [hkeys]
  dsimp only [Primitives.pair]
  rw [hshared]
  rfl

/-- A Diffie-Hellman token gives the initiator and the responder the same secret. -/
theorem dh_agrees_of_initiator (hcompat : Compatible P used) (hm : Mirror P used k a b)
    (ha : a.role = .initiator) (hdh : token.isDh) (hallows : k.allows token) :
    ∃ shared, dh P a token = .ok shared ∧ dh P b token = .ok shared := by
  have hb : b.role = .responder := by rw [hm.role, ha]; rfl
  obtain ⟨hae, has, -, -⟩ := hm.mine
  obtain ⟨hbe, hbs, -, -⟩ := hm.theirs
  rw [ha] at hae has
  rw [hb] at hbe hbs
  have hagree : ∀ x y, used .initiator x → used .responder y →
      dhKeys a token = (some (P.pair x), some (P.x25519PublicKey y)) →
      dhKeys b token = (some (P.pair y), some (P.x25519PublicKey x)) →
      ∃ shared, dh P a token = .ok shared ∧ dh P b token = .ok shared := by
    intro x y hx hy hkeys hkeys'
    obtain ⟨shared, hxy, hyx⟩ := hcompat x y hx hy
    exact ⟨shared, dh_of_keys hkeys hxy, dh_of_keys hkeys' hyx⟩
  cases token with
  | e | s | psk => cases hdh
  | ee =>
    obtain ⟨hi, hr⟩ := Bool.and_eq_true_iff.mp hallows
    obtain ⟨x, hx, hpair, hpub⟩ := hae hi
    obtain ⟨y, hy, hpair', hpub'⟩ := hbe hr
    apply hagree x y hx hy <;> simp [dhKeys, *]
  | es =>
    obtain ⟨hi, hr⟩ := Bool.and_eq_true_iff.mp hallows
    obtain ⟨x, hx, hpair, hpub⟩ := hae hi
    obtain ⟨y, hy, hpair', hpub'⟩ := hbs hr
    apply hagree x y hx hy <;> simp [dhKeys, *]
  | se =>
    obtain ⟨hi, hr⟩ := Bool.and_eq_true_iff.mp hallows
    obtain ⟨x, hx, hpair, hpub⟩ := has hi
    obtain ⟨y, hy, hpair', hpub'⟩ := hbe hr
    apply hagree x y hx hy <;> simp [dhKeys, *]
  | ss =>
    obtain ⟨hi, hr⟩ := Bool.and_eq_true_iff.mp hallows
    obtain ⟨x, hx, hpair, hpub⟩ := has hi
    obtain ⟨y, hy, hpair', hpub'⟩ := hbs hr
    apply hagree x y hx hy <;> simp [dhKeys, *]

lemma dh_agrees (hcompat : Compatible P used) (hm : Mirror P used k a b) (hdh : token.isDh)
    (hallows : k.allows token) : ∃ shared, dh P a token = .ok shared ∧ dh P b token = .ok shared := by
  cases ha : a.role with
  | initiator => exact dh_agrees_of_initiator hcompat hm ha hdh hallows
  | responder =>
    have hb : b.role = .initiator := by rw [hm.role, ha]; rfl
    obtain ⟨shared, hshared, hshared'⟩ := dh_agrees_of_initiator hcompat hm.symm hb hdh hallows
    exact ⟨shared, hshared', hshared⟩

lemma seal_agrees (hopens : P.OpensSealed) (hkeyed : Keyed sym) (hn : sym.n < highest) (part : Part)
    (plaintext : List UInt8) :
    ∃ sealed sym', encryptAndHash P sym part plaintext = .ok (sealed, sym') ∧
      (∀ part', part' plaintext = part → decryptAndHash P sym part' sealed = .ok (plaintext, sym')) ∧
      sealed.length = plaintext.length + (if sym.k.isSome then 16 else 0) ∧ Keyed sym' ∧
      sym'.n ≤ sym.n + 1 := by
  cases hkey : sym.k with
  | none =>
    refine ⟨plaintext, mixHash P sym part plaintext, ?_, ?_, rfl, hkeyed.mixHash _ _, Nat.le_succ _⟩
    · unfold encryptAndHash
      rw [hkey]
      rfl
    · intro part' hpart
      unfold decryptAndHash
      rw [hkey, hpart]
      rfl
  | some key =>
    have haccepted := accepted_of_length (hkeyed.key key hkey) sym.cipher sym.n
    obtain ⟨hadd, hkeyed'⟩ := add64_nonce hkeyed hn.ne
    obtain ⟨sealed, hsealed⟩ :
      ∃ sealed, P.aeadSeal sym.cipher key (nonceBytes sym.cipher sym.n) sym.h plaintext = sealed := ⟨_, rfl⟩
    refine ⟨sealed, mixHash P { sym with n := sym.n + 1 } part sealed, ?_, ?_, ?_, hkeyed'.mixHash _ _, le_rfl⟩
    · unfold encryptAndHash sealWith
      rw [hkey]
      dsimp only
      rw [if_neg hn.ne, if_pos haccepted, hadd, hsealed]
      rfl
    · intro part' hpart
      unfold decryptAndHash openWith
      rw [hkey]
      dsimp only
      rw [if_neg hn.ne, if_pos haccepted, ← hsealed, hopens.opens, hadd, ← hpart]
      rfl
    · rw [← hsealed]
      apply hopens.length

/-! ## Tokens -/

lemma Shares.congr (h : Shares P used k a b) (hrole : a'.role = a.role) (he : a'.e = a.e) (hs : a'.s = a.s)
    (heph : a'.ephemeral = a.ephemeral) (hre : b'.re = b.re) (hrs : b'.rs = b.rs) : Shares P used k a' b' := by
  refine ⟨?_, ?_, ?_, ?_⟩
  · rw [hrole, he, hre]
    exact h.e
  · rw [hrole, hs, hrs]
    exact h.s
  · rw [hrole, hs]
    exact h.own
  · rw [hrole, heph]
    exact h.fixed

lemma Mirror.sent_e (hm : Mirror P used k a b)
    (hx : used a.role x) (hpub : pub = P.x25519PublicKey x) :
    Mirror P used (k.after a.role .e) { a with e := some (P.pair x), sym := sym' }
      { b with re := some pub, sym := sym' } := by
  obtain ⟨hrole, -, hpsks, hmode, hmessages, hindex, hmine, htheirs⟩ := hm
  refine ⟨hrole, rfl, hpsks, hmode, hmessages, hindex, ?_, ?_⟩
  · refine ⟨fun _ => ⟨x, hx, rfl, by rw [hpub]⟩, hmine.s, hmine.own, hmine.fixed⟩
  · refine ⟨fun he => ?_, htheirs.s, htheirs.own, htheirs.fixed⟩
    apply htheirs.e
    rw [hrole] at he ⊢
    exact (Known.after_e_of_ne (other_ne _)).symm.trans he

lemma Mirror.sent_s (hm : Mirror P used k a b)
    (hx : used a.role x) (hs : a.s = some (P.pair x)) (hpub : pub = P.x25519PublicKey x) :
    Mirror P used (k.after a.role .s) { a with sym := sym' } { b with rs := some pub, sym := sym' } := by
  obtain ⟨hrole, -, hpsks, hmode, hmessages, hindex, hmine, htheirs⟩ := hm
  refine ⟨hrole, rfl, hpsks, hmode, hmessages, hindex, ?_, ?_⟩
  · exact ⟨hmine.e, fun _ => ⟨x, hx, hs, by rw [hpub]⟩, hmine.own, hmine.fixed⟩
  · refine ⟨htheirs.e, fun hs => ?_, htheirs.own, htheirs.fixed⟩
    apply htheirs.s
    rw [hrole] at hs ⊢
    exact (Known.after_s_of_ne (other_ne _)).symm.trans hs

/-- Symmetric states, psks and indices that change in the same way leave the two sides in step. -/
theorem Mirror.updated (hm : Mirror P used k a b) (sym' : Symmetric) {psks psks' : List (List UInt8)}
    {i i' : ℕ} (hpsks : psks' = psks) (hi : i' = i) :
    Mirror P used k { a with psks, sym := sym', index := i }
      { b with psks := psks', sym := sym', index := i' } where
  role := hm.role
  sym := rfl
  psks := hpsks
  pskMode := hm.pskMode
  messages := hm.messages
  index := hi
  mine := hm.mine.congr rfl rfl rfl rfl rfl rfl
  theirs := hm.theirs.congr rfl rfl rfl rfl rfl rfl

/-- The two sides in the middle of a message that `a` writes, with these tokens left. The nonces stay
below the limit. -/
structure InStep (P : Primitives) (used : Role → SecretKey → Prop) (later : List (List Token))
    (last : Known) (limit : ℕ) (tokens : List Token) (a b : Handshake) : Prop where
  keys : ∃ k, Mirror P used k a b ∧ follow a.role tokens k = some last
  psks : tokens.count .psk + pskCount later ≤ a.psks.length
  keyed : Keyed a.sym
  sends : .s ∈ tokens → a.s.isSome = true
  nonces : a.sym.n + (plain tokens).length ≤ limit

lemma takeBytes_append (piece rest : List UInt8) {count : ℕ} (hcount : piece.length = count) :
    takeBytes (piece ++ rest) count = .ok (piece, rest) := by
  subst hcount
  unfold takeBytes
  rw [if_neg (by simp), take_left, drop_left]
  rfl

lemma publicKey_of_bytes (key : PublicKey) : publicKey key.bytes = .ok key := by
  unfold publicKey
  rw [dif_pos key.length]
  rfl

section Tokens

variable {later : List (List Token)} {last : Known} {limit : ℕ} {fresh : SecretKey} {a' b' : Handshake}

lemma InStep.advance (h : InStep P used later last limit (token :: tokens) a b) (hpsk : token ≠ .psk)
    (hmirror : ∀ k, Mirror P used k a b → k.allows token → Mirror P used (k.after a.role token) a' b')
    (hrole : a'.role = a.role) (hs : a'.s = a.s) (hpsks : a'.psks = a.psks) (hkeyed : Keyed a'.sym)
    (hn : a'.sym.n ≤ a.sym.n + 1) : InStep P used later last limit tokens a' b' := by
  obtain ⟨⟨k, hm, hfollow⟩, hcount, -, hsends, hnonces⟩ := h
  obtain ⟨hallows, hfollow'⟩ := follow_cons hfollow
  refine ⟨⟨_, hmirror k hm hallows, ?_⟩, ?_, hkeyed, ?_, ?_⟩
  · rwa [hrole]
  · rwa [hpsks, ← count_cons_of_ne hpsk]
  · rw [hs]
    exact fun hmem => hsends (mem_cons_of_mem _ hmem)
  · have hplain : plain (token :: tokens) = token :: plain tokens := filter_cons_of_pos (by simpa)
    rw [hplain, length_cons] at hnonces
    omega

/-- The effect of a token on the two sides: what is written is what is read. -/
def Agrees (P : Primitives) (fresh : SecretKey) (token : Token) (a b a' b' : Handshake) : Prop :=
  ∃ piece, (∀ out, writeToken P fresh (a, out) token = .ok (a', out ++ piece)) ∧
    ∀ rest, readToken P (b, piece ++ rest) token = .ok (b', rest)

lemma mixEphemeral_n (owner : Role) (bytes : List UInt8) : (mixEphemeral P a owner bytes).n ≤ a.sym.n + 1 := by
  unfold mixEphemeral
  split
  · apply Nat.zero_le
  · apply Nat.le_succ

lemma e_agrees (hfresh : used a.role fresh) (h : InStep P used later last limit (.e :: tokens) a b) :
    ∃ a' b', Agrees P fresh .e a b a' b' ∧ InStep P used later last limit tokens a' b' ∧ Same a a' ∧ Same b b' := by
  obtain ⟨k, hm, -⟩ := h.keys
  obtain ⟨x, hsecret⟩ : ∃ x, a.ephemeral.secret fresh = x := ⟨_, rfl⟩
  have hx : used a.role x := by
    rw [← hsecret]
    cases heph : a.ephemeral with
    | fixed secret => exact hm.mine.fixed secret heph
    | random => exact hfresh
  have hmix : mixEphemeral P b b.role.other (P.x25519PublicKey x).bytes =
      mixEphemeral P a a.role (P.x25519PublicKey x).bytes := by
    unfold mixEphemeral
    rw [hm.sym, hm.pskMode, hm.role, other_other]
  refine ⟨{ a with e := some (P.pair x), sym := mixEphemeral P a a.role (P.x25519PublicKey x).bytes }, { b with
      re := some (P.x25519PublicKey x), sym := mixEphemeral P a a.role (P.x25519PublicKey x).bytes },
    ⟨(P.x25519PublicKey x).bytes, fun out => ?_, fun rest => ?_⟩, ?_, ⟨rfl, rfl, rfl, rfl⟩,
    ⟨rfl, rfl, rfl, rfl⟩⟩
  · unfold writeToken
    dsimp only
    rw [hsecret]
    rfl
  · unfold readToken
    dsimp only
    rw [takeBytes_append _ _ (P.x25519PublicKey x).length, ok_bind, publicKey_of_bytes, ← hmix]
    rfl
  · refine h.advance nofun ?_ rfl rfl rfl (keyed_mixEphemeral h.keyed _) (mixEphemeral_n _ _)
    intro k hm _
    exact hm.sent_e hx rfl

lemma s_agrees (hopens : P.OpensSealed) (hlimit : limit ≤ highest)
    (h : InStep P used later last limit (.s :: tokens) a b) :
    ∃ a' b', Agrees P fresh .s a b a' b' ∧ InStep P used later last limit tokens a' b' ∧ Same a a' ∧ Same b b' := by
  obtain ⟨k, hm, -⟩ := h.keys
  obtain ⟨pair, hpair⟩ := Option.isSome_iff_exists.mp (h.sends mem_cons_self)
  obtain ⟨x, hx, rfl⟩ := hm.mine.own pair hpair
  have hn : a.sym.n < highest := by
    have hnonces := h.nonces
    rw [show plain (.s :: tokens) = .s :: plain tokens from rfl, length_cons] at hnonces
    omega
  obtain ⟨sealed, sym', hseal, hopen, hlength, hkeyed, hn'⟩ :=
    seal_agrees hopens h.keyed hn (.static a.role (P.x25519PublicKey x).bytes) (P.x25519PublicKey x).bytes
  have hopen' := hopen (.static b.role.other) (by rw [hm.role, other_other])
  have hlength' : sealed.length = if b.sym.k.isSome then 48 else 32 := by
    rw [hlength, (P.x25519PublicKey x).length, hm.sym]
    split <;> rfl
  refine ⟨{ a with sym := sym' }, { b with rs := some (P.x25519PublicKey x), sym := sym' },
    ⟨sealed, fun out => ?_, fun rest => ?_⟩, ?_, ⟨rfl, rfl, rfl, rfl⟩, ⟨rfl, rfl, rfl, rfl⟩⟩
  · unfold writeToken
    dsimp only
    rw [hpair]
    dsimp only [Primitives.pair]
    rw [hseal]
    rfl
  · unfold readToken
    dsimp only
    rw [takeBytes_append _ _ hlength', ok_bind, hm.sym, hopen', ok_bind, publicKey_of_bytes]
    rfl
  · refine h.advance nofun ?_ rfl rfl rfl hkeyed hn'
    intro k hm _
    exact hm.sent_s hx hpair rfl

lemma psk_agrees (h : InStep P used later last limit (.psk :: tokens) a b) :
    ∃ a' b', Agrees P fresh .psk a b a' b' ∧ InStep P used later last limit tokens a' b' ∧ Same a a' ∧ Same b b' := by
  obtain ⟨⟨k, hm, hfollow⟩, hcount, hkeyed, hsends, hnonces⟩ := h
  obtain ⟨psk, psks, hpsks⟩ : ∃ psk psks, a.psks = psk :: psks := by
    rw [count_cons_self] at hcount
    apply exists_cons_of_ne_nil
    intro hnil
    rw [hnil, length_nil] at hcount
    omega
  refine ⟨{ a with psks, sym := mixKeyAndHash P a.sym psk }, { b with psks, sym := mixKeyAndHash P a.sym psk },
    ⟨[], fun out => ?_, fun rest => ?_⟩, ?_, ⟨rfl, rfl, rfl, rfl⟩, ⟨rfl, rfl, rfl, rfl⟩⟩
  · simp only [writeToken, usePsk, hpsks, append_nil]
    rfl
  · simp only [readToken, usePsk, hm.psks, hpsks, hm.sym, nil_append]
    rfl
  · refine ⟨⟨k, hm.updated _ rfl hm.index, (follow_cons hfollow).2⟩, ?_, keyed_mixKeyAndHash _ _,
      fun hmem => hsends (mem_cons_of_mem _ hmem), ?_⟩
    · rw [count_cons_self, hpsks, length_cons] at hcount
      dsimp only
      omega
    · have hplain : plain (.psk :: tokens) = plain tokens := rfl
      rw [hplain] at hnonces
      change 0 + _ ≤ _
      omega

lemma dh_token_agrees (hcompat : Compatible P used) (hdh : token.isDh)
    (h : InStep P used later last limit (token :: tokens) a b) :
    ∃ a' b', Agrees P fresh token a b a' b' ∧ InStep P used later last limit tokens a' b' ∧ Same a a' ∧ Same b b' := by
  obtain ⟨k, hm, hfollow⟩ := h.keys
  obtain ⟨shared, hshared, hshared'⟩ := dh_agrees hcompat hm hdh (follow_cons hfollow).1
  refine ⟨{ a with sym := mixKey P a.sym shared }, { b with sym := mixKey P a.sym shared },
    ⟨[], fun out => ?_, fun rest => ?_⟩, ?_, ⟨rfl, rfl, rfl, rfl⟩, ⟨rfl, rfl, rfl, rfl⟩⟩
  · cases token with
    | e | s | psk => cases hdh
    | ee | es | se | ss =>
      simp only [writeToken, hshared, append_nil]
      rfl
  · cases token with
    | e | s | psk => cases hdh
    | ee | es | se | ss =>
      simp only [readToken, hshared', hm.sym, nil_append]
      rfl
  · refine h.advance ?_ ?_ rfl rfl rfl (keyed_mixKey _ _) (Nat.zero_le _)
    · rintro rfl
      cases hdh
    · intro k hm _
      rw [after_of_isDh hdh]
      exact hm.updated _ hm.psks hm.index

section

variable (hcompat : Compatible P used) (hopens : P.OpensSealed) (hlimit : limit ≤ highest) (hfresh : used a.role fresh)

include hcompat hopens hlimit hfresh

lemma token_agrees (h : InStep P used later last limit (token :: tokens) a b) :
    ∃ a' b', Agrees P fresh token a b a' b' ∧ InStep P used later last limit tokens a' b' ∧ Same a a' ∧ Same b b' := by
  cases token with
  | e => exact e_agrees hfresh h
  | s => exact s_agrees hopens hlimit h
  | psk => exact psk_agrees h
  | ee | es | se | ss => exact dh_token_agrees hcompat rfl h

lemma tokens_agree (h : InStep P used later last limit tokens a b) : ∃ a' b' piece,
      (∀ out, tokens.foldlM (writeToken P fresh) (a, out) = .ok (a', out ++ piece)) ∧
      (∀ rest, tokens.foldlM (readToken P) (b, piece ++ rest) = .ok (b', rest)) ∧
      InStep P used later last limit [] a' b' ∧ Same a a' ∧ Same b b' := by
  induction tokens generalizing a b with
  | nil =>
    refine ⟨a, b, [], fun out => ?_, fun rest => ?_, h, Same.refl a, Same.refl b⟩
    · rw [append_nil]
      rfl
    · rfl
  | cons token tokens ih =>
    obtain ⟨a₁, b₁, ⟨piece, hwrite, hread⟩, h₁, hsame, hsame'⟩ := token_agrees hcompat hopens hlimit hfresh h
    rw [← hsame.role] at hfresh
    obtain ⟨a₂, b₂, pieces, hwrites, hreads, h₂, hsame₂, hsame₂'⟩ := ih hfresh h₁
    refine ⟨a₂, b₂, piece ++ pieces, fun out => ?_, fun rest => ?_, h₂, hsame.trans hsame₂, hsame'.trans hsame₂'⟩
    · rw [foldlM_cons, hwrite, ← append_assoc]
      exact hwrites (out ++ piece)
    · rw [foldlM_cons, append_assoc, hread]
      exact hreads rest

end

end Tokens

end RocNet.NoiseHandshake
