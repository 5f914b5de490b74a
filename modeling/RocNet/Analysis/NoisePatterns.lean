import Mathlib.Algebra.BigOperators.Group.List.Basic
import Mathlib.Algebra.GroupWithZero.Nat
import RocNet.Model.NoiseHandshake

/-!
# Handshake patterns and what their tokens need

Which public keys both sides have is known from the tokens alone (`Known`). In every pattern each token finds its
keys, and pre-shared keys keep that so. `Midway` is a handshake that holds the keys that both sides have by then.
-/

namespace RocNet.NoiseHandshake

open Function List Fallible

/-! ## Keys that both sides have -/

/-- Whose ephemeral and static public keys both sides have. -/
structure Known where
  e : Role → Bool
  s : Role → Bool

/-- The keys of a Diffie-Hellman token are there. -/
def Known.allows (k : Known) : Token → Bool
  | .ee => k.e .initiator && k.e .responder
  | .es => k.e .initiator && k.s .responder
  | .se => k.s .initiator && k.e .responder
  | .ss => k.s .initiator && k.s .responder
  | .e | .s | .psk => true

/-- The keys after a token of a message by `owner`. -/
def Known.after (k : Known) (owner : Role) : Token → Known
  | .e => { k with e := Function.update k.e owner true }
  | .s => { k with s := Function.update k.s owner true }
  | _ => k

variable {k : Known} {owner : Role} {messages messages' : List (List Token)} {f : List Token → List Token} {psks : ℕ}

variable {role : Role} {tokens : List Token} {i : ℕ}

lemma Known.after_e_of_ne (h : role ≠ owner) : (k.after owner .e).e role = k.e role := update_of_ne h _ _

lemma Known.after_s_of_ne (h : role ≠ owner) : (k.after owner .s).s role = k.s role := update_of_ne h _ _

lemma other_ne (role : Role) : role.other ≠ role := by
  cases role <;> decide

/-- The keys after the tokens of a message, if each token finds its keys. -/
def follow (owner : Role) : List Token → Known → Option Known
  | [], k => some k
  | token :: tokens, k => if k.allows token then follow owner tokens (k.after owner token) else none

/-- Who writes the message of this index. -/
def turnOf (index : ℕ) : Role := if index % 2 = 0 then .initiator else .responder

/-- Every token of the messages, of which the first has this index, finds its keys. -/
def followAll : ℕ → List (List Token) → Known → Bool
  | _, [], _ => true
  | index, tokens :: rest, k =>
    match follow (turnOf index) tokens k with
    | some k' => followAll (index + 1) rest k'
    | none => false

/-- The keys of the pre-messages. -/
def Shape.known (shape : Shape) : Known := ⟨fun _ => false, shape.pre⟩

lemma followAll_patternShape (p : Pattern) : followAll 0 (patternShape p).messages (patternShape p).known := by
  cases p <;> rfl

lemma follow_cons (h : follow owner (token :: tokens) k = some k') :
    k.allows token ∧ follow owner tokens (k.after owner token) = some k' := by
  unfold follow at h
  split at h
  · next hallows => exact ⟨hallows, h⟩
  · cases h

lemma followAll_cons (h : followAll index (tokens :: rest) k) :
    ∃ k', follow (turnOf index) tokens k = some k' ∧ followAll (index + 1) rest k' := by
  unfold followAll at h
  split at h
  · next k' hk' => exact ⟨k', hk', h⟩
  · cases h

/-! ## Tokens of pre-shared keys -/

/-- The tokens that are not of pre-shared keys. -/
def plain (tokens : List Token) : List Token := tokens.filter fun token => token ≠ .psk

/-- The number of tokens of pre-shared keys. -/
def pskCount (messages : List (List Token)) : ℕ := (messages.map (List.count .psk)).sum

lemma follow_plain (owner : Role) (tokens : List Token) (k : Known) :
    follow owner (plain tokens) k = follow owner tokens k := by
  induction tokens generalizing k with
  | nil => rfl
  | cons token tokens ih =>
    by_cases hpsk : token = .psk
    · subst hpsk
      exact ih k
    · have hplain : plain (token :: tokens) = token :: plain tokens := filter_cons_of_pos (by simpa)
      rw [hplain]
      unfold follow
      rw [ih]

lemma followAll_congr (h : messages'.map plain = messages.map plain) (index : ℕ) (k : Known) :
    followAll index messages' k = followAll index messages k := by
  induction messages generalizing messages' index k with
  | nil =>
    rw [map_nil, map_eq_nil_iff] at h
    rw [h]
  | cons tokens messages ih =>
    match messages' with
    | [] => cases h
    | tokens' :: messages' =>
      rw [map_cons, map_cons, cons.injEq] at h
      obtain ⟨htokens, hrest⟩ := h
      unfold followAll
      rw [← follow_plain, htokens, follow_plain]
      split
      · exact ih hrest _ _
      · rfl

lemma mapIdx_eq_modify (messages : List (List Token)) (i : ℕ) (f : List Token → List Token) :
    (messages.mapIdx fun j tokens => if j = i then f tokens else tokens) = messages.modify i f := by
  apply ext_getElem?
  intro j
  rw [getElem?_mapIdx, getElem?_modify]
  by_cases hj : j = i
  · simp [hj]
  · simp [hj, Ne.symm hj]

lemma map_plain_modify (hf : ∀ tokens, plain (f tokens) = plain tokens)
    (messages : List (List Token)) (i : ℕ) : (messages.modify i f).map plain = messages.map plain := by
  induction messages generalizing i with
  | nil => rw [modify_nil]
  | cons tokens messages ih =>
    cases i with
    | zero => simp [hf]
    | succ i => simp [ih]

lemma pskCount_modify (hf : ∀ tokens, (f tokens).count .psk = tokens.count .psk + 1)
    (hi : i < messages.length) : pskCount (messages.modify i f) = pskCount messages + 1 := by
  induction messages generalizing i with
  | nil => cases hi
  | cons tokens messages ih =>
    cases i with
    | zero =>
      simp only [pskCount, modify_zero_cons, map_cons, sum_cons, hf]
      omega
    | succ i =>
      have hih := ih (Nat.lt_of_succ_lt_succ hi)
      simp only [pskCount, modify_succ_cons, map_cons, sum_cons] at hih ⊢
      omega

/-- What a psk's token leaves of the messages. -/
structure Inserted (messages messages' : List (List Token)) (psks : ℕ) : Prop where
  plains : messages'.map plain = messages.map plain
  count : pskCount messages' = pskCount messages + psks

lemma Inserted.length (h : Inserted messages messages' psks) : messages'.length = messages.length := by
  have hlength := congrArg List.length h.plains
  rwa [length_map, length_map] at hlength

/-- The token of one psk goes into one message, at its start or at its end. -/
theorem inserted_modify
    (h : Inserted messages messages' psks) (hi : i < messages.length)
    (hplain : ∀ tokens, plain (f tokens) = plain tokens)
    (hcount : ∀ tokens, (f tokens).count .psk = tokens.count .psk + 1) :
    Inserted messages (messages'.mapIdx fun j tokens => if j = i then f tokens else tokens)
      (psks + 1) := by
  rw [mapIdx_eq_modify]
  refine ⟨?_, ?_⟩
  · rw [map_plain_modify hplain, h.plains]
  · rw [pskCount_modify hcount (by rwa [h.length]), h.count]
    omega

lemma addPsk_meets (psk : Psk) (hmessages : 0 < messages.length) (h : Inserted messages x.1 psks) :
    Meets False (addPsk messages.length x psk) fun y => Inserted messages y.1 (psks + 1) := by
  unfold addPsk
  split
  · trivial
  · next hguard =>
    split
    · next hzero =>
      apply inserted_modify (i := 0) h hmessages
      · intro tokens
        simp [plain]
      · intro tokens
        simp
    · next hpos =>
      have hone : 1 ≤ psk.position := Nat.one_le_iff_ne_zero.mpr hpos
      rw [sub64_of_le hone]
      apply inserted_modify (i := psk.position - 1) h
      · omega
      · intro tokens
        simp [plain]
      · intro tokens
        simp

lemma addPsks_meets (psks : List Psk) (hmessages : 0 < messages.length) :
    Meets False (addPsks messages psks) fun messages' => Inserted messages messages' psks.length := by
  -- with `rest` still to come, the tokens of the other psks are in
  have hfold : Meets False (psks.foldlM (addPsk messages.length) (messages, highest)) fun x =>
      ∃ done, Inserted messages x.1 done ∧ done + 0 = psks.length := by
    apply Meets.foldlM (I := fun (rest : List Psk) (x : List (List Token) × ℕ) =>
      ∃ done, Inserted messages x.1 done ∧ done + rest.length = psks.length)
    · rintro psk rest x ⟨done, hx, hdone⟩
      refine (addPsk_meets psk hmessages hx).mono fun y hy => ⟨done + 1, hy, ?_⟩
      rw [length_cons] at hdone
      omega
    · exact ⟨0, ⟨rfl, rfl⟩, Nat.zero_add _⟩
  unfold addPsks
  apply hfold.bind
  rintro y ⟨done, hy, hdone⟩
  rw [meets_pure, ← hdone]
  exact hy

/-! ## The symmetric state -/

variable {P : Primitives} {h : Handshake} {sym : Symmetric} {token : Token}

/-- What opening gives is sixteen bytes shorter. -/
def Primitives.OpensShorter (P : Primitives) : Prop :=
  ∀ cipher key nonce associatedData ciphertext plaintext,
    P.aeadOpen cipher key nonce associatedData ciphertext = some plaintext → plaintext.length + 16 = ciphertext.length

/-- The key, once there is one, is one for the AEADs, and the nonce is a `U64`. -/
structure Keyed (sym : Symmetric) : Prop where
  key : ∀ key, sym.k = some key → key.length = 32
  nonce : sym.n ≤ highest

lemma tag_length (key message : List UInt8) : (tag P key message).length = 32 := by
  unfold tag
  rw [Vector.length_toList]

lemma nonceBytes_length (cipher : Cipher) (n : ℕ) : (nonceBytes cipher n).length = 12 := by
  cases cipher <;> rfl

lemma accepted_of_length (hkey : key.length = 32) (cipher : Cipher) (n : ℕ) : accepted key (nonceBytes cipher n) := by
  unfold accepted
  rw [hkey, nonceBytes_length]
  rfl

lemma keyed_of_tag (hkey : sym.k = some (tag P key' message)) (hn : sym.n = 0) : Keyed sym := by
  refine ⟨?_, ?_⟩
  · intro key hk
    rw [hkey, Option.some.injEq] at hk
    rw [← hk]
    apply tag_length
  · rw [hn]
    apply Nat.zero_le

lemma keyed_mixKey (sym : Symmetric) (input : List UInt8) : Keyed (mixKey P sym input) :=
  keyed_of_tag rfl rfl

lemma keyed_mixKeyAndHash (sym : Symmetric) (input : List UInt8) : Keyed (mixKeyAndHash P sym input) :=
  keyed_of_tag rfl rfl

lemma Keyed.mixHash (hkeyed : Keyed sym) (part : Part) (data : List UInt8) : Keyed (mixHash P sym part data) :=
  ⟨hkeyed.key, hkeyed.nonce⟩

lemma keyed_mixEphemeral (hkeyed : Keyed h.sym) (bytes : List UInt8) : Keyed (mixEphemeral P h owner bytes) := by
  unfold mixEphemeral
  split
  · apply keyed_mixKey
  · apply hkeyed.mixHash

lemma add64_nonce (hkeyed : Keyed sym) (hn : sym.n ≠ highest) :
    (add64 sym.n 1 : Result HandshakeErr Crash ℕ) = pure (sym.n + 1) ∧ Keyed { sym with n := sym.n + 1 } := by
  have hle : sym.n + 1 ≤ highest := Nat.lt_of_le_of_ne hkeyed.nonce hn
  exact ⟨add64_of_lt (Nat.lt_of_le_of_lt hle (by decide)), hkeyed.key, hle⟩

lemma encryptAndHash_meets (hkeyed : Keyed sym) (part : Part) (plaintext : List UInt8) :
    Meets False (encryptAndHash P sym part plaintext) fun x => Keyed x.2 := by
  unfold encryptAndHash
  split
  · apply hkeyed.mixHash
  · next key hkey =>
    split
    · trivial
    · next hn =>
      obtain ⟨hadd, hkeyed'⟩ := add64_nonce hkeyed hn
      unfold sealWith
      rw [if_pos (accepted_of_length (hkeyed.key key hkey) _ _), hadd]
      exact hkeyed'.mixHash _ _

lemma decryptAndHash_meets (hopen : P.OpensShorter) (hkeyed : Keyed sym) (part : List UInt8 → Part)
    (data : List UInt8) : Meets False (decryptAndHash P sym part data) fun x =>
      Keyed x.2 ∧ x.1.length + (if sym.k.isSome then 16 else 0) = data.length := by
  unfold decryptAndHash
  split
  · next hnone =>
    rw [hnone]
    exact ⟨hkeyed.mixHash _ _, rfl⟩
  · next key hkey =>
    split
    · trivial
    · next hn =>
      obtain ⟨hadd, hkeyed'⟩ := add64_nonce hkeyed hn
      unfold openWith
      rw [if_pos (accepted_of_length (hkeyed.key key hkey) _ _), hadd]
      split
      · next plaintext hplaintext =>
        refine ⟨hkeyed'.mixHash _ _, ?_⟩
        rw [hkey]
        exact hopen _ _ _ _ _ _ hplaintext
      · trivial

/-! ## The tokens of a message -/

/-- The keys that both sides have are held. -/
structure Holds (k : Known) (h : Handshake) : Prop where
  e : k.e h.role = true → h.e.isSome = true
  s : k.s h.role = true → h.s.isSome = true
  re : k.e h.role.other = true → h.re.isSome = true
  rs : k.s h.role.other = true → h.rs.isSome = true

/-- The tokens of Diffie-Hellman operations. -/
def Token.isDh : Token → Bool
  | .ee | .es | .se | .ss => true
  | .e | .s | .psk => false

lemma dhKeys_isSome (hk : Holds k h) (hdh : token.isDh) (hallows : k.allows token) :
    (dhKeys h token).1.isSome ∧ (dhKeys h token).2.isSome := by
  obtain ⟨he, hs, hre, hrs⟩ := hk
  cases token with
  | e | s | psk => cases hdh
  | ee | es | se | ss =>
    obtain ⟨hinitiator, hresponder⟩ := Bool.and_eq_true_iff.mp hallows
    cases hrole : h.role <;> simp only [hrole, Role.other] at he hs hre hrs <;> simp [dhKeys, *]

lemma dh_meets (hk : Holds k h) (hdh : token.isDh) (hallows : k.allows token) :
    Meets False (dh P h token) fun _ => True := by
  obtain ⟨hmine, htheirs⟩ := dhKeys_isSome hk hdh hallows
  obtain ⟨pair, hpair⟩ := Option.isSome_iff_exists.mp hmine
  obtain ⟨pub, hpub⟩ := Option.isSome_iff_exists.mp htheirs
  have hkeys : dhKeys h token = (some pair, some pub) := Prod.ext hpair hpub
  unfold dh
  rw [hkeys]
  dsimp only
  split <;> trivial

lemma after_of_isDh (hdh : token.isDh) : k.after owner token = k := by
  cases token with
  | e | s | psk => cases hdh
  | ee | es | se | ss => rfl

namespace Holds

lemma congr (hk : Holds k h) (hrole : h'.role = h.role) (he : h'.e = h.e) (hs : h'.s = h.s) (hre : h'.re = h.re)
    (hrs : h'.rs = h.rs) : Holds k h' := by
  refine ⟨?_, ?_, ?_, ?_⟩
  · rw [hrole, he]
    exact hk.e
  · rw [hrole, hs]
    exact hk.s
  · rw [hrole, hre]
    exact hk.re
  · rw [hrole, hrs]
    exact hk.rs

variable {pair : KeyPair} {pub : PublicKey} {sym' : Symmetric}

lemma sent_e (hk : Holds k h) :
    Holds (k.after h.role .e) { h with e := some pair, sym := sym' } :=
  ⟨fun _ => rfl, hk.s, fun hre => hk.re ((Known.after_e_of_ne (other_ne h.role)).symm.trans hre), hk.rs⟩

lemma sent_s (hk : Holds k h) (hs : h.s.isSome) :
    Holds (k.after h.role .s) { h with sym := sym' } :=
  ⟨hk.e, fun _ => hs, hk.re, fun hrs => hk.rs ((Known.after_s_of_ne (other_ne h.role)).symm.trans hrs)⟩

lemma received_e (hk : Holds k h) :
    Holds (k.after h.role.other .e) { h with re := some pub, sym := sym' } :=
  ⟨fun he => hk.e ((Known.after_e_of_ne (other_ne h.role).symm).symm.trans he), hk.s, fun _ => rfl, hk.rs⟩

lemma received_s (hk : Holds k h) :
    Holds (k.after h.role.other .s) { h with rs := some pub, sym := sym' } :=
  ⟨hk.e, fun hs => hk.s ((Known.after_s_of_ne (other_ne h.role).symm).symm.trans hs), hk.re, fun _ => rfl⟩

end Holds

/-- What the tokens of a message by `owner` that are left need, and the messages after it. -/
structure Midway (owner : Role) (later : List (List Token)) (last : Known) (tokens : List Token)
    (h : Handshake) : Prop where
  keys : ∃ k, Holds k h ∧ follow owner tokens k = some last
  psks : tokens.count .psk + pskCount later ≤ h.psks.length
  keyed : Keyed h.sym

/-- What the tokens of a message leave alone. -/
structure Same (h h' : Handshake) : Prop where
  role : h'.role = h.role
  s : h'.s = h.s
  messages : h'.messages = h.messages
  index : h'.index = h.index

lemma Same.refl (h : Handshake) : Same h h := ⟨rfl, rfl, rfl, rfl⟩

lemma Same.trans (hsame : Same h h') (hsame' : Same h' h'') : Same h h'' :=
  ⟨hsame'.role.trans hsame.role, hsame'.s.trans hsame.s, hsame'.messages.trans hsame.messages,
    hsame'.index.trans hsame.index⟩

section Tokens

variable {later : List (List Token)} {last : Known} {bytes : List UInt8} {fresh : SecretKey}

lemma Midway.advance {h' : Handshake} (hmid : Midway owner later last (token :: tokens) h)
    (hpsk : token ≠ .psk) (hkeys : ∀ k, Holds k h → k.allows token → Holds (k.after owner token) h')
    (hpsks : h'.psks = h.psks) (hkeyed : Keyed h'.sym) : Midway owner later last tokens h' := by
  obtain ⟨⟨k, hk, hfollow⟩, hcount, -⟩ := hmid
  obtain ⟨hallows, hfollow'⟩ := follow_cons hfollow
  refine ⟨⟨_, hkeys k hk hallows, hfollow'⟩, ?_, hkeyed⟩
  rwa [hpsks, ← count_cons_of_ne hpsk]

lemma usePsk_meets (hmid : Midway owner later last (.psk :: tokens) h) :
    Meets False (usePsk P h) fun h' => Midway owner later last tokens h' ∧ Same h h' := by
  obtain ⟨⟨k, hk, hfollow⟩, hcount, -⟩ := hmid
  rw [count_cons_self] at hcount
  unfold usePsk
  split
  · next psk rest hpsks =>
    rw [hpsks, length_cons] at hcount
    refine ⟨⟨⟨k, hk.congr rfl rfl rfl rfl rfl, (follow_cons hfollow).2⟩, ?_, ?_⟩, rfl, rfl, rfl, rfl⟩
    · dsimp only
      omega
    · apply keyed_mixKeyAndHash
  · next hpsks =>
    rw [hpsks, length_nil] at hcount
    omega

lemma mixDh_meets {x : Handshake × List UInt8} (hdh : token.isDh)
    (hmid : Midway owner later last (token :: tokens) x.1) :
    Meets False (do
      let shared ← dh P x.1 token
      pure ({ x.1 with sym := mixKey P x.1.sym shared }, x.2)) fun y =>
        Midway owner later last tokens y.1 ∧ Same x.1 y.1 := by
  obtain ⟨k, hk, hfollow⟩ := hmid.keys
  refine (dh_meets hk hdh (follow_cons hfollow).1).bind fun shared _ => ?_
  refine ⟨hmid.advance ?_ (fun k hk _ => ?_) rfl (keyed_mixKey _ _), rfl, rfl, rfl, rfl⟩
  · rintro rfl
    cases hdh
  · rw [after_of_isDh hdh]
    exact hk.congr rfl rfl rfl rfl rfl

lemma writeToken_meets {x : Handshake × List UInt8} (hrole : x.1.role = owner) (hs : token = .s → x.1.s.isSome)
    (hmid : Midway owner later last (token :: tokens) x.1) : Meets False (writeToken P fresh x token) fun y =>
      Midway owner later last tokens y.1 ∧ Same x.1 y.1 := by
  subst hrole
  cases token with
  | e =>
    refine ⟨hmid.advance nofun (fun k hk _ => hk.sent_e) rfl ?_, rfl, rfl, rfl, rfl⟩
    exact keyed_mixEphemeral hmid.keyed _
  | s =>
    unfold writeToken
    dsimp only
    split
    · refine (encryptAndHash_meets hmid.keyed _ _).bind fun y hy => ?_
      exact ⟨hmid.advance nofun (fun k hk _ => hk.sent_s (hs rfl)) rfl hy, rfl, rfl, rfl, rfl⟩
    · next hnone =>
      have hsome := hs rfl
      rw [hnone] at hsome
      cases hsome
  | psk => exact (usePsk_meets hmid).bind fun h' hh' => hh'
  | ee | es | se | ss => exact mixDh_meets rfl hmid

lemma takeBytes_meets (bytes : List UInt8) (count : ℕ) :
    Meets False (takeBytes bytes count) fun x => x.1.length = count := by
  unfold takeBytes
  split
  · trivial
  · next hlen =>
    rw [meets_pure, length_take]
    omega

lemma publicKey_meets (hbytes : bytes.length = 32) : Meets False (publicKey bytes) fun _ => True := by
  unfold publicKey
  rw [dif_pos hbytes]
  trivial

lemma readToken_meets {x : Handshake × List UInt8} (hopen : P.OpensShorter) (hrole : x.1.role.other = owner)
    (hmid : Midway owner later last (token :: tokens) x.1) : Meets False (readToken P x token) fun y =>
      Midway owner later last tokens y.1 ∧ Same x.1 y.1 := by
  subst hrole
  cases token with
  | e =>
    refine (takeBytes_meets _ _).bind fun y hy => (publicKey_meets hy).bind fun pub _ => ?_
    refine ⟨hmid.advance nofun (fun k hk _ => hk.received_e) rfl ?_, rfl, rfl, rfl, rfl⟩
    exact keyed_mixEphemeral hmid.keyed _
  | s =>
    refine (takeBytes_meets _ _).bind fun y hy => ?_
    refine (decryptAndHash_meets hopen hmid.keyed _ _).bind fun z hz => ?_
    have hlength : z.1.length = 32 := by
      have hz' := hz.2
      rw [hy] at hz'
      split at hz' <;> simp_all
    refine (publicKey_meets hlength).bind fun pub _ => ?_
    exact ⟨hmid.advance nofun (fun k hk _ => hk.received_s) rfl hz.1, rfl, rfl, rfl, rfl⟩
  | psk => exact (usePsk_meets hmid).bind fun h' hh' => hh'
  | ee | es | se | ss => exact mixDh_meets rfl hmid

end Tokens

end RocNet.NoiseHandshake
