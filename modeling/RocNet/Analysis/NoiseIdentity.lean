import RocNet.Analysis.NoiseCrashes

/-!
# Whose static key a handshake reports

The hash of a handshake is made of its transcript (`Extends`), in which stands every static key received with an `S`
token or known from the pre-messages.
-/

namespace RocNet.NoiseHandshake

open Fallible Transition

variable {P : Primitives} {h h' : Handshake} {sym sym' : Symmetric} {token : Token} {key : PublicKey}

/-! ## Transcripts -/

/-- A hash with the parts of a transcript mixed in. -/
def mixAll (P : Primitives) (hash : List UInt8) (entries : List (Part × List UInt8)) : List UInt8 :=
  entries.foldl (fun hash entry => (P.sha256 (hash ++ entry.2)).toList) hash

/-- Parts are added to the transcript, and mixed into the hash. -/
def Extends (P : Primitives) (sym sym' : Symmetric) : Prop :=
  ∃ entries, sym'.transcript = sym.transcript ++ entries ∧ sym'.h = mixAll P sym.h entries

namespace Extends

lemma refl (hh : sym'.h = sym.h) (ht : sym'.transcript = sym.transcript) : Extends P sym sym' := by
  refine ⟨[], ?_, hh⟩
  rw [ht, List.append_nil]

lemma trans {sym'' : Symmetric} (h : Extends P sym sym') (h' : Extends P sym' sym'') : Extends P sym sym'' := by
  obtain ⟨entries, ht, hh⟩ := h
  obtain ⟨entries', ht', hh'⟩ := h'
  refine ⟨entries ++ entries', ?_, ?_⟩
  · rw [ht', ht, List.append_assoc]
  · rw [hh', hh]
    unfold mixAll
    rw [List.foldl_append]

lemma subset (h : Extends P sym sym') : sym.transcript ⊆ sym'.transcript := by
  obtain ⟨entries, ht, -⟩ := h
  rw [ht]
  apply List.subset_append_left

lemma mixHash (sym : Symmetric) (part : Part) (data : List UInt8) : Extends P sym (mixHash P sym part data) :=
  ⟨[(part, data)], rfl, rfl⟩

lemma mixKey (sym : Symmetric) (input : List UInt8) : Extends P sym (mixKey P sym input) :=
  refl rfl rfl

lemma mixEphemeral (h : Handshake) (owner : Role) (bytes : List UInt8) :
    Extends P h.sym (mixEphemeral P h owner bytes) := by
  unfold NoiseHandshake.mixEphemeral
  split
  · exact (mixHash h.sym _ bytes).trans (mixKey _ bytes)
  · apply mixHash

end Extends

lemma encryptAndHash_extends (sym : Symmetric) (part : Part) (plaintext : List UInt8) :
    Meets True (encryptAndHash P sym part plaintext) fun x => Extends P sym x.2 := by
  unfold encryptAndHash
  split
  · apply Extends.mixHash
  · split
    · trivial
    · unfold sealWith add64
      split
      · split
        · exact (Extends.refl rfl rfl).trans (Extends.mixHash _ _ _)
        · trivial
      · trivial

/-- What is opened is mixed in under its name. -/
theorem decryptAndHash_extends (sym : Symmetric) (part : List UInt8 → Part) (data : List UInt8) :
    Meets True (decryptAndHash P sym part data) fun x => Extends P sym x.2 ∧ (part x.1, data) ∈ x.2.transcript := by
  have hlast : ∀ (sym : Symmetric) (plaintext : List UInt8),
      (part plaintext, data) ∈ (mixHash P sym (part plaintext) data).transcript :=
    fun sym plaintext => List.mem_append_right _ (List.mem_singleton_self _)
  unfold decryptAndHash
  split
  · exact ⟨Extends.mixHash _ _ _, hlast _ _⟩
  · split
    · trivial
    · unfold openWith add64
      split
      · split
        · split
          · exact ⟨(Extends.refl rfl rfl).trans (Extends.mixHash _ _ _), hlast _ _⟩
          · trivial
        · trivial
      · trivial

lemma usePsk_extends (h : Handshake) :
    Meets True (usePsk P h) fun h' => Extends P h.sym h'.sym ∧ h'.rs = h.rs ∧ Same h h' := by
  unfold usePsk
  split
  · exact ⟨⟨[(.psk, _)], rfl, rfl⟩, rfl, rfl, rfl, rfl, rfl⟩
  · trivial

/-- What a Diffie-Hellman token does, written or read. -/
theorem mixDh_extends (x : Handshake × List UInt8) (token : Token) :
    Meets True (do
      let shared ← dh P x.1 token
      pure ({ x.1 with sym := mixKey P x.1.sym shared }, x.2)) fun y =>
        Extends P x.1.sym y.1.sym ∧ y.1.rs = x.1.rs ∧ Same x.1 y.1 := by
  have hdh : Meets True (dh P x.1 token) fun _ => True := by
    unfold dh
    split
    · split <;> trivial
    · trivial
  exact hdh.bind fun shared _ => ⟨Extends.mixKey _ _, rfl, rfl, rfl, rfl, rfl⟩

lemma writeToken_extends (fresh : SecretKey) (x : Handshake × List UInt8) (token : Token) :
    Meets True (writeToken P fresh x token) fun y => Extends P x.1.sym y.1.sym ∧ y.1.rs = x.1.rs ∧ Same x.1 y.1 := by
  cases token with
  | e => exact ⟨Extends.mixEphemeral _ _ _, rfl, rfl, rfl, rfl, rfl⟩
  | s =>
    unfold writeToken
    dsimp only
    split
    · apply (encryptAndHash_extends _ _ _).bind
      exact fun y hy => ⟨hy, rfl, rfl, rfl, rfl, rfl⟩
    · trivial
  | psk => exact (usePsk_extends x.1).bind fun h' hh' => hh'
  | ee | es | se | ss => exact mixDh_extends x _

/-- The remote side's static key was mixed in, as that of its pre-message or as one received. -/
def Mixed (h : Handshake) (key : PublicKey) : Prop :=
  (.preStatic h.role.other, key.bytes) ∈ h.sym.transcript ∨
    .static h.role.other key.bytes ∈ h.sym.transcript.map Prod.fst

instance : Decidable (Mixed h key) := inferInstanceAs (Decidable (_ ∨ _))

lemma Mixed.mono (hmixed : Mixed h key) (hrole : h'.role = h.role) (hext : Extends P h.sym h'.sym) :
    Mixed h' key := by
  unfold Mixed
  rw [hrole]
  exact hmixed.imp (fun hpre => hext.subset hpre) fun hs => List.map_subset _ hext.subset hs

/-- A key read with an `S` token is mixed in; other tokens leave the key that there was. -/
theorem readToken_extends (x : Handshake × List UInt8) (token : Token) : Meets True (readToken P x token) fun y =>
      Extends P x.1.sym y.1.sym ∧ Same x.1 y.1 ∧
        (y.1.rs = x.1.rs ∧ token ≠ .s ∨ ∀ key, y.1.rs = some key → Mixed y.1 key) := by
  have hkey : ∀ bytes, Meets True (publicKey bytes) fun key => key.bytes = bytes := by
    intro bytes
    unfold publicKey
    split
    · rfl
    · trivial
  cases token with
  | e =>
    refine (takeBytes_meets _ _).weaken.bind fun y _ => (hkey _).bind fun pub _ => ?_
    exact ⟨Extends.mixEphemeral _ _ _, ⟨rfl, rfl, rfl, rfl⟩, .inl ⟨rfl, nofun⟩⟩
  | s =>
    refine (takeBytes_meets _ _).weaken.bind fun y _ => (decryptAndHash_extends _ _ _).bind fun z hz => ?_
    refine (hkey _).bind fun pub hpub => ⟨hz.1, ⟨rfl, rfl, rfl, rfl⟩, .inr ?_⟩
    rintro key ⟨⟩
    refine .inr (List.mem_map.mpr ⟨_, hz.2, ?_⟩)
    rw [hpub]
  | psk =>
    apply (usePsk_extends x.1).bind
    rintro h' ⟨hext, hrs, hsame⟩
    exact ⟨hext, hsame, .inl ⟨hrs, nofun⟩⟩
  | ee | es | se | ss =>
    apply (mixDh_extends x _).mono
    rintro y ⟨hext, hrs, hsame⟩
    exact ⟨hext, hsame, .inl ⟨hrs, nofun⟩⟩

/-! ## Messages -/

/-- A message of this index is done. -/
structure Advances (P : Primitives) (h h' : Handshake) : Prop where
  mixed : Extends P h.sym h'.sym
  role : h'.role = h.role
  messages : h'.messages = h.messages
  index : h'.index = h.index + 1

lemma writeMessage_extends (h : Handshake) (payload : List UInt8) (fresh : SecretKey) :
    Meets True (writeMessage P h payload fresh) fun x =>
      Advances P h x.2 ∧ x.2.rs = h.rs ∧ turnOf h.index = h.role := by
  unfold writeMessage compose
  apply nextTokens_meets.weaken.bind
  rintro tokens ⟨-, hturn⟩
  have hfold : Meets True (tokens.foldlM (writeToken P fresh) (h, [])) fun x =>
      Extends P h.sym x.1.sym ∧ x.1.rs = h.rs ∧ Same h x.1 := by
    apply Meets.foldlM (I := fun _ (x : Handshake × List UInt8) =>
      Extends P h.sym x.1.sym ∧ x.1.rs = h.rs ∧ Same h x.1)
    · rintro token rest x ⟨hext, hrs, hsame⟩
      apply (writeToken_extends fresh x token).mono
      rintro y ⟨hext', hrs', hsame'⟩
      exact ⟨hext.trans hext', hrs'.trans hrs, hsame.trans hsame'⟩
    · exact ⟨Extends.refl rfl rfl, rfl, Same.refl h⟩
  rw [bind_assoc]
  apply hfold.bind
  rintro x ⟨hext, hrs, hsame⟩
  rw [bind_assoc]
  apply (encryptAndHash_extends _ _ _).bind
  intro y hy
  rw [pure_bind]
  dsimp only
  split
  · trivial
  · apply (add64_meets _ _).bind
    rintro index rfl
    exact ⟨⟨hext.trans hy, hsame.role, hsame.messages, by rw [hsame.index]⟩, hrs, hturn⟩

/-- A message read leaves the remote key that there was only if it has no `S`. -/
theorem readMessage_extends (h : Handshake) (message : List UInt8) : Meets True (readMessage P h message) fun x =>
      Advances P h x.2 ∧ ((x.2.rs = h.rs ∧ ∀ tokens, h.messages[h.index]? = some tokens → .s ∉ tokens) ∨
        ∀ key, x.2.rs = some key → Mixed x.2 key) := by
  unfold readMessage
  split
  · trivial
  apply nextTokensToRead_meets.weaken.bind
  rintro tokens ⟨htokens, -⟩
  have hfold : Meets True (tokens.foldlM (readToken P) (h, message)) fun x =>
      Extends P h.sym x.1.sym ∧ Same h x.1 ∧
        ((x.1.rs = h.rs ∧ (.s ∈ tokens → Token.s ∈ [])) ∨ ∀ key, x.1.rs = some key → Mixed x.1 key) := by
    -- until an `S` token is read, the one there is, if any, is among the tokens left
    apply Meets.foldlM (I := fun (rest : List Token) (x : Handshake × List UInt8) =>
      Extends P h.sym x.1.sym ∧ Same h x.1 ∧
        ((x.1.rs = h.rs ∧ (.s ∈ tokens → Token.s ∈ rest)) ∨ ∀ key, x.1.rs = some key → Mixed x.1 key))
    · rintro token rest x ⟨hext, hsame, hrs⟩
      apply (readToken_extends x token).mono
      rintro y ⟨hext', hsame', hrs'⟩
      refine ⟨hext.trans hext', hsame.trans hsame', ?_⟩
      obtain ⟨hkept, htoken⟩ | hmixed := hrs'
      · refine hrs.imp (fun hleft => ⟨hkept.trans hleft.1, fun hmem => ?_⟩) fun hmixed key hkey => ?_
        · exact (List.mem_cons.mp (hleft.2 hmem)).resolve_left (Ne.symm htoken)
        · rw [hkept] at hkey
          exact (hmixed key hkey).mono hsame'.role hext'
      · exact .inr hmixed
    · exact ⟨Extends.refl rfl rfl, Same.refl h, .inl ⟨rfl, id⟩⟩
  apply hfold.bind
  rintro x ⟨hext, hsame, hrs⟩
  apply (decryptAndHash_extends _ _ _).bind
  rintro y ⟨hy, -⟩
  apply (add64_meets _ _).bind
  rintro index rfl
  refine ⟨⟨hext.trans hy, hsame.role, hsame.messages, by rw [hsame.index]⟩, ?_⟩
  refine hrs.imp (fun hleft => ⟨hleft.1, ?_⟩) fun hmixed key hkey => (hmixed key hkey).mono rfl hy
  intro tokens' htokens'
  rw [htokens, Option.some.injEq] at htokens'
  subst htokens'
  exact fun hmem => List.not_mem_nil (hleft.2 hmem)

/-! ## The remote static key -/

/-- A message to come of the remote side has an `S` token. -/
def Awaits (h : Handshake) : Prop :=
  ∃ i tokens, h.index ≤ i ∧ h.messages[i]? = some tokens ∧ turnOf i = h.role.other ∧ .s ∈ tokens

/-- The remote static key was mixed in, or one is still to come in its place; the hash is that of the
transcript. -/
structure Attested (P : Primitives) (h : Handshake) : Prop where
  remote : ∀ key, h.rs = some key → Mixed h key ∨ Awaits h
  hash : ∃ name, h.sym.h = mixAll P name h.sym.transcript

lemma Awaits.advance (hawaits : Awaits h) (hadv : Advances P h h')
    (hdone : turnOf h.index = h.role.other → ∀ tokens, h.messages[h.index]? = some tokens → .s ∉ tokens) :
    Awaits h' := by
  obtain ⟨i, tokens, hi, htokens, hturn, hs⟩ := hawaits
  refine ⟨i, tokens, ?_, by rwa [hadv.messages], by rwa [hadv.role], hs⟩
  rw [hadv.index]
  refine Nat.lt_of_le_of_ne hi ?_
  rintro rfl
  exact hdone hturn tokens htokens hs

lemma Attested.hash_advance (hatt : Attested P h) (hadv : Advances P h h') :
    ∃ name, h'.sym.h = mixAll P name h'.sym.transcript := by
  obtain ⟨name, hname⟩ := hatt.hash
  obtain ⟨entries, ht, hh⟩ := hadv.mixed
  refine ⟨name, ?_⟩
  rw [hh, hname, ht]
  unfold mixAll
  rw [List.foldl_append]

lemma Attested.result_meets (hatt : Attested P h) (call : Call) :
    Meets True (call.result P h) fun x => Attested P x.2 := by
  cases call with
  | write payload fresh =>
    apply (writeMessage_extends h payload fresh).mono
    rintro ⟨message, h'⟩ ⟨hadv, hrs, hturn⟩
    refine ⟨fun key hkey => ?_, hatt.hash_advance hadv⟩
    rw [hrs] at hkey
    refine (hatt.remote key hkey).imp (fun hmixed => hmixed.mono hadv.role hadv.mixed) fun hawaits => ?_
    refine hawaits.advance hadv fun hother => absurd (hother.symm.trans hturn) (other_ne _)
  | read message =>
    apply (readMessage_extends h message).mono
    rintro ⟨payload, h'⟩ ⟨hadv, hrs⟩
    refine ⟨fun key hkey => ?_, hatt.hash_advance hadv⟩
    obtain ⟨hkept, hnone⟩ | hmixed := hrs
    · rw [hkept] at hkey
      refine (hatt.remote key hkey).imp (fun hmixed => hmixed.mono hadv.role hadv.mixed) fun hawaits => ?_
      exact hawaits.advance hadv fun _ => hnone
    · exact .inl (hmixed key hkey)

/-! ## The start -/

/-- A remote static key is configured only for a pattern in which the remote side has one. -/
def Config.Justified (c : Config) : Prop :=
  c.remoteStaticKey ≠ none → (patternShape c.pattern).pre c.role.other = true ∨
      sendsStatic c.role.other (patternShape c.pattern).messages = true

lemma preMessage_extends (c : Config) (s : Option KeyPair) (sym : Symmetric) (x : Bool × Role) :
    Extends P sym (preMessage P c s sym x) := by
  unfold preMessage
  dsimp only
  split
  · apply Extends.mixHash
  · exact Extends.refl rfl rfl

lemma preMessages_extends (c : Config) (s : Option KeyPair) (sym : Symmetric)
    (keys : List (Bool × Role)) : Extends P sym (keys.foldl (preMessage P c s) sym) := by
  induction keys generalizing sym with
  | nil => exact Extends.refl rfl rfl
  | cons x keys ih => exact (preMessage_extends c s sym x).trans (ih _)

variable {c : Config}

lemma mem_preMessage {owner : Role} (howner : owner ≠ c.role)
    (hkey : c.remoteStaticKey = some key) (s : Option KeyPair) (sym : Symmetric) :
    (.preStatic owner, key.bytes) ∈ (preMessage P c s sym (true, owner)).transcript := by
  unfold preMessage preKey
  dsimp only
  rw [if_pos rfl, if_neg howner, hkey]
  exact List.mem_append_right _ (List.mem_singleton_self _)

lemma mem_preMessages (hkey : c.remoteStaticKey = some key) {shape : Shape}
    (hpre : shape.pre c.role.other) (s : Option KeyPair) (sym : Symmetric) :
    (.preStatic c.role.other, key.bytes) ∈ ([(shape.initiatorPre, .initiator), (shape.responderPre, .responder)].foldl
        (preMessage P c s) sym).transcript := by
  rw [List.foldl_cons, List.foldl_cons, List.foldl_nil]
  cases hrole : c.role with
  | initiator =>
    have hresponder : shape.responderPre := by rwa [hrole] at hpre
    rw [hresponder]
    apply mem_preMessage _ hkey
    rw [hrole]
    decide
  | responder =>
    have hinitiator : shape.initiatorPre := by rwa [hrole] at hpre
    apply (preMessage_extends c s _ _).subset
    rw [hinitiator]
    apply mem_preMessage _ hkey
    rw [hrole]
    decide

variable {role : Role} {messages : List (List Token)}

lemma sendsStatic_iff : sendsStatic role messages ↔
      ∃ i tokens, messages[i]? = some tokens ∧ turnOf i = role ∧ .s ∈ tokens := by
  refine ⟨fun h => ?_, fun ⟨i, tokens, htokens, hturn, hs⟩ => sendsStatic_of_mem htokens hturn hs⟩
  unfold sendsStatic at h
  rw [List.any_eq_true] at h
  obtain ⟨⟨tokens, i⟩, hmem, hs⟩ := h
  rw [List.mem_filter, List.mem_zipIdx_iff_getElem?] at hmem
  refine ⟨i, tokens, hmem.1, ?_, by simpa using hs⟩
  have hparity := hmem.2
  unfold turnOf
  cases role <;> simp_all

/-- Psks neither add nor remove `S` tokens. -/
theorem sendsStatic_of_inserted {messages' : List (List Token)} {psks : ℕ} (hins : Inserted messages messages' psks)
    (h : sendsStatic role messages) : sendsStatic role messages' := by
  obtain ⟨i, tokens, htokens, hturn, hs⟩ := sendsStatic_iff.mp h
  have hplains : (messages'.map plain)[i]? = some (plain tokens) := by
    rw [hins.plains, List.getElem?_map, htokens]
    rfl
  rw [List.getElem?_map, Option.map_eq_some_iff] at hplains
  obtain ⟨tokens', htokens', hplain⟩ := hplains
  have hs' : .s ∈ plain tokens' := by
    rw [hplain]
    exact List.mem_filter.mpr ⟨hs, by decide⟩
  exact sendsStatic_of_mem htokens' hturn (List.mem_filter.mp hs').1

lemma Accepted.attested {s : Option KeyPair} {name : List UInt8}
    (hc : Accepted P c messages s name) (hjust : c.Justified) : Attested P (firstHandshake P c messages s name) := by
  refine ⟨fun key hkey => ?_, name, ?_⟩
  · have hkey' : c.remoteStaticKey = some key := hkey
    obtain hpre | hsends := hjust (by rw [hkey']; exact Option.some_ne_none key)
    · exact .inl (.inl (mem_preMessages hkey' hpre s _))
    · obtain ⟨i, tokens, htokens, hturn, hs⟩ := sendsStatic_iff.mp (sendsStatic_of_inserted hc.inserted hsends)
      exact .inr ⟨i, tokens, Nat.zero_le i, htokens, hturn, hs⟩
  · obtain ⟨entries, ht, hh⟩ : Extends P ⟨c.cipher, name, name, none, 0, []⟩
        (firstHandshake P c messages s name).sym :=
      (Extends.mixHash _ _ _).trans (preMessages_extends c s _ _)
    rw [List.nil_append] at ht
    rw [hh, ht]

/-- **A finished handshake reports a remote static key only if it took part.** For a configuration with a remote
static key only where the remote side has one, whatever the calls: the handshake hash is that of the transcript,
and the remote static key that a finished handshake reports stands in it, as that of the remote side's
pre-message or as one received with an `S` token. -/
theorem remoteStaticKey_mixed (P : Primitives) (c : Config) (hc : c.Justified) (h : Handshake)
    (hreach : Transition.Reachable (calls P c) h) (result : Finished) (hfinish : finish P h = some result) :
    (∃ name, result.handshakeHash = mixAll P name h.sym.transcript) ∧
      ∀ key, result.remoteStaticKey = some key → Mixed h key := by
  have hatt : Attested P h := by
    apply Reachable.invariant (I := Attested P) _ _ hreach
    · intro h hstart
      obtain ⟨messages, s, name, haccepted, rfl⟩ := (start_meets P c).of_eq_ok hstart
      exact haccepted.attested hc
    · intro h call h' hatt hstep
      dsimp only [calls] at hstep
      split at hstep
      · next x hx =>
        cases hstep
        exact (hatt.result_meets call).of_eq_ok hx
      · cases hstep
  unfold finish at hfinish
  split at hfinish
  · cases hfinish
  next hdone =>
    cases hfinish
    refine ⟨hatt.hash, fun key hkey => (hatt.remote key hkey).resolve_right ?_⟩
    rintro ⟨i, tokens, hi, htokens, -⟩
    obtain ⟨hlt, -⟩ := List.getElem?_eq_some_iff.mp htokens
    omega

/-- An initiator that learns the responder's static key. -/
def xxInitiator : Config := ⟨.XX, .initiator, .chaChaPoly, [], some (keyOf 1), none, [], .random⟩

/-- Its handshake with a responder whose static key is all twos. -/
def xxCalls : List Call :=
  [.write [] (keyOf 3), .read (List.replicate 32 4 ++ List.replicate 48 2 ++ List.replicate 16 0), .write [] (keyOf 3)]

/-- An initiator of XX gets the responder's static key in the second message. -/
theorem remoteStaticKey_mixed_received :
    ∃ h result, Transition.Reachable (calls zeros xxInitiator) h ∧ finish zeros h = some result ∧
      result.remoteStaticKey = some (zeros.x25519PublicKey (keyOf 2)) ∧ Mixed h (zeros.x25519PublicKey (keyOf 2)) := by
  have hrun : (run (calls zeros xxInitiator)
      ((start zeros xxInitiator).toOption.get (by decide)) xxCalls).isSome = true := by decide
  have hreach := Reachable.of_run (.start ?_) (Option.some_get hrun).symm
  · have hmixed := remoteStaticKey_mixed zeros xxInitiator (fun h => absurd rfl h) _ hreach _ rfl
    exact ⟨_, _, hreach, rfl, rfl, hmixed.2 _ rfl⟩
  · rfl

/-- An initiator of a handshake without static keys, configured with one for the responder. -/
def nnInitiator : Config :=
  ⟨.NN, .initiator, .chaChaPoly, [], none, some (zeros.x25519PublicKey (keyOf 9)), [], .random⟩

/-- A key that took no part in the handshake is reported. -/
theorem unused_key_reported :
    ∃ h result, Transition.Reachable (calls zeros nnInitiator) h ∧ finish zeros h = some result ∧
      result.remoteStaticKey = some (zeros.x25519PublicKey (keyOf 9)) ∧
      ¬ Mixed h (zeros.x25519PublicKey (keyOf 9)) := by
  have hrun : (run (calls zeros nnInitiator)
      ((start zeros nnInitiator).toOption.get (by decide))
      [.write [] (keyOf 3), .read (List.replicate 32 4 ++ List.replicate 16 0)]).isSome = true := by decide
  have hreach := Reachable.of_run (.start ?_) (Option.some_get hrun).symm
  · exact ⟨_, _, hreach, rfl, rfl, of_decide_eq_false rfl⟩
  · rfl

end RocNet.NoiseHandshake
