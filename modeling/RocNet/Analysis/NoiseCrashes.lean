import RocNet.Analysis.NoisePatterns
import RocNet.Library.Transition

/-!
# No peer can crash a handshake

Any calls of `write_message!` and `read_message!`, in any order and on any bytes. The invariant (`Able`) ties the
messages to come to the keys held.
-/

namespace RocNet.NoiseHandshake

open Fallible Transition

variable {P : Primitives} {h : Handshake} {sym : Symmetric} {tokens : List Token} {owner : Role}

/-! ## Messages -/

/-- What the messages to come need of a handshake. -/
structure Able (h : Handshake) : Prop where
  keys : ∃ k, Holds k h ∧ followAll h.index (h.messages.drop h.index) k = true
  psks : pskCount (h.messages.drop h.index) ≤ h.psks.length
  sends : ∀ i tokens, h.messages[i]? = some tokens → turnOf i = h.role → .s ∈ tokens → h.s.isSome = true
  keyed : Keyed h.sym
  short : h.messages.length ≤ 3

lemma myTurn_iff : h.myTurn ↔ turnOf h.index = h.role := by
  unfold Handshake.myTurn turnOf
  cases h.role <;> by_cases hindex : h.index % 2 = 0 <;> simp [hindex]

lemma turnOf_of_not_myTurn (hturn : ¬ h.myTurn) : turnOf h.index = h.role.other := by
  rw [myTurn_iff] at hturn
  cases hrole : h.role <;> cases hwho : turnOf h.index <;> simp_all [Role.other]

lemma nextTokens_meets : Meets False (nextTokens h) fun tokens =>
      h.messages[h.index]? = some tokens ∧ turnOf h.index = h.role := by
  unfold nextTokens
  split
  · trivial
  · next tokens htokens =>
    split
    · next hturn => exact ⟨htokens, myTurn_iff.mp hturn⟩
    · trivial

lemma nextTokensToRead_meets : Meets False (nextTokensToRead h) fun tokens =>
      h.messages[h.index]? = some tokens ∧ turnOf h.index = h.role.other := by
  unfold nextTokensToRead
  split
  · trivial
  · next tokens htokens =>
    split
    · trivial
    · next hturn => exact ⟨htokens, turnOf_of_not_myTurn hturn⟩

lemma drop_eq_cons (htokens : h.messages[h.index]? = some tokens) :
    h.messages.drop h.index = tokens :: h.messages.drop (h.index + 1) := by
  obtain ⟨hlt, rfl⟩ := List.getElem?_eq_some_iff.mp htokens
  exact List.drop_eq_getElem_cons hlt

namespace Able

lemma midway (hable : Able h) (htokens : h.messages[h.index]? = some tokens) :
    ∃ last, followAll (h.index + 1) (h.messages.drop (h.index + 1)) last ∧
      Midway (turnOf h.index) (h.messages.drop (h.index + 1)) last tokens h := by
  obtain ⟨⟨k, hk, hfollow⟩, hpsks, -, hkeyed, -⟩ := hable
  rw [drop_eq_cons htokens] at hfollow hpsks
  obtain ⟨last, hlast, hrest⟩ := followAll_cons hfollow
  exact ⟨last, hrest, ⟨k, hk, hlast⟩, hpsks, hkeyed⟩

variable {h' : Handshake}

lemma next (hable : Able h) (hrest : followAll (h.index + 1) (h.messages.drop (h.index + 1)) last)
    (hmid : Midway owner (h.messages.drop (h.index + 1)) last [] h') (hsame : Same h h') (hkeyed : Keyed sym') :
    Able { h' with sym := sym', index := h'.index + 1 } := by
  obtain ⟨⟨k, hk, hlast⟩, hpsks, -⟩ := hmid
  cases hlast
  refine ⟨⟨last, hk.congr rfl rfl rfl rfl rfl, ?_⟩, ?_, ?_, hkeyed, ?_⟩
  · dsimp only
    rwa [hsame.messages, hsame.index]
  · dsimp only
    rw [hsame.messages, hsame.index]
    rwa [List.count_nil, Nat.zero_add] at hpsks
  · dsimp only
    rw [hsame.messages, hsame.role, hsame.s]
    exact hable.sends
  · dsimp only
    rw [hsame.messages]
    exact hable.short

lemma add64_index (hable : Able h) (htokens : h.messages[h.index]? = some tokens)
    (hsame : Same h h') : (add64 h'.index 1 : Result HandshakeErr Crash ℕ) = pure (h'.index + 1) := by
  obtain ⟨hlt, -⟩ := List.getElem?_eq_some_iff.mp htokens
  have hshort := hable.short
  apply add64_of_lt
  rw [hsame.index]
  omega

lemma writeMessage_meets (hable : Able h) (payload : List UInt8) (fresh : SecretKey) :
    Meets False (writeMessage P h payload fresh) fun x => Able x.2 := by
  unfold writeMessage compose
  apply nextTokens_meets.bind
  rintro tokens ⟨htokens, hturn⟩
  obtain ⟨last, hrest, hmid⟩ := hable.midway htokens
  have hfold : Meets False (tokens.foldlM (writeToken P fresh) (h, [])) fun x =>
      Midway (turnOf h.index) (h.messages.drop (h.index + 1)) last [] x.1 ∧ Same h x.1 ∧ [] ⊆ tokens := by
    apply Meets.foldlM (I := fun rest (x : Handshake × List UInt8) =>
      Midway (turnOf h.index) (h.messages.drop (h.index + 1)) last rest x.1 ∧ Same h x.1 ∧ rest ⊆ tokens)
    · rintro token rest x ⟨hx, hsame, hsub⟩
      obtain ⟨hmem, hsub'⟩ := List.cons_subset.mp hsub
      have hs : token = .s → x.1.s.isSome := by
        rintro rfl
        rw [hsame.s]
        exact hable.sends _ _ htokens hturn hmem
      apply (writeToken_meets (hsame.role.trans hturn.symm) hs hx).mono
      exact fun y hy => ⟨hy.1, hsame.trans hy.2, hsub'⟩
    · exact ⟨hmid, Same.refl h, List.Subset.refl _⟩
  rw [bind_assoc]
  apply hfold.bind
  rintro x ⟨hx, hsame, -⟩
  rw [bind_assoc]
  apply (encryptAndHash_meets hx.keyed _ _).bind
  intro y hy
  rw [pure_bind]
  dsimp only
  split
  · trivial
  · rw [hable.add64_index htokens hsame]
    exact hable.next hrest hx hsame hy

lemma readMessage_meets (hopen : P.OpensShorter) (hable : Able h) (message : List UInt8) :
    Meets False (readMessage P h message) fun x => Able x.2 := by
  unfold readMessage
  split
  · trivial
  apply nextTokensToRead_meets.bind
  rintro tokens ⟨htokens, hturn⟩
  obtain ⟨last, hrest, hmid⟩ := hable.midway htokens
  have hfold : Meets False (tokens.foldlM (readToken P) (h, message)) fun x =>
      Midway (turnOf h.index) (h.messages.drop (h.index + 1)) last [] x.1 ∧ Same h x.1 := by
    apply Meets.foldlM (I := fun rest (x : Handshake × List UInt8) =>
      Midway (turnOf h.index) (h.messages.drop (h.index + 1)) last rest x.1 ∧ Same h x.1)
    · rintro token rest x ⟨hx, hsame⟩
      have hrole : x.1.role.other = turnOf h.index := by rw [hsame.role, hturn]
      exact (readToken_meets hopen hrole hx).mono fun y hy => ⟨hy.1, hsame.trans hy.2⟩
    · exact ⟨hmid, Same.refl h⟩
  apply hfold.bind
  rintro x ⟨hx, hsame⟩
  apply (decryptAndHash_meets hopen hx.keyed _ _).bind
  rintro y ⟨hy, -⟩
  dsimp only
  rw [hable.add64_index htokens hsame]
  exact hable.next hrest hx hsame hy

end Able

/-! ## The start -/

lemma patternShape_length (p : Pattern) :
    0 < (patternShape p).messages.length ∧ (patternShape p).messages.length ≤ 3 := by
  cases p <;> decide

lemma pskCount_patternShape (p : Pattern) : pskCount (patternShape p).messages = 0 := by
  cases p <;> rfl

variable {messages : List (List Token)}

lemma sendsStatic_of_mem (htokens : messages[i]? = some tokens) (hturn : turnOf i = role) (hs : .s ∈ tokens) :
    sendsStatic role messages := by
  unfold sendsStatic
  rw [List.any_eq_true]
  refine ⟨(tokens, i), List.mem_filter.mpr ⟨?_, ?_⟩, by simpa using hs⟩
  · rw [List.mem_zipIdx_iff_getElem?]
    exact htokens
  · subst hturn
    unfold turnOf
    by_cases hi : i % 2 = 0
    · simp [hi]
    · have hi' : i % 2 = 1 := by omega
      simp [hi']

lemma staticPair_meets (c : Config) (needed : Bool) :
    Meets False (staticPair P c needed) fun s => needed = true → s.isSome = true := by
  unfold staticPair
  split
  · exact fun _ => rfl
  · split
    · trivial
    · next hneeded => exact fun h => absurd h hneeded

lemma nameHash_meets (c : Config) : Meets False (nameHash P c) fun _ => True := by
  unfold nameHash
  dsimp only
  split
  · next hlen =>
    rw [sub64_of_le hlen]
    trivial
  · trivial

/-- Mixing in the pre-messages leaves the symmetric state without a key. -/
theorem preMessages_keyed (c : Config) (s : Option KeyPair) (keys : List (Bool × Role))
    (hkeyed : Keyed sym) : Keyed (keys.foldl (preMessage P c s) sym) := by
  induction keys generalizing sym with
  | nil => exact hkeyed
  | cons x keys ih =>
    apply ih
    unfold preMessage
    dsimp only
    split
    · exact hkeyed.mixHash _ _
    · exact hkeyed

/-- What `start!` has checked of a configuration. -/
structure Accepted (P : Primitives) (c : Config) (messages : List (List Token)) (s : Option KeyPair)
    (name : List UInt8) : Prop where
  psks : addPsks (patternShape c.pattern).messages (sortPsks c.psks) = .ok messages
  inserted : Inserted (patternShape c.pattern).messages messages (sortPsks c.psks).length
  static : staticPair P c (sendsStatic c.role messages || (patternShape c.pattern).pre c.role) = .ok s
  sends : sendsStatic c.role messages = true → s.isSome = true
  pre : (patternShape c.pattern).pre c.role = true → s.isSome = true
  remote : (patternShape c.pattern).pre c.role.other = true → c.remoteStaticKey.isSome = true
  name : nameHash P c = .ok name

lemma start_meets (P : Primitives) (c : Config) : Meets False (start P c) fun h =>
      ∃ messages s name, Accepted P c messages s name ∧ h = firstHandshake P c messages s name := by
  unfold start
  dsimp only
  split
  · trivial
  apply (addPsks_meets _ (patternShape_length c.pattern).1).with_eq.bind
  rintro messages ⟨hpsks, hmessages⟩
  apply (staticPair_meets c _).with_eq.bind
  rintro s ⟨hstatic, hs⟩
  split
  · trivial
  next hremote =>
    apply (nameHash_meets c).with_eq.bind
    rintro name ⟨hname, -⟩
    refine ⟨messages, s, name, ⟨hpsks, hmessages, hstatic, fun h => ?_, fun h => ?_, fun h => ?_, hname⟩, rfl⟩
    · exact hs (by rw [h, Bool.true_or])
    · exact hs (by rw [h, Bool.or_true])
    · rwa [h, Bool.true_and, Option.isNone_iff_eq_none, ← ne_eq, Option.ne_none_iff_isSome] at hremote

lemma Accepted.able {c : Config} {s : Option KeyPair} {name : List UInt8}
    (hc : Accepted P c messages s name) : Able (firstHandshake P c messages s name) := by
  refine ⟨⟨(patternShape c.pattern).known, ⟨?_, hc.pre, ?_, hc.remote⟩, ?_⟩, ?_, ?_, ?_, ?_⟩
  · exact fun he => absurd he Bool.false_ne_true
  · exact fun hre => absurd hre Bool.false_ne_true
  · dsimp only [firstHandshake]
    rw [List.drop_zero, followAll_congr hc.inserted.plains]
    apply followAll_patternShape
  · dsimp only [firstHandshake]
    rw [List.drop_zero, hc.inserted.count, pskCount_patternShape, Nat.zero_add, List.length_map]
  · intro i tokens htokens hturn hmem
    exact hc.sends (sendsStatic_of_mem htokens hturn hmem)
  · apply preMessages_keyed
    apply Keyed.mixHash
    exact ⟨fun key hkey => (Option.some_ne_none key hkey.symm).elim, Nat.zero_le _⟩
  · dsimp only [firstHandshake]
    rw [hc.inserted.length]
    exact (patternShape_length c.pattern).2

/-! ## Sequences of calls -/

/-- A call on a handshake, with the secret key a random ephemeral key comes to. -/
inductive Call
  | write (payload : List UInt8) (fresh : SecretKey)
  | read (message : List UInt8)
  deriving DecidableEq, Repr

/-- What a call returns: a message or a payload, and the handshake to go on with. -/
def Call.result (P : Primitives) (h : Handshake) : Call → Result HandshakeErr Crash (List UInt8 × Handshake)
  | .write payload fresh => writeMessage P h payload fresh
  | .read message => readMessage P h message

/-- The handshakes of a configuration: from `start!`, by calls that succeed. -/
def calls (P : Primitives) (c : Config) : System Handshake Call where
  init h := start P c = .ok h
  step h call :=
    match call.result P h with
    | .ok x => some x.2
    | .error _ => none

lemma Able.result_meets (hopen : P.OpensShorter) (hable : Able h) (call : Call) :
    Meets False (call.result P h) fun x => Able x.2 := by
  cases call with
  | write payload fresh => exact hable.writeMessage_meets payload fresh
  | read message => exact hable.readMessage_meets hopen message

/-- **No peer can crash a handshake.** Whatever the configuration, `start!` does not crash, and neither does a
call of `write_message!` or `read_message!` on a handshake that any sequence of successful calls leads to,
whatever the payloads, the messages and the ephemeral keys. -/
theorem handshake_never_crashes (P : Primitives) (hopen : P.OpensShorter) (c : Config) :
    (∀ why, start P c ≠ crash why) ∧
      ∀ h, Transition.Reachable (calls P c) h → ∀ (call : Call) why, call.result P h ≠ crash why := by
  refine ⟨(start_meets P c).ne_crash, fun h hreach call => ?_⟩
  have hable : Able h := by
    apply Reachable.invariant (I := Able) _ _ hreach
    · intro h hstart
      obtain ⟨messages, s, name, hc, rfl⟩ := (start_meets P c).of_eq_ok hstart
      exact hc.able
    · intro h call h' hable hstep
      dsimp only [calls] at hstep
      split at hstep
      · next x hx =>
        cases hstep
        exact (hable.result_meets hopen call).of_eq_ok hx
      · cases hstep
  exact (hable.result_meets hopen call).ne_crash

/-- Primitives that compute nothing: hashes and keys of zeros, and a tag of zeros for sealing. -/
def zeros : Primitives where
  sha256 _ := Vector.replicate 32 0
  x25519PublicKey secret := ⟨secret.bytes, secret.length⟩
  x25519Shared _ _ := some (List.replicate 32 0)
  aeadSeal _ _ _ _ plaintext := plaintext ++ List.replicate 16 0
  aeadOpen _ _ _ _ ciphertext :=
    if 16 ≤ ciphertext.length then some (ciphertext.take (ciphertext.length - 16)) else none

lemma zeros_opensShorter : zeros.OpensShorter := by
  intro cipher key nonce associatedData ciphertext plaintext hopen
  dsimp only [zeros] at hopen
  split at hopen
  · cases hopen
    rw [List.length_take]
    omega
  · cases hopen

/-- Keys of one byte, repeated. -/
def keyOf (byte : UInt8) : SecretKey := ⟨List.replicate 32 byte, List.length_replicate⟩

/-- A responder with a psk, without the static keys that its pattern does not need. -/
def pskResponder : Config :=
  ⟨.NN, .responder, .chaChaPoly, [], none, none, [⟨1, List.replicate 32 7⟩], .random⟩

/-- One that has read a first message. -/
theorem handshake_never_crashes_afterRead : ∃ h, Transition.Reachable (calls zeros pskResponder) h ∧ h.index = 1 ∧
      ∀ (call : Call) why, call.result zeros h ≠ crash why := by
  have hstart : (start zeros pskResponder).toOption.isSome := by decide
  have hrun : (run (calls zeros pskResponder) ((start zeros pskResponder).toOption.get hstart)
      [.read (List.replicate 48 5)]).isSome = true := rfl
  have hreach := Reachable.of_run (.start ?_) (Option.some_get hrun).symm
  · exact ⟨_, hreach, rfl, (handshake_never_crashes zeros zeros_opensShorter pskResponder).2 _ hreach⟩
  · rfl

end RocNet.NoiseHandshake
