import RocNet.Analysis.BytesCodecs
import RocNet.Analysis.NoiseLockstep
import RocNet.Model.NoiseLink

/-!
# Two sides of a handshake agree

Two handshakes between messages (`Agreeing`), from two configurations that match to the end. A side that reads a
message has taken some of the bytes of its frame (`Reads`); whatever the pieces, it comes to the whole message.
-/

namespace RocNet.NoiseHandshake

open List Option Bytes Fallible

variable {P : Primitives} {used : Role → SecretKey → Prop} {a b : Handshake} {tokens : List Token}

/-! ## Messages -/

/-- How often messages can use a nonce: once for each token at most, and for the payload. -/
def budget (messages : List (List Token)) : ℕ := (messages.map fun tokens => (plain tokens).length + 1).sum

structure Agreeing (P : Primitives) (used : Role → SecretKey → Prop) (a b : Handshake) : Prop where
  keys : ∃ k, Mirror P used k a b ∧ followAll a.index (a.messages.drop a.index) k = true
  psks : pskCount (a.messages.drop a.index) ≤ a.psks.length
  sends : ∀ i tokens, a.messages[i]? = some tokens → turnOf i = a.role → .s ∈ tokens → a.s.isSome = true
  sends' : ∀ i tokens, b.messages[i]? = some tokens → turnOf i = b.role → .s ∈ tokens → b.s.isSome = true
  keyed : Keyed a.sym
  short : a.messages.length ≤ 3
  bound : a.index ≤ a.messages.length
  nonces : a.sym.n + budget (a.messages.drop a.index) ≤ highest

namespace Agreeing

lemma symm (h : Agreeing P used a b) : Agreeing P used b a := by
  obtain ⟨⟨k, hm, hfollow⟩, hpsks, hsends, hsends', hkeyed, hshort, hbound, hnonces⟩ := h
  refine ⟨⟨k, hm.symm, ?_⟩, ?_, hsends', hsends, ?_, ?_, ?_, ?_⟩
  · rwa [hm.messages, hm.index]
  · rwa [hm.messages, hm.index, hm.psks]
  · rwa [hm.sym]
  · rwa [hm.messages]
  · rwa [hm.messages, hm.index]
  · rwa [hm.messages, hm.index, hm.sym]

lemma role (h : Agreeing P used a b) : b.role = a.role.other := by
  obtain ⟨k, hm, -⟩ := h.keys
  exact hm.role

lemma index (h : Agreeing P used a b) : b.index = a.index := by
  obtain ⟨k, hm, -⟩ := h.keys
  exact hm.index

lemma messages (h : Agreeing P used a b) : b.messages = a.messages := by
  obtain ⟨k, hm, -⟩ := h.keys
  exact hm.messages

end Agreeing

lemma nextTokens_eq (htokens : a.messages[a.index]? = some tokens) (hturn : turnOf a.index = a.role) :
    nextTokens a = .ok tokens := by
  unfold nextTokens
  rw [htokens]
  dsimp only
  rw [if_pos (myTurn_iff.mpr hturn)]
  rfl

lemma nextTokensToRead_eq (htokens : a.messages[a.index]? = some tokens)
    (hturn : turnOf a.index = a.role.other) : nextTokensToRead a = .ok tokens := by
  have hmine : ¬ a.myTurn := by
    rw [myTurn_iff, hturn]
    exact other_ne a.role
  unfold nextTokensToRead
  rw [htokens]
  dsimp only
  rw [if_neg hmine]
  rfl

section Message

variable {fresh : SecretKey}

lemma Agreeing.inStep (h : Agreeing P used a b) (htokens : a.messages[a.index]? = some tokens)
    (hturn : turnOf a.index = a.role) : ∃ last limit, limit + 1 + budget (a.messages.drop (a.index + 1)) ≤ highest ∧
      followAll (a.index + 1) (a.messages.drop (a.index + 1)) last ∧
      InStep P used (a.messages.drop (a.index + 1)) last limit tokens a b := by
  obtain ⟨⟨k, hm, hfollow⟩, hpsks, hsends, -, hkeyed, -, -, hnonces⟩ := h
  rw [drop_eq_cons htokens] at hfollow hpsks hnonces
  obtain ⟨last, hlast, hrest⟩ := followAll_cons hfollow
  refine ⟨last, a.sym.n + (plain tokens).length, ?_, hrest, ⟨k, hm, ?_⟩, hpsks, hkeyed,
    hsends _ _ htokens hturn, le_rfl⟩
  · have hsplit : budget (tokens :: a.messages.drop (a.index + 1)) =
        (plain tokens).length + 1 + budget (a.messages.drop (a.index + 1)) := rfl
    omega
  · rwa [← hturn]

/-- **A message.** What the side whose turn it is writes, the other reads, unless it is too long. -/
theorem message_agrees (hcompat : Compatible P used) (hopens : P.OpensSealed) (h : Agreeing P used a b)
    (htokens : a.messages[a.index]? = some tokens) (hturn : turnOf a.index = a.role)
    (hfresh : used a.role fresh) (payload : List UInt8) :
    ∃ message a' b', compose P a tokens payload fresh = .ok (message, a') ∧
      writeMessage P a payload fresh = (if message.length > 65535 then fail .tooLong
        else .ok (message, { a' with index := a.index + 1 })) ∧
      (message.length ≤ 65535 → readMessage P b message = .ok (payload, b')) ∧
      b'.index = a.index + 1 ∧ Same a a' ∧ Agreeing P used { a' with index := a.index + 1 } b' := by
  obtain ⟨last, limit, hlimit, hrest, hin⟩ := h.inStep htokens hturn
  obtain ⟨a₁, b₁, piece, hwrite, hread, hin₁, hsame, hsame'⟩ := tokens_agree hcompat hopens (by omega) hfresh hin
  obtain ⟨⟨k, hm, hlast⟩, hpsks, hkeyed, -, hnonces⟩ := hin₁
  cases hlast
  have hn : a₁.sym.n ≤ limit := hnonces
  obtain ⟨sealed, sym', hseal, hopen, -, hkeyed', hn'⟩ := seal_agrees hopens hkeyed (by omega) .payload payload
  have hopen' := hopen (fun _ => .payload) rfl
  have hindex : (add64 a.index 1 : Result HandshakeErr Crash ℕ) = .ok (a.index + 1) := by
    have hshort := h.short
    obtain ⟨hlt, -⟩ := List.getElem?_eq_some_iff.mp htokens
    exact add64_of_lt (by omega)
  have hcompose : compose P a tokens payload fresh = .ok (piece ++ sealed, { a₁ with sym := sym' }) := by
    have hwrite' := hwrite []
    rw [nil_append] at hwrite'
    unfold compose
    rw [hwrite', ok_bind]
    dsimp only
    rw [hseal]
    rfl
  refine ⟨piece ++ sealed, { a₁ with sym := sym' }, { b₁ with sym := sym', index := a.index + 1 },
    hcompose, ?_, fun hlen => ?_, rfl, ⟨hsame.role, hsame.s, hsame.messages, hsame.index⟩, ?_⟩
  · unfold writeMessage
    rw [nextTokens_eq htokens hturn, ok_bind, hcompose, ok_bind]
    dsimp only
    rw [hsame.index, hindex]
    rfl
  · have htokens' : b.messages[b.index]? = some tokens := by rwa [h.messages, h.index]
    have hturn' : turnOf b.index = b.role.other := by rw [h.index, h.role, hturn, other_other]
    unfold readMessage
    rw [if_neg (not_lt.mpr hlen), nextTokensToRead_eq htokens' hturn', ok_bind, hread, ok_bind]
    dsimp only
    rw [hm.sym, hopen', ok_bind]
    dsimp only
    rw [hsame'.index, h.index, hindex]
    rfl
  · refine ⟨⟨last, ?_, ?_⟩, ?_, ?_, ?_, hkeyed', ?_, ?_, ?_⟩
    · exact hm.updated _ hm.psks rfl
    · dsimp only
      rwa [hsame.messages]
    · dsimp only
      rw [hsame.messages]
      rwa [count_nil, Nat.zero_add] at hpsks
    · dsimp only
      rw [hsame.messages, hsame.role, hsame.s]
      exact h.sends
    · dsimp only
      rw [hsame'.messages, hsame'.role, hsame'.s]
      exact h.sends'
    · dsimp only
      rw [hsame.messages]
      exact h.short
    · dsimp only
      rw [hsame.messages]
      exact (List.getElem?_eq_some_iff.mp htokens).1
    · dsimp only
      rw [hsame.messages]
      omega

end Message

/-! ## The end -/

/-- Two results of a handshake: what one side sends, the other receives. -/
structure Results (x y : Finished) : Prop where
  hash : x.handshakeHash = y.handshakeHash
  there : x.send = y.receive
  back : y.send = x.receive

lemma finish_agrees (h : Agreeing P used a b) (hdone : a.messages.length ≤ a.index) :
    ∃ x y, finish P a = some x ∧ finish P b = some y ∧ Results x y := by
  obtain ⟨k, hm, -⟩ := h.keys
  have hdone' : ¬ b.index < b.messages.length := by
    rw [hm.index, hm.messages]
    omega
  unfold finish
  rw [if_neg (not_lt.mpr hdone), if_neg hdone', hm.sym, hm.role]
  cases a.role with
  | initiator | responder => exact ⟨_, _, rfl, rfl, rfl, rfl, rfl⟩

/-! ## The start -/

/-- Two configurations for the two sides of one handshake: what both know in advance is the same. -/
structure Matching (P : Primitives) (c c' : Config) : Prop where
  role : c'.role = c.role.other
  pattern : c'.pattern = c.pattern
  cipher : c'.cipher = c.cipher
  prologue : c'.prologue = c.prologue
  psks : c'.psks.Perm c.psks
  known : (patternShape c.pattern).pre c.role = true →
    ∀ x, c.staticKey = some x → c'.remoteStaticKey = some (P.x25519PublicKey x)
  known' : (patternShape c.pattern).pre c'.role = true →
    ∀ x, c'.staticKey = some x → c.remoteStaticKey = some (P.x25519PublicKey x)

/-- The secret keys of a configuration are used. -/
structure Config.Uses (c : Config) (used : Role → SecretKey → Prop) : Prop where
  static : ∀ x, c.staticKey = some x → used c.role x
  fixed : ∀ x, c.ephemeral = .fixed x → used c.role x

lemma Matching.symm (h : Matching P c c') : Matching P c' c where
  role := by rw [h.role, other_other]
  pattern := h.pattern.symm
  cipher := h.cipher.symm
  prologue := h.prologue.symm
  psks := h.psks.symm
  known := by rw [h.pattern]; exact h.known'
  known' := by rw [h.pattern]; exact h.known

variable {count : ℕ} {psk : Psk} {x : List (List Token) × ℕ} {psks : List Psk} {messages messages' : List (List Token)}

lemma addPsk_ok (h : addPsk count x psk = .ok y) : psk.position ≠ x.2 ∧ y.2 = psk.position := by
  unfold addPsk at h
  split at h
  · cases h
  · next hguard =>
    refine ⟨fun heq => hguard (.inl heq), ?_⟩
    split at h
    · cases h
      rfl
    · obtain ⟨last, -, hlast⟩ := bind_eq_ok h
      cases hlast
      rfl

/-- Psks that are accepted after one another have different positions. -/
theorem pairwise_of_foldlM (hsorted : (psk :: psks).Pairwise fun a b => a.position ≤ b.position)
    (h : psks.foldlM (addPsk count) (messages, psk.position) = .ok x) :
    (psk :: psks).Pairwise fun a b => a.position < b.position := by
  induction psks generalizing psk messages with
  | nil => exact pairwise_singleton _ _
  | cons psk' psks ih =>
    rw [foldlM_cons] at h
    obtain ⟨y, hy, hrest⟩ := bind_eq_ok h
    obtain ⟨hne, hposition⟩ := addPsk_ok hy
    rw [← Prod.mk.eta (p := y), hposition] at hrest
    obtain ⟨hle, hsorted'⟩ := pairwise_cons.mp hsorted
    have hstrict := ih hsorted' hrest
    have hlt : psk.position < psk'.position := Nat.lt_of_le_of_ne (hle psk' mem_cons_self) hne.symm
    refine pairwise_cons.mpr ⟨fun psk'' hmem => ?_, hstrict⟩
    obtain rfl | hmem' := mem_cons.mp hmem
    · exact hlt
    · exact hlt.trans ((pairwise_cons.mp hstrict).1 psk'' hmem')

lemma pairwise_of_addPsks (h : addPsks messages (sortPsks psks) = .ok messages') :
    (sortPsks psks).Pairwise fun a b => a.position < b.position := by
  have hsorted : (sortPsks psks).Pairwise fun a b => a.position ≤ b.position := by
    have : Std.Total fun a b : Psk => a.position ≤ b.position := ⟨fun a b => le_total _ _⟩
    have : IsTrans Psk fun a b => a.position ≤ b.position := ⟨fun a b c => le_trans⟩
    exact pairwise_insertionSort _ psks
  obtain ⟨x, hx, -⟩ := bind_eq_ok h
  match hpsks : sortPsks psks with
  | [] => exact List.Pairwise.nil
  | psk :: rest =>
    rw [hpsks] at hx hsorted
    rw [foldlM_cons] at hx
    obtain ⟨y, hy, hrest⟩ := bind_eq_ok hx
    rw [← Prod.mk.eta (p := y), (addPsk_ok hy).2] at hrest
    exact pairwise_of_foldlM hsorted hrest

lemma sortPsks_eq (hperm : psks'.Perm psks) (h : addPsks messages (sortPsks psks) = .ok messages₁)
    (h' : addPsks messages (sortPsks psks') = .ok messages₂) : sortPsks psks' = sortPsks psks := by
  apply Perm.eq_of_pairwise _ (pairwise_of_addPsks h') (pairwise_of_addPsks h)
  · exact (perm_insertionSort _ _).trans (hperm.trans (perm_insertionSort _ _).symm)
  · intro x y _ _ hxy hyx
    omega

lemma staticPair_ok (h : staticPair P c needed = .ok s) : s = c.staticKey.map P.pair := by
  unfold staticPair at h
  split at h
  · next x hx =>
    cases h
    rw [hx]
    rfl
  · next hnone =>
    split at h
    · cases h
    · cases h
      rw [hnone]
      rfl

section Start

variable {c c' : Config} {m m' : List (List Token)} {s s' : Option KeyPair} {name name' : List UInt8}

section

variable (hmatch : Matching P c c') (hc : Accepted P c m s name)

include hmatch hc

/-- The static key of a side that is known in advance, as both sides have it. -/
theorem Matching.static (hpre : (patternShape c.pattern).pre c.role) :
    ∃ x, c.staticKey = some x ∧ s = some (P.pair x) ∧ c'.remoteStaticKey = some (P.x25519PublicKey x) := by
  have hs := staticPair_ok hc.static
  have hsome := hc.pre hpre
  rw [hs, isSome_map] at hsome
  obtain ⟨x, hx⟩ := isSome_iff_exists.mp hsome
  refine ⟨x, hx, ?_, hmatch.known hpre x hx⟩
  rw [hs, hx]
  rfl

lemma Matching.preKey_eq (hpre : (patternShape c.pattern).pre c.role) : preKey c' s' c.role = preKey c s c.role := by
  obtain ⟨x, -, hs, hremote⟩ := hmatch.static hc hpre
  have hne : c.role ≠ c'.role := by
    rw [hmatch.role]
    exact (other_ne c.role).symm
  unfold preKey
  rw [if_neg hne, if_pos rfl, hremote, hs]
  rfl

lemma Matching.preMessage_eq (hc' : Accepted P c' m' s' name')
    (hpresent : present = (patternShape c.pattern).pre owner) (sym : Symmetric) :
    preMessage P c' s' sym (present, owner) = preMessage P c s sym (present, owner) := by
  unfold preMessage
  dsimp only
  split
  · next hpre =>
    rw [hpresent] at hpre
    have howner : owner = c.role ∨ owner = c'.role := by
      rw [hmatch.role]
      cases owner <;> cases c.role <;> simp [Role.other]
    obtain rfl | rfl := howner
    · rw [hmatch.preKey_eq hc hpre]
    · rw [← hmatch.symm.preKey_eq hc' (by rwa [hmatch.pattern])]
  · rfl

lemma Matching.shares (huses : c.Uses used) :
    Shares P used (patternShape c.pattern).known (firstHandshake P c m s name) (firstHandshake P c' m' s' name') := by
  refine ⟨fun he => absurd he Bool.false_ne_true, fun hpre => ?_, fun pair hpair => ?_, huses.fixed⟩
  · obtain ⟨x, hx, hs, hremote⟩ := hmatch.static hc hpre
    exact ⟨x, huses.static x hx, hs, hremote⟩
  · have hs : c.staticKey.map P.pair = some pair := by
      rw [← staticPair_ok hc.static]
      exact hpair
    obtain ⟨x, hx, rfl⟩ := map_eq_some_iff.mp hs
    exact ⟨x, huses.static x hx, rfl⟩

end

lemma budget_patternShape (p : Pattern) : budget (patternShape p).messages ≤ highest := by
  cases p <;> decide

lemma budget_congr (h : messages'.map plain = messages.map plain) : budget messages' = budget messages := by
  have hbudget : ∀ messages, budget messages = ((messages.map plain).map fun tokens => tokens.length + 1).sum := by
    intro messages
    unfold budget
    rw [List.map_map]
    rfl
  rw [hbudget, hbudget, h]

lemma preMessage_n (sym : Symmetric) (x : Bool × Role) : (preMessage P c s sym x).n = sym.n := by
  unfold preMessage
  dsimp only
  split <;> rfl

lemma start_agrees (hmatch : Matching P c c') (huses : c.Uses used) (huses' : c'.Uses used)
    (hstart : start P c = .ok a) (hstart' : start P c' = .ok b) : Agreeing P used a b := by
  obtain ⟨m, s, name, hc, rfl⟩ := (start_meets P c).of_eq_ok hstart
  obtain ⟨m', s', name', hc', rfl⟩ := (start_meets P c').of_eq_ok hstart'
  have hpsks : sortPsks c'.psks = sortPsks c.psks := by
    apply sortPsks_eq hmatch.psks hc.psks
    rw [← hmatch.pattern]
    exact hc'.psks
  have hm : m' = m := by
    have hadd := hc'.psks
    rw [hmatch.pattern, hpsks, hc.psks] at hadd
    cases hadd
    rfl
  have hname : name' = name := by
    have hhash := hc'.name
    unfold nameHash Config.protocolName at hhash
    rw [hmatch.pattern, hpsks, hmatch.cipher] at hhash
    have hhash' := hc.name
    unfold nameHash Config.protocolName at hhash'
    rw [hhash'] at hhash
    cases hhash
    rfl
  have hsym : (firstHandshake P c' m' s' name').sym = (firstHandshake P c m s name).sym := by
    have hinitiator : ∀ sym, preMessage P c' s' sym ((patternShape c.pattern).initiatorPre, .initiator) =
        preMessage P c s sym ((patternShape c.pattern).initiatorPre, .initiator) :=
      hmatch.preMessage_eq hc hc' rfl
    have hresponder : ∀ sym, preMessage P c' s' sym ((patternShape c.pattern).responderPre, .responder) =
        preMessage P c s sym ((patternShape c.pattern).responderPre, .responder) :=
      hmatch.preMessage_eq hc hc' rfl
    dsimp only [firstHandshake]
    rw [hmatch.pattern, hmatch.cipher, hmatch.prologue, hname, foldl_cons, foldl_cons,
      foldl_nil, hinitiator, hresponder]
    rfl
  have hable := hc.able
  refine ⟨⟨(patternShape c.pattern).known, ?_, ?_⟩, hable.psks, hable.sends, hc'.able.sends, hable.keyed,
    hable.short, Nat.zero_le _, ?_⟩
  · refine ⟨hmatch.role, hsym, ?_, ?_, hm, rfl, hmatch.shares hc huses, ?_⟩
    · dsimp only [firstHandshake]
      rw [hpsks]
    · dsimp only [firstHandshake]
      rw [hpsks]
    · rw [← hmatch.pattern]
      exact hmatch.symm.shares hc' huses'
  · dsimp only [firstHandshake]
    rw [drop_zero, followAll_congr hc.inserted.plains]
    apply followAll_patternShape
  · have hzero : (firstHandshake P c m s name).sym.n = 0 := by
      dsimp only [firstHandshake]
      rw [foldl_cons, foldl_cons, foldl_nil, preMessage_n, preMessage_n]
      rfl
    rw [hzero, Nat.zero_add]
    dsimp only [firstHandshake]
    rw [drop_zero, budget_congr hc.inserted.plains]
    apply budget_patternShape

end Start

/-! ## Reading a message in pieces -/

variable {p : Party} {message consumed bytes rest : List UInt8} {phase : Phase}

lemma u16BeAt_u16Be (n : UInt16) : u16BeAt (u16Be n) 0 = .ok n := by
  have hdec := u16Be_codec.dec_enc n []
  rw [append_nil] at hdec
  rw [u16BeAt, u16Be_codec.takeAt_eq, UInt64.toNat_zero, drop_zero, hdec]
  rfl

@[simp] lemma u16Be_length (n : UInt16) : (u16Be n).length = 2 := rfl

lemma frame_length (message : List UInt8) : (frame message).length = 2 + message.length := by
  unfold frame
  rw [length_append, u16Be_length]

/-- A side has taken these bytes of the frame of a message. -/
inductive Reads (message : List UInt8) : Phase → List UInt8 → Prop
  | loop : Reads message .loop []
  | header (h : got.length < 2) : Reads message (.header got) got
  | body (h : got.length < message.length) : Reads message (.body message.length got) (u16Be (.ofNat message.length) ++ got)

/-- What is asked for is no more than what is left of the frame. -/
theorem Reads.wants_le (h : Reads message phase consumed) : consumed.length + phase.wants ≤ (frame message).length := by
  rw [frame_length]
  cases h with
  | loop =>
    simp only [length_nil, Phase.wants]
    omega
  | header h =>
    simp only [Phase.wants]
    omega
  | body h =>
    simp only [length_append, u16Be_length, Phase.wants]
    omega

lemma Reads.lt_length (h : Reads message phase consumed) : consumed.length < (frame message).length := by
  rw [frame_length]
  cases h with
  | loop =>
    simp only [length_nil]
    omega
  | header h => omega
  | body h =>
    simp only [length_append, u16Be_length]
    omega

lemma collect_cases (hsplit : consumed ++ rest = message) :
    (Reads message (.body message.length consumed) (u16Be (.ofNat message.length) ++ consumed) ∧
      p.collect P message.length consumed = { p with phase := .body message.length consumed }) ∨
    (consumed = message ∧ p.collect P message.length consumed = p.readWhole P message) := by
  unfold Party.collect
  split
  · next hlt => exact .inl ⟨.body hlt, rfl⟩
  · next hge =>
    have hrest : rest = [] := by
      have hlength := congrArg length hsplit
      rw [length_append] at hlength
      exact eq_nil_of_length_eq_zero (by omega)
    rw [hrest, append_nil] at hsplit
    exact .inr ⟨hsplit, by rw [hsplit]⟩

lemma receive_cases (hlength : message.length ≤ 65535) (h : Reads message p.phase consumed)
    (hwants : bytes.length ≤ p.phase.wants) (hbytes : bytes ≠ [])
    (hframe : consumed ++ bytes ++ rest = frame message) :
    (∃ phase, Reads message phase (consumed ++ bytes) ∧ p.receive P bytes = { p with phase }) ∨
      (consumed ++ bytes = frame message ∧ p.receive P bytes = p.readWhole P message) := by
  have hpos : 0 < bytes.length := length_pos_iff.mpr hbytes
  generalize hphase : p.phase = phase at h hwants
  cases h with
  | loop =>
    simp only [Phase.wants] at hwants
    omega
  | header hgot =>
    simp only [Phase.wants] at hwants
    unfold Party.receive
    rw [hphase]
    dsimp only
    split
    · next hlt => exact .inl ⟨_, .header hlt, rfl⟩
    · next hge =>
      have htwo : (consumed ++ bytes).length = (u16Be (.ofNat message.length)).length := by
        rw [length_append] at hge ⊢
        rw [u16Be_length]
        omega
      obtain ⟨hheader, hrest⟩ := append_inj hframe htwo
      have hwhole : (UInt16.ofNat message.length).toNat = message.length := UInt16.toNat_ofNat_of_lt (Nat.lt_succ_of_le hlength)
      rw [hheader, u16BeAt_u16Be, Except.toOption, Option.getD_some, hwhole]
      obtain ⟨hreads, hcollect⟩ | ⟨hnil, hcollect⟩ := collect_cases (p := p) (P := P) (nil_append message)
      · refine .inl ⟨_, ?_, hcollect⟩
        rwa [append_nil] at hreads
      · refine .inr ⟨?_, hcollect⟩
        unfold frame
        rw [← hnil, append_nil]
  | body hgot =>
    next got =>
    unfold Party.receive
    rw [hphase]
    dsimp only
    have hsplit : (got ++ bytes) ++ rest = message := by
      unfold frame at hframe
      rw [append_assoc, append_assoc, append_cancel_left_eq] at hframe
      rw [append_assoc, hframe]
    obtain ⟨hreads, hcollect⟩ | ⟨hwhole, hcollect⟩ := collect_cases (p := p) (P := P) hsplit
    · refine .inl ⟨_, ?_, hcollect⟩
      rwa [append_assoc]
    · refine .inr ⟨?_, hcollect⟩
      unfold frame
      rw [append_assoc, hwhole]

end RocNet.NoiseHandshake
