import RocNet.Analysis.NoiseLinkSteps

/-!
# Handshakes agree

Two sides that start from configurations that match, with messages that are handed over whole or go over a pair of
streams.
-/

namespace RocNet.NoiseHandshake

open Fallible Function List Option

variable {P : Primitives} {used : Role → SecretKey → Prop} {payloads : Role → List (List UInt8)}
  {x x' : Link} {r w : Role} {result result' : Finished}

/-! ## Messages that are handed over -/

def Both (P : Primitives) (used : Role → SecretKey → Prop) (y : Role → Handshake) : Prop :=
  ∀ r, (y r).role = r ∧ Agreeing P used (y r) (y r.other)

section Both

variable {y y' : Role → Handshake} {payload : List UInt8} {fresh : SecretKey}

lemma Both.index_eq (h : Both P used y) (r q : Role) :
    (y q).index = (y r).index ∧ (y q).messages = (y r).messages := by
  obtain rfl | rfl := eq_or_eq_other q r
  · exact ⟨rfl, rfl⟩
  · exact ⟨(h r).2.index, (h r).2.messages⟩

lemma Both.myTurn_other (h : Both P used y) (w : Role) : (y w.other).myTurn ↔ ¬ (y w).myTurn := by
  rw [myTurn_iff, myTurn_iff, (h w).1, (h w.other).1, (h w).2.index]
  generalize turnOf (y w).index = t
  cases t <;> cases w <;> simp [Role.other]

/-- **One message.** The side whose turn it is composes it; unless it is too long, the other reads its
payload, and both sides are between messages again. -/
theorem Both.exchange (hcompat : Compatible P used) (hopens : P.OpensSealed) (h : Both P used y)
    (hmore : (y w).isFinished = false) (hturn : (y w).myTurn) (hfresh : used w fresh) (payload : List UInt8) :
    ∃ tokens message a, (y w).messages[(y w).index]? = some tokens ∧
      compose P (y w) tokens payload fresh = .ok (message, a) ∧
      (65535 < message.length → exchange P y w payload fresh = fail .tooLong) ∧
      (message.length ≤ 65535 → ∃ y', exchange P y w payload fresh = .ok (payload, y') ∧
        (∀ r, (y' r).index = (y r).index + 1) ∧ Both P used y') := by
  obtain ⟨hrole, hagree⟩ := h w
  have hlt : (y w).index < (y w).messages.length := by
    unfold Handshake.isFinished at hmore
    rw [decide_eq_false_iff_not] at hmore
    omega
  rw [myTurn_iff] at hturn
  rw [← hrole] at hfresh
  obtain ⟨message, a', b', hcompose, hwrite, hread, hindex, hsame, hagree'⟩ :=
    message_agrees hcompat hopens hagree (List.getElem?_eq_getElem hlt) hturn hfresh payload
  refine ⟨_, message, a', List.getElem?_eq_getElem hlt, hcompose, fun hlong => ?_, fun hfits => ?_⟩
  · rw [if_pos hlong] at hwrite
    unfold NoiseHandshake.exchange
    rw [hwrite]
    rfl
  rw [if_neg (not_lt.mpr hfits)] at hwrite
  refine ⟨update (update y w { a' with index := (y w).index + 1 }) w.other b', ?_, ?_, ?_⟩
  · unfold NoiseHandshake.exchange
    rw [hwrite, ok_bind]
    dsimp only
    rw [hread hfits]
    rfl
  · intro r
    obtain rfl | rfl := eq_or_eq_other r w
    · rw [update_of_ne (other_ne r).symm, update_self]
    · rw [update_self, hindex, hagree.index]
  · have hrole' : a'.role = w := hsame.role.trans hrole
    intro r
    obtain rfl | rfl := eq_or_eq_other r w
    · rw [update_of_ne (other_ne r).symm, update_self, update_self]
      exact ⟨hrole', hagree'⟩
    · rw [other_other, update_self, update_of_ne (other_ne w).symm, update_self]
      exact ⟨by rw [hagree'.role, hrole'], hagree'.symm⟩

lemma Both.step (hcompat : Compatible P used) (hopens : P.OpensSealed) (h : Both P used y)
    (hfresh : used l.writer l.fresh) {started : Role → Handshake} (hstep : (alternation P started).step y l = some y') :
    Both P used y' := by
  obtain ⟨⟨received, y''⟩, hsome, rfl⟩ := map_eq_some_iff.mp hstep
  have hok : NoiseHandshake.exchange P y l.writer l.payload l.fresh = .ok (received, y'') := by
    cases hexchange : NoiseHandshake.exchange P y l.writer l.payload l.fresh with
    | ok z =>
      rw [hexchange] at hsome
      cases hsome
      rfl
    | error e =>
      rw [hexchange] at hsome
      cases hsome
  -- it has been written, so that it was the turn of its writer
  obtain ⟨written, hwrite, -⟩ := bind_eq_ok hok
  obtain ⟨tokens, htokens, -⟩ := bind_eq_ok hwrite
  obtain ⟨hget, hturn⟩ := nextTokens_meets.of_eq_ok htokens
  obtain ⟨hlt, -⟩ := List.getElem?_eq_some_iff.mp hget
  have hmore : (y l.writer).isFinished = false := decide_eq_false (not_le.mpr hlt)
  obtain ⟨_, message, _, -, -, hlong, hfits⟩ := h.exchange hcompat hopens hmore (myTurn_iff.mpr hturn) hfresh l.payload
  obtain hle | hgt := lt_or_ge 65535 message.length |>.symm
  · obtain ⟨z, hz, -, hboth⟩ := hfits hle
    rw [hok] at hz
    cases hz
    exact hboth
  · rw [hok] at hlong
    cases hlong hgt

end Both

/-! ## Over streams -/

namespace Linked

/-- What is left on the stream of a side that is done is not of the handshake, and it has received all
that the other had to send. -/
theorem of_done (h : Linked P used payloads x) (hdone : (x.party r).phase = .done result) :
    x.inbox r = x.sent r.other ∧ (x.party r).handshake.isFinished ∧ (x.party r).received =
        padded (payloads r.other) (turns r.other (x.party r).handshake.messages.length) := by
  -- a side between messages that is done has its last message behind it
  have hfinished : Rests P (x.party r) → (x.party r).handshake.index ≤ (x.party r).handshake.messages.length →
      (x.party r).handshake.index = (x.party r).handshake.messages.length := by
    intro hrests hle
    cases hrests with
    | loop hphase | header hphase =>
      rw [hdone] at hphase
      cases hphase
    | done result' hphase hfinish => exact le_antisymm hle (done_of_finish hfinish)
  cases h with
  | calm h =>
    have hindex := hfinished (h.rests r) (h.agree r).bound
    refine ⟨h.inbox r, decide_eq_true hindex.ge, ?_⟩
    rw [← hindex]
    exact (h.books r).received
  | @sending w a _ _ _ _ _ left h =>
    obtain rfl | rfl := eq_or_eq_other r w
    · generalize left = left' at h
      cases h.writes with
      | writing hphase =>
        rw [hdone] at hphase
        cases hphase
      | written hnext hrests =>
        have hindex := hfinished hrests (by rw [hnext]; exact h.agree.bound)
        refine ⟨by rw [h.inbox', h.sent'], decide_eq_true hindex.ge, ?_⟩
        rw [← hindex, hnext]
        exact h.books.received
    · have hreads := h.reads
      rw [hdone] at hreads
      cases hreads

lemma results (h : Linked P used payloads x) (hdone : (x.party .initiator).phase = .done result)
    (hdone' : (x.party .responder).phase = .done result') : Results result result' := by
  have hboth : ∀ r, ∃ result, (x.party r).phase = .done result := by
    intro r
    cases r with
    | initiator => exact ⟨result, hdone⟩
    | responder => exact ⟨result', hdone'⟩
  cases h with
  | calm h =>
    have hfinish : ∀ {r result}, (x.party r).phase = .done result → finish P (x.party r).handshake = some result := by
      intro r result hphase
      cases h.rests r with
      | loop hloop | header hloop =>
        rw [hphase] at hloop
        cases hloop
      | done result' hresult hfinish =>
        rw [hphase] at hresult
        cases hresult
        exact hfinish
    obtain ⟨f, g, hf, hg, hresults⟩ := finish_agrees (h.agree .initiator) (done_of_finish (hfinish hdone))
    have hg' : finish P (x.party .responder).handshake = some g := hg
    rw [hfinish hdone] at hf
    rw [hfinish hdone'] at hg'
    cases hf
    cases hg'
    exact hresults
  | @sending w _ _ _ _ _ _ _ h =>
    obtain ⟨result'', hphase⟩ := hboth w.other
    have hreads := h.reads
    rw [hphase] at hreads
    cases hreads

/-- As long as one side is not done, one of them can take a step. -/
theorem progress (h : Linked P used payloads x) : (∀ r, ∃ result, (x.party r).phase = .done result) ∨
      ∃ r, (∀ fresh, (linkStep P x (.turn r fresh)).isSome) ∨
        (linkStep P x (.write r 1)).isSome ∨ (linkStep P x (.read r 1)).isSome := by
  have hturn : ∀ r, (x.party r).phase = .loop → ∀ fresh, (linkStep P x (.turn r fresh)).isSome := by
    intro r hphase fresh
    unfold linkStep
    dsimp only
    rw [hphase]
    rfl
  by_cases hloop : ∃ r, (x.party r).phase = .loop
  · obtain ⟨r, hphase⟩ := hloop
    exact .inr ⟨r, .inl (hturn r hphase)⟩
  cases h with
  | calm h =>
    refine .inl fun r => ?_
    cases h.rests r with
    | loop hphase => exact absurd ⟨r, hphase⟩ hloop
    | done result hphase => exact ⟨result, hphase⟩
    | header hphase hmore hturn =>
      -- the other side would have to be about to read as well
      obtain ⟨hindex, hmessages⟩ := h.index_eq r r.other
      cases h.rests r.other with
      | loop hphase' => exact absurd ⟨r.other, hphase'⟩ hloop
      | header _ _ hturn' =>
        have hboth : Both P used fun q => (x.party q).handshake := fun q => ⟨h.role q, h.agree q⟩
        exact absurd ((hboth.myTurn_other r).mpr hturn) hturn'
      | done _ _ hfinish =>
        have hdone := done_of_finish hfinish
        rw [hindex, hmessages] at hdone
        omega
  | @sending w _ _ _ message consumed rest left h =>
    by_cases hleft : left = []
    · -- the frame is written, and not all of it has been read
      have hbytes := congrArg length h.bytes
      have hlt := h.reads.lt_length
      rw [hleft, append_nil, length_append] at hbytes
      have hinbox : 1 ≤ (x.inbox w.other).length := by
        rw [h.inbox, length_append]
        omega
      have hwants : 1 ≤ (x.party w.other).phase.wants := by
        have hreads := h.reads
        generalize hphase : (x.party w.other).phase = phase at hreads
        cases hreads with
        | loop => exact absurd ⟨_, hphase⟩ hloop
        | header hgot | body hgot =>
          simp only [Phase.wants]
          omega
      refine .inr ⟨w.other, .inr (.inr ?_)⟩
      unfold linkStep
      dsimp only
      rw [if_pos ⟨Nat.le_refl 1, hwants, hinbox⟩]
      rfl
    · cases h.writes with
      | written => exact absurd rfl hleft
      | writing hphase =>
        refine .inr ⟨w, .inr (.inl ?_)⟩
        unfold linkStep
        dsimp only
        rw [hphase]
        dsimp only
        rw [if_pos ⟨Nat.le_refl 1, length_pos_iff.mpr hleft⟩]
        rfl

end Linked

/-! ## Two configurations that match -/

/-- The two handshakes, each on its side. -/
def sides (initiator responder : Handshake) : Role → Handshake
  | .initiator => initiator
  | .responder => responder

section Matching

variable {c c' : Config} {a b : Handshake}

lemma start_ok (h : start P c = .ok a) : a.role = c.role ∧ a.index = 0 := by
  obtain ⟨m, s, name, -, rfl⟩ := (start_meets P c).of_eq_ok h
  exact ⟨rfl, rfl⟩

lemma both_sides (hrole : c.role = .initiator) (hmatch : Matching P c c') (huses : c.Uses used)
    (huses' : c'.Uses used) (hstart : start P c = .ok a) (hstart' : start P c' = .ok b) : Both P used (sides a b) := by
  have hagree := start_agrees hmatch huses huses' hstart hstart'
  intro r
  cases r with
  | initiator => exact ⟨(start_ok hstart).1.trans hrole, hagree⟩
  | responder =>
    refine ⟨(start_ok hstart').1.trans ?_, hagree.symm⟩
    rw [hmatch.role, hrole]
    rfl

/-- **Handshakes agree.** `start!` accepts the configurations of the two sides, which match. When messages
are handed over, the two sides are always at the same message, the side whose turn it is can write it, and the
other reads its payload; at the end both have the same hash and keys. Over streams, no side fails, they come to
the end whatever the pieces, with all payloads received, and leave on the streams what was sent after it. -/
theorem handshakes_agree (hopens : P.OpensSealed) (hcompat : Compatible P used) (hrole : c.role = .initiator)
    (hmatch : Matching P c c') (huses : c.Uses used) (huses' : c'.Uses used) (hstart : start P c = .ok a)
    (hstart' : start P c' = .ok b) :
    (∀ y, Transition.ReachableBy (alternation P (sides a b)) (fun _ l => used l.writer l.fresh) y →
      (∀ r q, (y q).index = (y r).index ∧ (y q).messages = (y r).messages) ∧
      (∀ w, (y w.other).myTurn = true ↔ ¬ (y w).myTurn = true) ∧
      (∀ w payload fresh, (y w).isFinished = false → (y w).myTurn = true → used w fresh →
        ∃ tokens message next, (y w).messages[(y w).index]? = some tokens ∧
          compose P (y w) tokens payload fresh = .ok (message, next) ∧
          (message.length ≤ 65535 → ∃ y', exchange P y w payload fresh = .ok (payload, y') ∧
            ∀ r, (y' r).index = (y r).index + 1)) ∧
      ((y .initiator).isFinished = true → ∃ f g, finish P (y .initiator) = some f ∧
        finish P (y .responder) = some g ∧ Results f g)) ∧
    (∀ payloads x, Transition.ReachableBy (link P (sides a b) payloads) (Faithful P used) x →
      (∀ r e, (x.party r).phase ≠ .failed e) ∧
      (∀ r result, (x.party r).phase = .done result → x.inbox r = x.sent r.other ∧
        (x.party r).handshake.isFinished = true ∧ (x.party r).received =
          padded (payloads r.other) (turns r.other (x.party r).handshake.messages.length)) ∧
      (∀ f g, (x.party .initiator).phase = .done f → (x.party .responder).phase = .done g → Results f g) ∧
      ((∀ r, ∃ result, (x.party r).phase = .done result) ∨
        ∃ r, (∀ fresh, (linkStep P x (.turn r fresh)).isSome = true) ∨
          (linkStep P x (.write r 1)).isSome = true ∨ (linkStep P x (.read r 1)).isSome = true) ∧
      ∀ l x', Faithful P used x l → l.handshakes = true → linkStep P x l = some x' → x'.work < x.work) := by
  have hsides := both_sides hrole hmatch huses huses' hstart hstart'
  refine ⟨fun y hy => ?_, fun payloads x hx => ?_⟩
  · have hboth : Both P used y := by
      refine hy.invariant (I := Both P used) ?_ ?_
      · rintro _ rfl
        exact hsides
      · intro y l y' hfresh h hstep
        exact h.step hcompat hopens hfresh hstep
    refine ⟨hboth.index_eq, hboth.myTurn_other, fun w payload fresh hmore hturn hfresh => ?_, fun hdone => ?_⟩
    · obtain ⟨tokens, message, next, htokens, hcompose, -, hfits⟩ :=
        hboth.exchange hcompat hopens hmore hturn hfresh payload
      refine ⟨tokens, message, next, htokens, hcompose, fun hle => ?_⟩
      obtain ⟨y', hy', hindex, -⟩ := hfits hle
      exact ⟨y', hy', hindex⟩
    · exact finish_agrees (hboth .initiator).2 (of_decide_eq_true hdone)
  · have hlinked : Linked P used payloads x := by
      refine hx.invariant (I := Linked P used payloads) ?_ ?_
      · intro x hinit
        refine linked_start (fun r => (hsides r).1) (fun r => ?_) (hsides .initiator).2 hinit
        cases r with
        | initiator => exact (start_ok hstart).2
        | responder => exact (start_ok hstart').2
      · intro x l x' hfaithful h hstep
        exact (linked_step hcompat hopens h hfaithful hstep).1
    refine ⟨fun r e => hlinked.not_failed, fun r result hdone => hlinked.of_done hdone,
      fun f g hf hg => hlinked.results hf hg, hlinked.progress, fun l x' hfaithful hl hstep => ?_⟩
    exact (linked_step hcompat hopens hlinked hfaithful hstep).2 hl

end Matching

instance [∀ r k, Decidable (used r k)] (x : Link) (l : LinkLabel) : Decidable (Faithful P used x l) :=
  match l with
  | .turn r fresh => inferInstanceAs (Decidable (used r fresh ∧
      writeMessage P (x.party r).handshake ((x.party r).mine.headD []) fresh ≠ fail .tooLong))
  | .ended _ | .fails _ => inferInstanceAs (Decidable False)
  | .write _ _ | .read _ _ | .transport _ _ => inferInstanceAs (Decidable True)

lemma zeros_opensSealed : zeros.OpensSealed := by
  refine ⟨?_, ?_⟩
  · intro cipher key nonce associatedData plaintext
    simp [zeros]
  · intro cipher key nonce associatedData plaintext
    simp [zeros]

/-- Two sides with psks, and a static key that is known in advance. -/
def nkInitiator : Config :=
  ⟨.NK, .initiator, .aesGcm, [1], none, some (zeros.x25519PublicKey (keyOf 2)),
    [⟨2, List.replicate 32 7⟩, ⟨0, List.replicate 32 8⟩], .random⟩

def nkResponder : Config :=
  ⟨.NK, .responder, .aesGcm, [1], some (keyOf 2), none, [⟨0, List.replicate 32 8⟩, ⟨2, List.replicate 32 7⟩], .random⟩

def nkStarted : Role → Handshake :=
  sides ((start zeros nkInitiator).toOption.get (by decide))
    ((start zeros nkResponder).toOption.get (by decide))

/-- The responder sends a byte as soon as it is done. -/
def nkSteps : List LinkLabel :=
  [.turn .responder (keyOf 4), .turn .initiator (keyOf 3), .write .initiator 1, .read .responder 1,
    .write .initiator 50, .turn .initiator (keyOf 3), .read .responder 1, .read .responder 49,
    .turn .responder (keyOf 4), .write .responder 51, .turn .responder (keyOf 4),
    .transport .responder [42], .read .initiator 2, .read .initiator 49, .turn .initiator (keyOf 3)]

/-- Both are done, and the byte is left. -/
theorem handshakes_agree_knownKey :
    ∃ x f g, Transition.ReachableBy (link zeros nkStarted fun _ => [[5]]) (Faithful zeros fun _ _ => True) x ∧
      (x.party .initiator).phase = .done f ∧ (x.party .responder).phase = .done g ∧
      x.inbox .initiator = [42] ∧ (x.party .initiator).received = [[5]] ∧ Results f g := by
  have hrun : (Transition.runBy (link zeros nkStarted fun _ => [[5]]) (Faithful zeros fun _ _ => True)
      ⟨fun r => ⟨nkStarted r, [[5]], [], .loop⟩, fun _ => [], fun _ => []⟩ nkSteps).isSome = true := by
    decide
  have hreach := Transition.ReachableBy.of_runBy (.start ?_) (some_get hrun).symm
  · have hmatch : Matching zeros nkInitiator nkResponder := by
      refine ⟨rfl, rfl, rfl, rfl, .swap _ _ _, ?_, ?_⟩
      · intro hpre
        cases hpre
      · intro _ key hkey
        cases hkey
        rfl
    have hcompat : Compatible zeros fun _ _ => True := fun x y _ _ => ⟨replicate 32 0, rfl, rfl⟩
    have huses : ∀ c : Config, c.Uses fun _ _ => True := fun c => ⟨fun _ _ => trivial, fun _ _ => trivial⟩
    have hagree := handshakes_agree zeros_opensSealed hcompat rfl hmatch (huses _) (huses _) rfl rfl
    obtain ⟨-, -, hresults, -⟩ := hagree.2 _ _ hreach
    exact ⟨_, _, _, hreach, rfl, rfl, rfl, rfl, hresults _ _ rfl rfl⟩
  · rfl

end RocNet.NoiseHandshake
