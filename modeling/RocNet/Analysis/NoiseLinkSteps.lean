import RocNet.Analysis.NoiseLink

/-!
# Handshakes over streams come to their end

Every step of the two sides keeps them between messages or with one message on its way, and comes nearer to the end of
the handshake.
-/

namespace RocNet.NoiseHandshake

open Function List Transition

variable {P : Primitives} {used : Role → SecretKey → Prop} {payloads : Role → List (List UInt8)}
  {x x' : Link} {r w : Role} {a b b' : Handshake} {message consumed rest left : List UInt8}

variable {p : Party} {next : Handshake}

lemma Rests.ne_writing (h : Rests P p) : p.phase ≠ .writing left next := by
  intro hwriting
  cases h with
  | loop hphase | header hphase | done result hphase =>
    rw [hwriting] at hphase
    cases hphase

lemma Reads.work_lt (hshort : message.length ≤ 65535) (h : Reads message phase consumed)
    (h' : Reads message phase' consumed') (hlt : consumed.length < consumed'.length) : phase'.work < phase.work := by
  cases h' with
  | loop => cases hlt
  | header hgot' =>
    cases h with
    | loop | header hgot =>
      simp only [Phase.work]
      omega
    | body hgot =>
      rw [length_append, u16Be_length] at hlt
      omega
  | body hgot' =>
    rw [length_append, u16Be_length] at hlt
    cases h with
    | loop | header hgot =>
      simp only [Phase.work]
      omega
    | body hgot =>
      rw [length_append, u16Be_length] at hlt
      simp only [Phase.work]
      omega

namespace Sending

section

variable (h : Sending P used payloads x w a b b' message consumed rest left)

include h

lemma not_myTurn : ¬ a.myTurn := by
  rw [myTurn_iff, h.index, turnOf_succ, h.turn, h.role]
  exact other_ne w

lemma not_myTurn' : ¬ b.myTurn := by
  rw [myTurn_iff, h.turn, h.role']
  exact (other_ne w).symm

lemma sent_nil (hphase : ∀ result, (x.party w).phase ≠ .done result) : x.sent w = [] := by
  refine h.sent.resolve_right ?_
  rintro ⟨result, hdone⟩
  exact hphase result hdone

lemma turn_writer (hphase : (x.party w).phase = .loop) (fresh : SecretKey) :
    Linked P used payloads (x.setParty w ((x.party w).turn P fresh)) ∧
      ((x.party w).turn P fresh).work < (x.party w).work := by
  generalize hleft : left = left' at h
  cases h.writes with
  | writing hwriting =>
    rw [hphase] at hwriting
    cases hwriting
  | written hnext hrests =>
    obtain ⟨phase, hparty, hrests', hwork⟩ := rests_turn (P := P) hphase fresh fun _ => by
      rw [hnext]
      exact h.not_myTurn
    have hsent : x.sent w = [] := h.sent_nil fun result hdone => by
      rw [hphase] at hdone
      cases hdone
    rw [hparty]
    refine ⟨.sending (h.setWriter (p := { x.party w with phase }) setParty_self (setParty_of_ne (other_ne w)) rfl
      (.written hnext hrests') rfl rfl (.inl hsent) h.inbox' h.inbox h.bytes), work_phase rfl hwork⟩

lemma turn_reader (hphase : (x.party w.other).phase = .loop) (fresh : SecretKey) :
    Linked P used payloads (x.setParty w.other ((x.party w.other).turn P fresh)) ∧
      ((x.party w.other).turn P fresh).work < (x.party w.other).work := by
  have hparty : (x.party w.other).turn P fresh = { x.party w.other with phase := .header [] } := by
    have hmore : (x.party w.other).handshake.index < (x.party w.other).handshake.messages.length := by
      rw [h.reader]
      exact h.more
    have hturn : ¬ (x.party w.other).handshake.myTurn := by
      rw [h.reader]
      exact h.not_myTurn'
    unfold Party.turn
    rw [if_neg (not_finished_of_more hmore), if_neg hturn]
  have hconsumed : consumed = [] := by
    have hreads := h.reads
    rw [hphase] at hreads
    cases hreads
    rfl
  rw [hparty]
  refine ⟨.sending (h.setReader setParty_self (setParty_of_ne (other_ne w).symm) rfl ?_ rfl h.inbox h.bytes),
    work_phase rfl ?_⟩
  · rw [hconsumed]
    exact .header (by decide)
  · rw [hphase]
    simp only [Phase.work, length_nil]
    omega

end

lemma writes_wrote (hindex : a.index = p.handshake.index + 1) (hmessages : p.handshake.messages = a.messages)
    (left : List UInt8) : Writes P a (p.wrote left a) left ∧ (p.wrote left a).mine = p.mine ∧
      (p.wrote left a).received = p.received := by
  unfold Party.wrote
  split
  · next hnil =>
    rw [List.isEmpty_iff] at hnil
    subst hnil
    exact ⟨.written rfl (.loop rfl), rfl, rfl⟩
  · next hleft =>
    rw [List.isEmpty_iff] at hleft
    exact ⟨.writing rfl hleft hindex hmessages, rfl, rfl⟩

lemma work_wrote (hphase : p.phase = .writing left' a) (hindex : a.index = p.handshake.index + 1)
    (hmessages : p.handshake.messages = a.messages) (hmore : p.handshake.index < p.handshake.messages.length)
    (hlt : left.length < left'.length) : (p.wrote left a).work < p.work := by
  unfold Party.wrote
  split
  · exact work_next hindex hmessages hmore rfl rfl
  · refine work_phase rfl ?_
    rw [hphase]
    exact hlt

variable {count : ℕ}

lemma write (h : Sending P used payloads x w a b b' message consumed rest left)
    (hphase : (x.party w).phase = .writing left' next) (hone : 1 ≤ count) (hcount : count ≤ left'.length) :
    Linked P used payloads ((x.setParty w ((x.party w).wrote (left'.drop count) next)).send w (left'.take count)) ∧
      ((x.party w).wrote (left'.drop count) next).work < (x.party w).work := by
  have hsent : x.sent w = [] := h.sent_nil fun result hdone => by
    rw [hphase] at hdone
    cases hdone
  cases h.writes with
  | written hnext hrests => exact absurd hphase hrests.ne_writing
  | writing hwriting hleft hindex hmessages =>
    rw [hphase] at hwriting
    cases hwriting
    obtain ⟨hwrites, hmine, hreceived⟩ := writes_wrote (P := P) hindex hmessages (left.drop count)
    have hsending : Sending P used payloads
        ((x.setParty w ((x.party w).wrote (left.drop count) a)).send w (left.take count)) w a b b' message
        consumed (rest ++ left.take count) (left.drop count) := by
      apply h.setWriter (p := (x.party w).wrote (left.drop count) a)
      · exact setParty_self
      · exact setParty_of_ne (other_ne w)
      · rfl
      · exact hwrites
      · exact hmine
      · exact hreceived
      · exact .inl hsent
      · exact (send_inbox_self _).trans h.inbox'
      · refine (send_inbox_other _).trans ?_
        change x.inbox w.other ++ _ = _
        rw [h.inbox, hsent, append_nil, append_nil]
      · rw [← h.bytes, append_assoc, append_assoc, take_append_drop, ← append_assoc]
    refine ⟨.sending hsending, ?_⟩
    apply work_wrote hphase hindex hmessages
    · have hmore := h.more
      have hindex' := h.index
      rw [hmessages, h.messages]
      omega
    · rw [length_drop]
      omega

lemma count_le (h : Sending P used payloads x w a b b' message consumed rest left)
    (hwants : count ≤ (x.party w.other).phase.wants) (hinbox : count ≤ (x.inbox w.other).length) :
    count ≤ rest.length := by
  have hle := h.reads.wants_le
  rw [← h.bytes, length_append, length_append] at hle
  rw [h.inbox, length_append] at hinbox
  generalize hleft : left = left' at hle
  cases hleft ▸ h.writes with
  | written hnext hrests =>
    rw [length_nil] at hle
    omega
  | writing hphase hne =>
    -- with bytes left to write, nothing has been sent after the frame
    have hsent : x.sent w = [] := h.sent_nil fun result hdone => by
      rw [hphase] at hdone
      cases hdone
    rw [hsent, length_nil] at hinbox
    omega

lemma received (h : Sending P used payloads x w a b b' message consumed rest []) : Calm P used payloads
        ((x.setParty w.other ((x.party w.other).readWhole P message)).setInbox w.other (x.sent w)) ∧
      ((x.party w.other).readWhole P message).work < (x.party w.other).work := by
  have hp : (x.party w.other).readWhole P message = ⟨b', (x.party w.other).mine,
      (x.party w.other).received ++ [(payloads w).getD (turns w b.index) []], .loop⟩ := by
    unfold Party.readWhole
    rw [h.reader, h.read]
  rw [hp]
  generalize hx' : (x.setParty w.other _).setInbox w.other (x.sent w) = x'
  have hself : x'.party w = x.party w := by
    rw [← hx']
    exact setParty_of_ne (other_ne w).symm
  have hother : x'.party w.other = ⟨b', (x.party w.other).mine,
      (x.party w.other).received ++ [(payloads w).getD (turns w b.index) []], .loop⟩ := by
    rw [← hx']
    exact setParty_self
  have hsent : x'.sent = x.sent := by
    rw [← hx']
    rfl
  have hinbox : x'.inbox w.other = x.sent w := by
    rw [← hx']
    exact update_self _ _ _
  have hinbox' : x'.inbox w = x.inbox w := by
    rw [← hx']
    exact update_of_ne (other_ne w).symm _ _
  obtain ⟨hnext, hrests⟩ : (x.party w).handshake = a ∧ Rests P (x.party w) := by
    generalize hleft : ([] : List UInt8) = left' at h
    cases h.writes with
    | written hnext hrests => exact ⟨hnext, hrests⟩
    | writing _ hne => exact absurd hleft.symm hne
  have hindex : b'.index = b.index + 1 := h.agree.index.trans h.index
  have hmessages : b'.messages = b.messages := h.agree.messages.trans h.messages
  refine ⟨⟨?_, ?_, ?_, ?_, ?_, ?_⟩, ?_⟩
  · intro q
    obtain rfl | rfl := eq_or_eq_other q w
    · rw [hself, hnext, h.role]
    · rw [hother, h.agree.role, h.role]
  · intro q
    obtain rfl | rfl := eq_or_eq_other q w
    · rw [hself, hother, hnext]
      exact h.agree
    · rw [other_other, hself, hother, hnext]
      exact h.agree.symm
  · intro q
    obtain rfl | rfl := eq_or_eq_other q w
    · rwa [hself]
    · rw [hother]
      exact .loop rfl
  · intro q
    obtain rfl | rfl := eq_or_eq_other q w
    · rw [hself, hnext]
      exact h.books
    · rw [hother]
      dsimp only
      rw [hindex]
      refine h.books'.read ?_ rfl ?_
      · rw [h.turn, other_other]
      · rw [other_other]
  · intro q
    obtain rfl | rfl := eq_or_eq_other q w
    · rw [hinbox', h.inbox', hsent, h.sent']
    · rw [hinbox, hsent, other_other]
  · intro q
    obtain rfl | rfl := eq_or_eq_other q w
    · rw [hsent, hself]
      exact h.sent
    · exact .inl (by rw [hsent, h.sent'])
  · have hreader := h.reader
    apply work_next (h := b')
    · rw [hreader, hindex]
    · rw [hreader, hmessages]
    · rw [hreader]
      exact h.more
    · rfl
    · rfl

lemma read_reader (h : Sending P used payloads x w a b b' message consumed rest left) (hone : 1 ≤ count)
    (hwants : count ≤ (x.party w.other).phase.wants) (hinbox : count ≤ (x.inbox w.other).length) :
    Linked P used payloads
        ((x.setParty w.other ((x.party w.other).receive P ((x.inbox w.other).take count))).setInbox w.other
          ((x.inbox w.other).drop count)) ∧
      ((x.party w.other).receive P ((x.inbox w.other).take count)).work < (x.party w.other).work := by
  have hcount := h.count_le hwants hinbox
  rw [h.inbox, take_append_of_le_length hcount, drop_append_of_le_length hcount]
  have hlength : (rest.take count).length = count := by
    rw [length_take]
    omega
  have hpos : rest.take count ≠ [] := by
    rw [← length_pos_iff]
    omega
  have hbytes : consumed ++ rest.take count ++ (rest.drop count ++ left) = frame message := by
    rw [← h.bytes, append_assoc, append_assoc, ← append_assoc (rest.take count), take_append_drop]
  rw [← hlength] at hwants
  obtain ⟨phase, hreads, hparty⟩ | ⟨hwhole, hparty⟩ := receive_cases (P := P) h.short h.reads hwants hpos hbytes
  · rw [hparty]
    refine ⟨.sending (h.setReader (setParty_self (x := x)) (setParty_of_ne (other_ne w).symm) rfl hreads
      (update_of_ne (other_ne w).symm _ _) (update_self _ _ _) ?_), work_phase rfl ?_⟩
    · rw [append_assoc _ (rest.drop count)]
      exact hbytes
    · apply h.reads.work_lt h.short hreads
      rw [length_append]
      omega
  · -- the frame is read to its end
    rw [hwhole, append_right_eq_self, append_eq_nil_iff] at hbytes
    obtain ⟨hdrop, rfl⟩ := hbytes
    rw [hdrop, nil_append, hparty]
    exact ⟨.calm h.received.1, h.received.2⟩

lemma transport (h : Sending P used payloads x w a b b' message consumed rest left)
    (hphase : (x.party w).phase = .done result) (bytes : List UInt8) :
    Sending P used payloads ((x.send w bytes).addSent w bytes) w a b b' message consumed rest left :=
  { h with
    inbox := by
      refine (send_inbox_other bytes).trans ?_
      rw [addSent_self, h.inbox, append_assoc]
      rfl
    inbox' := (send_inbox_self bytes).trans h.inbox'
    sent := .inr ⟨result, hphase⟩
    sent' := by
      rw [addSent_other]
      exact h.sent' }

end Sending

/-! ## Every step -/

namespace Linked

lemma turn (hcompat : Compatible P used) (hopens : P.OpensSealed) (h : Linked P used payloads x)
    (hphase : (x.party r).phase = .loop) (hfaithful : Faithful P used x (.turn r fresh)) :
    Linked P used payloads (x.setParty r ((x.party r).turn P fresh)) ∧
      ((x.party r).turn P fresh).work < (x.party r).work := by
  cases h with
  | calm h => exact h.turn hcompat hopens hphase hfaithful
  | @sending w _ _ _ _ _ _ _ h =>
    obtain rfl | rfl := eq_or_eq_other r w
    · exact h.turn_writer hphase fresh
    · exact h.turn_reader hphase fresh

lemma write {count : ℕ} (h : Linked P used payloads x) (hphase : (x.party r).phase = .writing left next)
    (hone : 1 ≤ count) (hcount : count ≤ left.length) : Linked P used payloads
        ((x.setParty r ((x.party r).wrote (left.drop count) next)).send r (left.take count)) ∧
      ((x.party r).wrote (left.drop count) next).work < (x.party r).work := by
  cases h with
  | calm h => exact absurd hphase (h.rests r).ne_writing
  | @sending w _ _ _ _ _ _ _ h =>
    obtain rfl | rfl := eq_or_eq_other r w
    · exact h.write hphase hone hcount
    · have hreads := h.reads
      rw [hphase] at hreads
      cases hreads

lemma read {count : ℕ} (h : Linked P used payloads x) (hone : 1 ≤ count) (hwants : count ≤ (x.party r).phase.wants)
    (hinbox : count ≤ (x.inbox r).length) : Linked P used payloads
        ((x.setParty r ((x.party r).receive P ((x.inbox r).take count))).setInbox r ((x.inbox r).drop count)) ∧
      ((x.party r).receive P ((x.inbox r).take count)).work < (x.party r).work := by
  cases h with
  | calm h =>
    rw [h.not_read (by omega), length_nil] at hinbox
    omega
  | @sending w _ _ _ _ _ _ _ h =>
    obtain rfl | rfl := eq_or_eq_other r w
    · rw [h.inbox', length_nil] at hinbox
      omega
    · exact h.read_reader hone hwants hinbox

lemma transport (h : Linked P used payloads x) (hphase : (x.party r).phase = .done result) (bytes : List UInt8) :
    Linked P used payloads ((x.send r bytes).addSent r bytes) := by
  cases h with
  | calm h => exact .calm (h.transport hphase bytes)
  | @sending w _ _ _ _ _ _ _ h =>
    obtain rfl | rfl := eq_or_eq_other r w
    · exact .sending (h.transport hphase bytes)
    · have hreads := h.reads
      rw [hphase] at hreads
      cases hreads

end Linked

/-- A step of one of the calls of `handshake!`. -/
def LinkLabel.handshakes : LinkLabel → Bool
  | .transport _ _ => false
  | _ => true

/-- **A step of the two sides**, which are nearer to the end after a step of a handshake. -/
theorem linked_step (hcompat : Compatible P used) (hopens : P.OpensSealed) (h : Linked P used payloads x)
    (hfaithful : Faithful P used x l) (hstep : linkStep P x l = some x') :
    Linked P used payloads x' ∧ (l.handshakes → x'.work < x.work) := by
  cases l <;> dsimp only [linkStep] at hstep
  case turn r fresh =>
    split at hstep
    · next hphase =>
      cases hstep
      obtain ⟨hlinked, hwork⟩ := h.turn hcompat hopens hphase hfaithful
      exact ⟨hlinked, fun _ => work_setParty hwork⟩
    · cases hstep
  case write r count =>
    split at hstep
    · next hphase =>
      obtain ⟨hcount, rfl⟩ := of_guard hstep
      obtain ⟨hlinked, hwork⟩ := h.write hphase hcount.1 hcount.2
      exact ⟨hlinked, fun _ => work_setParty hwork⟩
    · cases hstep
  case read r count =>
    obtain ⟨hcount, rfl⟩ := of_guard hstep
    obtain ⟨hlinked, hwork⟩ := h.read hcount.1 hcount.2.1 hcount.2.2
    exact ⟨hlinked, fun _ => work_setParty hwork⟩
  case ended r | fails r => cases hfaithful
  case transport r bytes =>
    split at hstep
    · next hphase =>
      cases hstep
      refine ⟨h.transport hphase bytes, fun hfalse => ?_⟩
      cases hfalse
    · cases hstep

/-! ## The start, and the end -/

lemma linked_start {started : Role → Handshake} (hrole : ∀ r, (started r).role = r)
    (hindex : ∀ r, (started r).index = 0) (hagree : Agreeing P used (started .initiator) (started .responder))
    (hinit : (link P started payloads).init x) : Linked P used payloads x := by
  cases hinit
  refine .calm ⟨hrole, ?_, fun r => .loop rfl, ?_, fun r => rfl, fun r => .inl rfl⟩
  · intro r
    cases r with
    | initiator => exact hagree
    | responder => exact hagree.symm
  · intro r
    dsimp only
    rw [hindex]
    exact ⟨rfl, rfl⟩

namespace Linked

lemma not_failed (h : Linked P used payloads x) : (x.party r).phase ≠ .failed e := by
  have hrests : Rests P (x.party r) → (x.party r).phase ≠ .failed e := by
    intro hrests hfailed
    cases hrests with
    | loop hphase | header hphase | done result hphase =>
      rw [hfailed] at hphase
      cases hphase
  cases h with
  | calm h => exact hrests (h.rests r)
  | @sending w _ _ _ _ _ _ left h =>
    obtain rfl | rfl := eq_or_eq_other r w
    · generalize left = left' at h
      cases h.writes with
      | writing hphase =>
        rw [hphase]
        exact Phase.noConfusion
      | written _ hrests' => exact hrests hrests'
    · intro hfailed
      have hreads := h.reads
      rw [hfailed] at hreads
      cases hreads

end Linked

end RocNet.NoiseHandshake
