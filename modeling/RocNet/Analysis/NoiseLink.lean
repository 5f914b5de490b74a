import RocNet.Analysis.NoiseAgreement

/-!
# Both sides of a handshake over streams

Two sides in `handshake!`, in any interleaving, are between messages (`Calm`), or one message is on its way
(`Sending`): its writer has its next state, its reader has taken some bytes of the frame.
-/

namespace RocNet.NoiseHandshake

open Fallible Function List

variable {P : Primitives} {used : Role → SecretKey → Prop} {payloads : Role → List (List UInt8)}
  {x x' : Link} {r w : Role} {p p' : Party}

lemma eq_or_eq_other (r w : Role) : r = w ∨ r = w.other := by
  cases r <;> cases w <;> simp [Role.other]

/-! ## Payloads -/

/-- How many of the first messages a side writes. -/
def turns (r : Role) : ℕ → ℕ
  | 0 => 0
  | n + 1 => if turnOf n = r then turns r n + 1 else turns r n

lemma turns_succ (r : Role) (n : ℕ) :
    turns r (n + 1) = if turnOf n = r then turns r n + 1 else turns r n := rfl

/-- The first payloads of a list; missing ones are empty. -/
def padded (ps : List (List UInt8)) (count : ℕ) : List (List UInt8) :=
  (List.range count).map fun i => ps.getD i []

lemma padded_succ (ps : List (List UInt8)) (count : ℕ) :
    padded ps (count + 1) = padded ps count ++ [ps.getD count []] := by
  unfold padded
  rw [range_succ, map_append]
  rfl

lemma turnOf_succ (n : ℕ) : turnOf (n + 1) = (turnOf n).other := by
  unfold turnOf
  by_cases hn : n % 2 = 0
  · rw [if_pos hn, if_neg (by omega)]
    rfl
  · rw [if_neg hn, if_pos (by omega)]
    rfl

/-- After so many messages, a side's payloads to send and those it has received. -/
structure Books (payloads : Role → List (List UInt8)) (r : Role) (n : ℕ) (p : Party) : Prop where
  mine : p.mine = (payloads r).drop (turns r n)
  received : p.received = padded (payloads r.other) (turns r.other n)

variable {n : ℕ} {result : Finished}

lemma Books.wrote (h : Books payloads r n p) (hturn : turnOf n = r) (hmine : p'.mine = p.mine.tail)
    (hreceived : p'.received = p.received) : Books payloads r (n + 1) p' := by
  refine ⟨?_, ?_⟩
  · rw [hmine, h.mine, tail_drop, turns_succ, if_pos hturn]
  · rw [hreceived, h.received, turns_succ, if_neg]
    rw [hturn]
    exact (other_ne r).symm

lemma Books.read (h : Books payloads r n p) (hturn : turnOf n = r.other) (hmine : p'.mine = p.mine)
    (hreceived : p'.received = p.received ++ [(payloads r.other).getD (turns r.other n) []]) :
    Books payloads r (n + 1) p' := by
  refine ⟨?_, ?_⟩
  · rw [hmine, h.mine, turns_succ, if_neg]
    rw [hturn]
    exact other_ne r
  · rw [hreceived, h.received, ← padded_succ, turns_succ, if_pos hturn]

lemma Books.congr (h : Books payloads r n p) (hmine : p'.mine = p.mine)
    (hreceived : p'.received = p.received) : Books payloads r n p' :=
  ⟨hmine.trans h.mine, hreceived.trans h.received⟩

/-! ## Where the two sides stand -/

/-- A side between messages: at the head of the loop, about to read, or done. -/
inductive Rests (P : Primitives) (p : Party) : Prop
  | loop (hphase : p.phase = .loop)
  | header (hphase : p.phase = .header []) (hmore : p.handshake.index < p.handshake.messages.length)
      (hturn : ¬ p.handshake.myTurn = true)
  | done (result : Finished) (hphase : p.phase = .done result) (hfinish : finish P p.handshake = some result)

/-- No message is on its way. -/
structure Calm (P : Primitives) (used : Role → SecretKey → Prop) (payloads : Role → List (List UInt8))
    (x : Link) : Prop where
  role : ∀ r, (x.party r).handshake.role = r
  agree : ∀ r, Agreeing P used (x.party r).handshake (x.party r.other).handshake
  rests : ∀ r, Rests P (x.party r)
  books : ∀ r, Books payloads r (x.party r).handshake.index (x.party r)
  inbox : ∀ r, x.inbox r = x.sent r.other
  sent : ∀ r, x.sent r = [] ∨ ∃ result, (x.party r).phase = .done result

/-- The writer of a message, with bytes of its frame left to write. -/
inductive Writes (P : Primitives) (next : Handshake) (p : Party) : List UInt8 → Prop
  | writing (hphase : p.phase = .writing left next) (hleft : left ≠ []) (hindex : next.index = p.handshake.index + 1)
      (hmessages : p.handshake.messages = next.messages) : Writes P next p left
  | written (hnext : p.handshake = next) (hrests : Rests P p) : Writes P next p []

/-- A message of `w` is on its way: its frame is what the reader has taken, what it has not, and what is
left to write. The writer goes on with `a`, the reader comes from `b` to `b'`. -/
structure Sending (P : Primitives) (used : Role → SecretKey → Prop)
    (payloads : Role → List (List UInt8)) (x : Link) (w : Role) (a b b' : Handshake)
    (message consumed rest left : List UInt8) : Prop where
  reader : (x.party w.other).handshake = b
  role : a.role = w
  role' : b.role = w.other
  turn : turnOf b.index = w
  more : b.index < b.messages.length
  index : a.index = b.index + 1
  messages : a.messages = b.messages
  short : message.length ≤ 65535
  read : readMessage P b message = .ok ((payloads w).getD (turns w b.index) [], b')
  agree : Agreeing P used a b'
  writes : Writes P a (x.party w) left
  reads : Reads message (x.party w.other).phase consumed
  bytes : consumed ++ rest ++ left = frame message
  inbox : x.inbox w.other = rest ++ x.sent w
  inbox' : x.inbox w = []
  sent : x.sent w = [] ∨ ∃ result, (x.party w).phase = .done result
  sent' : x.sent w.other = []
  books : Books payloads w a.index (x.party w)
  books' : Books payloads w.other b.index (x.party w.other)

inductive Linked (P : Primitives) (used : Role → SecretKey → Prop)
    (payloads : Role → List (List UInt8)) (x : Link) : Prop
  | calm (h : Calm P used payloads x)
  | sending {w : Role} {a b b' : Handshake} {message consumed rest left : List UInt8}
      (h : Sending P used payloads x w a b b' message consumed rest left)

/-- The streams are faithful, the random keys among those used, and messages fit. -/
def Faithful (P : Primitives) (used : Role → SecretKey → Prop) (x : Link) : LinkLabel → Prop
  | .turn r fresh =>
    used r fresh ∧ writeMessage P (x.party r).handshake ((x.party r).mine.headD []) fresh ≠ fail .tooLong
  | .ended _ | .fails _ => False
  | .write _ _ | .read _ _ | .transport _ _ => True

/-! ## How much is left to do -/

/-- The steps that the bytes of a message take at most. -/
def Phase.work : Phase → ℕ
  | .loop => 65543
  | .header got => 65540 - got.length
  | .body length got => length - got.length
  | .writing left _ => left.length
  | .done _ | .failed _ => 0

def Party.work (p : Party) : ℕ :=
  (p.handshake.messages.length - p.handshake.index) * 65544 + p.phase.work

def Link.work (x : Link) : ℕ := (x.party .initiator).work + (x.party .responder).work

lemma work_setParty (h : p.work < (x.party r).work) : (x.setParty r p).work < x.work := by
  unfold Link.work
  cases r with
  | initiator | responder =>
    simp only [Link.setParty_party, update_self, ne_eq, reduceCtorEq, not_false_eq_true, update_of_ne]
    omega

lemma work_next (hindex : h.index = p.handshake.index + 1) (hmessages : p.handshake.messages = h.messages)
    (hmore : p.handshake.index < p.handshake.messages.length) (hnext : p'.handshake = h) (hphase : p'.phase = .loop) :
    p'.work < p.work := by
  unfold Party.work
  rw [hnext, hphase, hindex, ← hmessages]
  simp only [Phase.work]
  omega

lemma work_phase (hhandshake : p'.handshake = p.handshake) (hphase : p'.phase.work < p.phase.work) :
    p'.work < p.work := by
  unfold Party.work
  rw [hhandshake]
  omega

/-! ## Steps of one side -/

lemma setParty_self : (x.setParty r p).party r = p := update_self _ _ _

lemma setParty_of_ne (hq : q ≠ r) : (x.setParty r p).party q = x.party q :=
  update_of_ne hq _ _

lemma send_inbox_other (bytes : List UInt8) : (x.send r bytes).inbox r.other = x.inbox r.other ++ bytes :=
  update_self _ _ _

lemma send_inbox_self (bytes : List UInt8) : (x.send r bytes).inbox r = x.inbox r :=
  update_of_ne (other_ne r).symm _ _

lemma addSent_self (bytes : List UInt8) : (x.addSent r bytes).sent r = x.sent r ++ bytes :=
  update_self _ _ _

lemma addSent_other (bytes : List UInt8) : (x.addSent r bytes).sent r.other = x.sent r.other :=
  update_of_ne (other_ne r) _ _

lemma not_finished_of_more {h : Handshake} (hmore : h.index < h.messages.length) : ¬ h.isFinished := by
  unfold Handshake.isFinished
  rw [decide_eq_true_eq]
  omega

lemma done_of_finish (hfinish : finish P h = some result) : h.messages.length ≤ h.index := by
  unfold finish at hfinish
  split at hfinish
  · cases hfinish
  · omega

/-- The head of the loop, where it is not this side's turn to write. -/
theorem rests_turn (hphase : p.phase = .loop) (fresh : SecretKey)
    (hturn : p.handshake.index < p.handshake.messages.length → ¬ p.handshake.myTurn) :
    ∃ phase, p.turn P fresh = { p with phase } ∧ Rests P { p with phase } ∧ phase.work < p.phase.work := by
  unfold Party.turn
  rw [hphase]
  by_cases hmore : p.handshake.index < p.handshake.messages.length
  · rw [if_neg (not_finished_of_more hmore), if_neg (hturn hmore)]
    exact ⟨.header [], rfl, .header rfl hmore (hturn hmore), by decide⟩
  · have hfinished : p.handshake.isFinished := by
      unfold Handshake.isFinished
      rw [decide_eq_true_eq]
      omega
    have hsome : ∃ result, finish P p.handshake = some result := by
      unfold finish
      rw [if_neg hmore]
      exact ⟨_, rfl⟩
    obtain ⟨result, hresult⟩ := hsome
    rw [if_pos hfinished, hresult]
    exact ⟨.done result, rfl, .done result rfl hresult, Nat.zero_lt_succ _⟩

lemma Rests.wants (h : Rests P p) (hwants : 0 < p.phase.wants) : p.handshake.index < p.handshake.messages.length := by
  cases h with
  | loop hphase | done result hphase hfinish =>
    rw [hphase] at hwants
    cases hwants
  | header hphase hmore hturn => exact hmore

/-! ## Between messages -/

namespace Calm

lemma index_eq (h : Calm P used payloads x) (r q : Role) : (x.party q).handshake.index = (x.party r).handshake.index ∧
      (x.party q).handshake.messages = (x.party r).handshake.messages := by
  obtain rfl | rfl := eq_or_eq_other q r
  · exact ⟨rfl, rfl⟩
  · exact ⟨(h.agree r).index, (h.agree r).messages⟩

lemma sent_nil (h : Calm P used payloads x)
    (hmore : (x.party r).handshake.index < (x.party r).handshake.messages.length) (q : Role) : x.sent q = [] := by
  refine (h.sent q).resolve_right ?_
  rintro ⟨result, hphase⟩
  obtain ⟨hindex, hmessages⟩ := h.index_eq r q
  cases h.rests q with
  | loop hloop | header hloop =>
    rw [hloop] at hphase
    cases hphase
  | done result' _ hfinish =>
    have hdone := done_of_finish hfinish
    rw [hindex, hmessages] at hdone
    omega

lemma setPhase (h : Calm P used payloads x) (hphase : (x.party r).phase = .loop)
    (hrests : Rests P { x.party r with phase }) : Calm P used payloads (x.setParty r { x.party r with phase }) := by
  have hhandshake : ∀ q, ((x.setParty r { x.party r with phase }).party q).handshake = (x.party q).handshake := by
    intro q
    obtain rfl | hq := eq_or_ne q r
    · rw [setParty_self]
    · rw [setParty_of_ne hq]
  refine ⟨?_, ?_, ?_, ?_, h.inbox, ?_⟩
  · intro q
    rw [hhandshake]
    exact h.role q
  · intro q
    rw [hhandshake, hhandshake]
    exact h.agree q
  · intro q
    obtain rfl | hq := eq_or_ne q r
    · rwa [setParty_self]
    · rw [setParty_of_ne hq]
      exact h.rests q
  · intro q
    rw [hhandshake]
    obtain rfl | hq := eq_or_ne q r
    · rw [setParty_self]
      exact (h.books q).congr rfl rfl
    · rw [setParty_of_ne hq]
      exact h.books q
  · intro q
    obtain rfl | hq := eq_or_ne q r
    · refine .inl ((h.sent q).resolve_right ?_)
      rintro ⟨result, hdone⟩
      rw [hphase] at hdone
      cases hdone
    · rw [setParty_of_ne hq]
      exact h.sent q

section

variable (hcompat : Compatible P used) (hopens : P.OpensSealed) (h : Calm P used payloads x)
  (hphase : (x.party r).phase = .loop)

include hcompat hopens h hphase

variable {fresh : SecretKey}

lemma write (hfresh : used r fresh)
    (hfits : writeMessage P (x.party r).handshake ((x.party r).mine.headD []) fresh ≠ fail .tooLong)
    (hmore : (x.party r).handshake.index < (x.party r).handshake.messages.length)
    (hturn : (x.party r).handshake.myTurn) : Linked P used payloads (x.setParty r ((x.party r).turn P fresh)) ∧
      ((x.party r).turn P fresh).work < (x.party r).work := by
  have hrole := h.role r
  have hturn' := myTurn_iff.mp hturn
  rw [← hrole] at hfresh
  obtain ⟨message, a', b', -, hwrite, hread, -, hsame, hagree⟩ :=
    message_agrees hcompat hopens (h.agree r) (List.getElem?_eq_getElem hmore) hturn' hfresh
      ((x.party r).mine.headD [])
  have hshort : message.length ≤ 65535 := by
    by_contra hlong
    rw [if_pos (not_le.mp hlong)] at hwrite
    exact hfits hwrite
  rw [if_neg (not_lt.mpr hshort)] at hwrite
  have hparty : (x.party r).turn P fresh = { x.party r with
      mine := (x.party r).mine.tail
      phase := .writing (frame message) { a' with index := (x.party r).handshake.index + 1 } } := by
    unfold Party.turn
    rw [if_neg (not_finished_of_more hmore), if_pos hturn]
    dsimp only
    rw [hwrite]
  have hpayload : (x.party r).mine.headD [] = (payloads r).getD (turns r (x.party r.other).handshake.index) [] := by
    rw [(h.books r).mine, (h.agree r).index, List.headD_eq_head?_getD, head?_drop, getD_eq_getElem?_getD]
  have hsent := h.sent_nil hmore
  have hother : (x.setParty r ((x.party r).turn P fresh)).party r.other = x.party r.other := setParty_of_ne (other_ne r)
  have hself : (x.setParty r ((x.party r).turn P fresh)).party r = (x.party r).turn P fresh := setParty_self
  have hframe : frame message ≠ [] := fun hnil => by
    have hlength := frame_length message
    rw [hnil, length_nil] at hlength
    omega
  have hindex := (h.agree r).index
  have hmessages := (h.agree r).messages
  have hreads : Reads message (x.party r.other).phase [] := by
    cases h.rests r.other with
    | loop hloop =>
      rw [hloop]
      exact .loop
    | header hheader =>
      rw [hheader]
      exact .header (by decide)
    | done result _ hfinish =>
      have hdone := done_of_finish hfinish
      rw [hindex, hmessages] at hdone
      omega
  have hsending : Sending P used payloads (x.setParty r ((x.party r).turn P fresh)) r
      { a' with index := (x.party r).handshake.index + 1 } (x.party r.other).handshake b' message [] []
      (frame message) := by
    refine ⟨by rw [hother], hsame.role.trans hrole, h.role r.other, ?_, ?_, ?_, ?_, hshort, ?_, hagree, ?_,
      by rwa [hother], rfl, ?_, ?_, .inl (hsent r), hsent r.other, ?_, ?_⟩
    · rw [hindex, hturn', hrole]
    · rwa [hindex, hmessages]
    · rw [hindex]
    · rw [hmessages]
      exact hsame.messages
    · rw [← hpayload]
      exact hread hshort
    · rw [hself, hparty]
      exact .writing rfl hframe rfl hsame.messages.symm
    · exact (h.inbox r.other).trans ((hsent _).trans (hsent r).symm)
    · exact (h.inbox r).trans (hsent _)
    · rw [hself, hparty]
      exact (h.books r).wrote (hturn'.trans hrole) rfl rfl
    · rw [hother]
      exact h.books r.other
  refine ⟨.sending hsending, ?_⟩
  rw [hparty]
  refine work_phase rfl ?_
  rw [hphase]
  simp only [Phase.work, frame_length]
  omega

lemma turn (hfaithful : Faithful P used x (.turn r fresh)) :
    Linked P used payloads (x.setParty r ((x.party r).turn P fresh)) ∧
      ((x.party r).turn P fresh).work < (x.party r).work := by
  by_cases hwrites : (x.party r).handshake.index < (x.party r).handshake.messages.length ∧
      (x.party r).handshake.myTurn = true
  · exact h.write hcompat hopens hphase hfaithful.1 hfaithful.2 hwrites.1 hwrites.2
  · obtain ⟨phase, hparty, hrests, hwork⟩ := rests_turn hphase fresh fun hmore hturn => hwrites ⟨hmore, hturn⟩
    rw [hparty]
    exact ⟨.calm (h.setPhase hphase hrests), work_phase rfl hwork⟩

end

lemma not_read (h : Calm P used payloads x) (hwants : 0 < (x.party r).phase.wants) : x.inbox r = [] := by
  rw [h.inbox]
  exact h.sent_nil ((h.rests r).wants hwants) _

lemma transport (h : Calm P used payloads x) (hphase : (x.party r).phase = .done result)
    (bytes : List UInt8) : Calm P used payloads ((x.send r bytes).addSent r bytes) := by
  refine ⟨h.role, h.agree, h.rests, h.books, ?_, ?_⟩
  · intro q
    obtain rfl | rfl := eq_or_eq_other q r
    · rw [addSent_other]
      exact (send_inbox_self bytes).trans (h.inbox q)
    · rw [other_other, addSent_self]
      refine (send_inbox_other bytes).trans ?_
      rw [h.inbox, other_other]
      rfl
  · intro q
    obtain rfl | rfl := eq_or_eq_other q r
    · exact .inr ⟨result, hphase⟩
    · rw [addSent_other]
      exact h.sent r.other

end Calm

/-! ## With a message on its way -/

namespace Sending

variable {a b b' : Handshake} {message consumed rest left : List UInt8}

variable {rest' : List UInt8}

lemma setWriter (h : Sending P used payloads x w a b b' message consumed rest left) (hparty : x'.party w = p)
    (hother : x'.party w.other = x.party w.other) (hsent : x'.sent = x.sent) (hwrites : Writes P a p left')
    (hmine : p.mine = (x.party w).mine) (hreceived : p.received = (x.party w).received)
    (hdone : x.sent w = [] ∨ ∃ result, p.phase = .done result) (hinbox' : x'.inbox w = [])
    (hinbox : x'.inbox w.other = rest' ++ x.sent w) (hbytes : consumed ++ rest' ++ left' = frame message) :
    Sending P used payloads x' w a b b' message consumed rest' left' where
  reader := by rw [hother, h.reader]
  role := h.role
  role' := h.role'
  turn := h.turn
  more := h.more
  index := h.index
  messages := h.messages
  short := h.short
  read := h.read
  agree := h.agree
  writes := by rwa [hparty]
  reads := by
    rw [hother]
    exact h.reads
  bytes := hbytes
  inbox := by rwa [hsent]
  inbox' := hinbox'
  sent := by rwa [hsent, hparty]
  sent' := by rw [hsent, h.sent']
  books := by
    rw [hparty]
    exact h.books.congr hmine hreceived
  books' := by
    rw [hother]
    exact h.books'

lemma setReader (h : Sending P used payloads x w a b b' message consumed rest left)
    (hparty : x'.party w.other = { x.party w.other with phase }) (hother : x'.party w = x.party w)
    (hsent : x'.sent = x.sent) (hreads : Reads message phase consumed') (hinbox' : x'.inbox w = x.inbox w)
    (hinbox : x'.inbox w.other = rest' ++ x.sent w) (hbytes : consumed' ++ rest' ++ left = frame message) :
    Sending P used payloads x' w a b b' message consumed' rest' left where
  reader := by rw [hparty, ← h.reader]
  role := h.role
  role' := h.role'
  turn := h.turn
  more := h.more
  index := h.index
  messages := h.messages
  short := h.short
  read := h.read
  agree := h.agree
  writes := by
    rw [hother]
    exact h.writes
  reads := by rwa [hparty]
  bytes := hbytes
  inbox := by rwa [hsent]
  inbox' := by rw [hinbox', h.inbox']
  sent := by
    rw [hsent, hother]
    exact h.sent
  sent' := by rw [hsent, h.sent']
  books := by
    rw [hother]
    exact h.books
  books' := by
    rw [hparty]
    exact h.books'.congr rfl rfl

end Sending

end RocNet.NoiseHandshake
