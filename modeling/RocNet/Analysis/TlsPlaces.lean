import RocNet.Model.TlsSteps

/-!
# What the place of a task says

Where a task stands in the functions of a TLS stream says which guards it has (`Op.locks`), whether it holds `inner`
(`Op.holdsInner`), and whether the handshake is behind it (`Op.after`) or under way (`Op.shakes`).
-/

namespace RocNet.Tls

open Streams (LockName)

variable {S : ℕ} {s : State} {o o' : Op} {x x' : Section}

/-! ## What a place says -/

def Want.before : Want → List LockName
  | .send _ | .flush _ => [.read]
  | _ => []

def Section.locks : Section → List LockName
  | .handshake _ | .running _ | .alert | .alertNow | .finished _ | .handshakeNow _ _ => [.handshake]
  | .tryRead _ | .look _ | .ask _ | .recheck _ | .store _ _ | .eof _ => [.read]
  | .take w => w.lock :: w.before
  | .flush _ => [.write, .read]
  | .query => []

/-- The locks of the guards a task has, the latest first, unless it is dropping them. -/
def Op.locks : Op → Option (List LockName)
  | .none | .load _ | .watching _ => some []
  | .sample w | .wants w _ => some w.before
  | .inner x | .inside x => some x.locks
  | .reading _ | .stored _ _ => some [.read]
  | .sending w _ => some (w.lock :: w.before)
  | .leaving _ => Option.none

def Op.holdsInner : Op → Bool
  | .inside _ => true
  | .watching (.inspecting _) | .watching (.probing _) | .watching (.found _) => true
  | _ => false

def Want.after : Want → Bool
  | .handshake _ | .handshakeNow _ => false
  | _ => true

def Section.after : Section → Bool
  | .handshake _ | .running _ | .alert | .alertNow | .handshakeNow _ _ => false
  | _ => true

/-- The task is past the handshake. -/
def Op.after : Op → Bool
  | .sample w | .wants w _ => w.after
  | .inner x | .inside x => x.after
  | .reading _ | .stored _ _ | .sending _ _ | .leaving (.proceed _) => true
  | _ => false

/-- The task runs the handshake. -/
def Op.shakes : Op → Bool
  | .inside x => x.shakes
  | _ => false

/-- The lock records are taken under. -/
def Section.formed : Section → Bool
  | .take w => w.lock == .write
  | _ => true

/-- The bytes that were read from the socket and are about to be added to `pending`. -/
def Op.hand : Op → Option Bytes
  | .inner x | .inside x => x.hand
  | _ => Option.none

/-- The bytes taken out of rustls that are still to be written. -/
def Op.sends : Op → Option Bytes
  | .sending _ bytes => some bytes
  | _ => Option.none

/-- Records are taken under the write lock, and no task enters the handshake half way. -/
def Op.formed : Op → Bool
  | .inner x => !x.shakes && x.formed
  | .inside x => x.formed
  | .sending w _ => w.lock == .write
  | _ => true

/-- Places between the sections, of a task that carries no bytes. -/
def Op.plain : Op → Bool
  | .none | .load _ | .sample _ | .leaving _ => true
  | .inner x => !x.shakes && x.formed && x.hand.isNone
  | _ => false

section Plain

variable (h : o.plain)
include h

lemma holdsInner_of_plain : o.holdsInner = false := by
  cases o <;> first | rfl | cases h

lemma formed_of_plain : o.formed := by
  cases o with
  | inner x =>
    rw [Op.plain, Bool.and_eq_true_iff] at h
    exact h.1
  | _ => first | rfl | cases h

lemma hand_of_plain : o.hand = none := by
  cases o with
  | inner x =>
    rw [Op.plain, Bool.and_eq_true_iff, Option.isNone_iff_eq_none] at h
    exact h.2
  | _ => first | rfl | cases h

lemma sends_of_plain : o.sends = none := by
  cases o <;> first | rfl | cases h

lemma not_wants_of_plain (w : Want) (first : ℕ) : o ≠ .wants w first := by
  rintro rfl
  cases h

end Plain

lemma not_shakes_of_holdsInner (h : o.holdsInner = false) : o.shakes = false := by
  cases o with
  | inside x => cases h
  | _ => rfl

lemma plain_start (g : Goal) : g.start.plain := by
  cases g <;> rfl

lemma plain_op (next : After) : next.op.plain := by
  cases next with
  | done | fill g => rfl
  | again g | proceed g => cases g <;> rfl

lemma plain_taken (w : Want) : w.taken.plain := by
  cases w with
  | write g =>
    cases g with
    | write n => cases n <;> rfl
    | _ => rfl
  | _ => rfl

lemma plain_refused (w : Want) : w.refused.plain := by
  cases w <;> rfl

lemma plain_sent (w : Want) : w.sent.plain := by
  unfold Want.sent
  split <;> rfl

lemma locks_op (next : After) : next.op.locks = some [] := by
  cases next with
  | done | fill g => rfl
  | again g | proceed g => cases g <;> rfl

lemma after_op (h : next.op.after) : (Op.leaving next).after := by
  cases next with
  | done | fill g => cases h
  | again g => cases g <;> cases h
  | proceed g => rfl

lemma locks_taken (w : Want) : w.taken.locks = some (w.lock :: w.before) ∨ w.taken.locks = none := by
  cases w with
  | write g =>
    cases g with
    | write n =>
      cases n with
      | zero => exact .inr rfl
      | succ n => exact .inl rfl
    | _ => exact .inl rfl
  | _ => exact .inl rfl

lemma after_taken {w : Want} (h : w.taken.after) : w.after := by
  cases w with
  | handshake g | handshakeNow g => cases h
  | _ => rfl

/-- A task that has loaded the flags has no guards, and is between the sections. -/
theorem outside_next (f : Load) (handshaken aborted : Bool) :
    (f.next handshaken aborted).plain ∧ (f.next handshaken aborted).locks = some [] := by
  cases f with
  | handshake g =>
    cases handshaken with
    | true => exact ⟨plain_op (.proceed g), locks_op (.proceed g)⟩
    | false => exact ⟨rfl, rfl⟩
  | tryRead g => cases handshaken <;> exact ⟨rfl, rfl⟩
  | fill g => cases handshaken <;> cases g <;> exact ⟨rfl, rfl⟩
  | shutdown => cases handshaken <;> cases aborted <;> exact ⟨rfl, rfl⟩

lemma after_next {f : Load} {handshaken aborted : Bool} (h : (f.next handshaken aborted).after) : handshaken := by
  cases handshaken with
  | true => rfl
  | false =>
    cases f with
    | fill g => cases g <;> cases h
    | _ => cases h

lemma locks_sent (w : Want) : w.sent.locks = some (w.lock :: w.before) ∨ w.sent.locks = none := by
  unfold Want.sent
  split
  · exact .inl rfl
  · exact .inr rfl
  · exact .inr rfl

lemma locks_refused {w : Want} (h : w.blocks = false) : w.refused.locks = some w.before ∨ w.refused.locks = none := by
  cases w with
  | send g => cases h
  | flush g => exact .inr rfl
  | _ => exact .inl rfl

/-! ## Moving on -/

section

variable (h : Moves S s o o')

include h

lemma Moves.locks : o'.locks = o.locks ∨ o'.locks = none := by
  cases h with
  | start g => exact .inl (by cases g <;> rfl)
  | load f => exact .inl (outside_next f _ _).2
  | refused hblocks _ => exact locks_refused hblocks
  | fail g => exact .inr rfl
  | stored g ended => cases ended <;> [exact .inr rfl; exact .inl rfl]
  | sent w => exact locks_sent w
  | _ => exact .inl rfl

/-- A task moves to a plain place, or reads the next watcher id, or goes on with `inner` held, or in
`watch`. -/
theorem Moves.plain : o'.plain ∧ o.holdsInner = false ∨ (∃ w, o' = .wants w s.stream.watchers.nextId ∧ o = .sample w) ∨
    (∃ g, o' = .inside (.running g) ∧ o = .inside (.handshake g)) ∨ ∃ c c', o' = .watching c' ∧ o = .watching c := by
  cases h with
  | start g => exact .inl ⟨plain_start g, rfl⟩
  | load f => exact .inl ⟨(outside_next f _ _).1, rfl⟩
  | sample w => exact .inr (.inl ⟨w, rfl, rfl⟩)
  | refused _ _ => exact .inl ⟨plain_refused _, rfl⟩
  | shake _ => exact .inr (.inr (.inl ⟨_, rfl, rfl⟩))
  | fail g => exact .inl ⟨rfl, rfl⟩
  | stored g ended => cases ended <;> exact .inl ⟨rfl, rfl⟩
  | sent w => exact .inl ⟨plain_sent w, rfl⟩
  | _ => exact .inr (.inr (.inr ⟨_, _, rfl, rfl⟩))

lemma Moves.holdsInner : o'.holdsInner = o.holdsInner := by
  rcases h.plain with ⟨hplain, hout⟩ | ⟨w, rfl, rfl⟩ | ⟨g, rfl, rfl⟩ | ⟨c, c', rfl, rfl⟩
  · rw [holdsInner_of_plain hplain, hout]
  · rfl
  · rfl
  · cases h <;> rfl

lemma Moves.formed : o'.formed := by
  rcases h.plain with ⟨hplain, -⟩ | ⟨w, rfl, -⟩ | ⟨g, rfl, -⟩ | ⟨c, c', rfl, -⟩
  · exact formed_of_plain hplain
  all_goals rfl

lemma Moves.hand : o'.hand = o.hand := by
  have hold : o.hand = none := by cases h <;> rfl
  rcases h.plain with ⟨hplain, -⟩ | ⟨w, rfl, -⟩ | ⟨g, rfl, -⟩ | ⟨c, c', rfl, -⟩
  · rw [hand_of_plain hplain, hold]
  all_goals exact hold.symm

lemma Moves.sends : o'.sends = none := by
  rcases h.plain with ⟨hplain, -⟩ | ⟨w, rfl, -⟩ | ⟨g, rfl, -⟩ | ⟨c, c', rfl, -⟩
  · exact sends_of_plain hplain
  all_goals rfl

lemma Moves.after (ho : o.after → s.handshaken) (ho' : o'.after) : s.handshaken := by
  cases h with
  | start g | @refused g _ _ _ _ => cases g <;> cases ho'
  | load f => exact after_next ho'
  | sample w => exact ho ho'
  | shake hnot => cases ho'
  | fail g | stored g ended | sent w => exact ho rfl
  | _ => cases ho'

lemma Moves.shakes (ho' : o'.shakes) : s.handshaken = false := by
  rcases h.plain with ⟨hplain, -⟩ | ⟨w, rfl, -⟩ | ⟨g, rfl, rfl⟩ | ⟨c, c', rfl, -⟩
  · rw [not_shakes_of_holdsInner (holdsInner_of_plain hplain)] at ho'
    cases ho'
  · cases ho'
  · cases h with
    | shake hnot => exact hnot
  · cases ho'

end

lemma Moves.sampled (h : Moves S s o (.wants w first)) : first ≤ s.stream.watchers.nextId := by
  rcases h.plain with ⟨hplain, -⟩ | ⟨w', heq, -⟩ | ⟨g, heq, -⟩ | ⟨c, c', heq, -⟩
  · cases hplain
  · cases heq
    exact le_rfl
  · cases heq
  · cases heq

lemma Moves.watching (h : Moves S s (.watching c) o') : ∃ c', o' = .watching c' := by
  cases h with
  | unlocked | busy _ | buffered _ | unbuffered _ | ready _ => exact ⟨_, rfl⟩

lemma Moves.of_watching (h : Moves S s o (.watching c')) : ∃ c, o = .watching c := by
  rcases h.plain with ⟨hplain, -⟩ | ⟨w, heq, -⟩ | ⟨g, heq, -⟩ | ⟨c, -, -, hc⟩
  · cases hplain
  · cases heq
  · cases heq
  · exact ⟨c, hc⟩

lemma Exits.locks (h : Exits s x o) : o.locks = some x.locks ∨ o.locks = none := by
  cases h with
  | send g | flush g | recheck g | query => exact .inl rfl
  | read hx _ =>
    rcases hx with rfl | rfl
    · exact .inl rfl
    · exact .inl rfl
  | _ => exact .inr rfl

lemma Exits.holdsInner (h : Exits s x o) : o.holdsInner = false := by
  cases h <;> rfl

lemma Exits.formed (h : Exits s x o) : o.formed := by
  cases h <;> rfl

lemma Exits.after (h : Exits s x o) (hx : x.after → s.handshaken) (ho : o.after) : s.handshaken := by
  cases h with
  | handshaken hdone => exact hdone
  | read hx' _ =>
    rcases hx' with rfl | rfl
    · exact hx rfl
    · exact hx rfl
  | done _ | again _ g => cases ho
  | _ => exact hx rfl

lemma locks_of_goesOn (h : x.goesOn) : x.locks = [.handshake] := by
  cases x <;> first | rfl | cases h

lemma after_of_goesOn (h : x.goesOn) : x.after = false := by
  cases x <;> first | rfl | cases h

lemma formed_of_goesOn (h : x.goesOn) : x.formed := by
  cases x <;> first | rfl | cases h

end RocNet.Tls
