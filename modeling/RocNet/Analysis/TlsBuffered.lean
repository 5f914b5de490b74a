import RocNet.Analysis.TlsBlocking

/-!
# What a handshaken TLS stream holds for a poll

Once the handshake is done no task is in it (`Settled`), and what a poll would find appears in one way only: a task
that has the read lock adds what it read to what is pending.
-/

namespace RocNet.Tls

open Function
open Streams (LockName)

variable {S : ℕ} {s s' : State} {t u : ℕ} {o o' : Op} {x : Section} {l : Label}

/-! ## Past the handshake -/

/-- The place has nothing to do with the handshake. -/
def Op.settled : Op → Bool
  | .sample w | .wants w _ => w.after
  | .inner x | .inside x => x.after
  | .watching (.unlocked hs) | .watching (.inspecting hs) | .watching (.probing hs)
  | .watching (.found hs) => hs
  | _ => true

structure Settled (s : State) : Prop where
  done : s.handshaken = true
  places : ∀ t, (s.ops t).settled = true

lemma Settled.updated (h : Settled s) (hops : s'.ops = update s.ops t o)
    (hdone : s.handshaken → s'.handshaken) (ho : o.settled) : Settled s' := by
  refine ⟨hdone h.done, fun u => ?_⟩
  rw [hops]
  obtain rfl | hu := eq_or_ne u t
  · rw [update_self]
    exact ho
  · rw [update_of_ne hu]
    exact h.places u

lemma settled_op (next : After) : next.op.settled := by
  cases next with
  | done | fill g => rfl
  | again g | proceed g => cases g <;> rfl

lemma settled_next (f : Load) (aborted : Bool) : (f.next true aborted).settled := by
  cases f with
  | handshake g => exact settled_op (.proceed g)
  | tryRead g => rfl
  | fill g => cases g <;> rfl
  | shutdown => cases aborted <;> rfl

lemma settled_taken {w : Want} (h : w.after) : w.taken.settled := by
  cases w with
  | write g =>
    cases g with
    | write n => cases n <;> rfl
    | _ => rfl
  | _ => first | rfl | cases h

lemma Moves.settled (h : Moves S s o o') (hdone : s.handshaken) (ho : o.settled) : o'.settled := by
  cases h with
  | start g | @refused g _ _ _ _ | stored _ g => cases g <;> rfl
  | load f =>
    rw [hdone]
    exact settled_next f _
  | sample w | buffered hs | unbuffered _ | ready hs => exact ho
  | shake hnot => cases hdone.symm.trans hnot
  | sent w =>
    unfold Want.sent
    split <;> rfl
  | unlocked => exact hdone
  | _ => rfl

lemma Exits.settled (h : Exits s x o) : o.settled := by
  cases h <;> rfl

lemma Settled.sectionStep (h : Settled s) (hop : s.ops t = .inside x)
    (hstep : SectionStep S s t x s') : Settled s' := by
  have hx : x.after := by
    have hplace := h.places t
    rwa [hop] at hplace
  have hnot : x.goesOn → Settled s' := fun hgo => by
    cases (after_of_goesOn hgo).symm.trans hx
  cases hstep with
  | exit hexits => exact h.updated rfl id hexits.settled
  | emit hgo _ _ _ | absorb hgo _ _ _ | finish _ hgo => exact hnot hgo
  | wait _ _ => exact h.updated rfl id hx
  | store g bytes | feed _ | taken w _ => exact h.updated rfl id rfl
  | _ => exact h.updated rfl id rfl

lemma Settled.taskStep (h : Settled s) (hstep : TaskStep S s t l s') : Settled s' := by
  have hplace := h.places t
  cases hstep with
  | move hop hmoves =>
    rw [hop] at hplace
    exact h.updated rfl id (hmoves.settled h.done hplace)
  | lock hop _ =>
    rw [hop] at hplace
    exact h.updated rfl id (settled_taken hplace)
  | lockInner hop _ | tryInner hop _ =>
    rw [hop] at hplace
    exact h.updated rfl id hplace
  | inside hop hstep => exact h.sectionStep hop hstep
  | drop hop _ => exact ⟨h.done, h.places⟩
  | @dropped next _ _ => exact h.updated rfl id (settled_op next)
  | _ => exact h.updated rfl id rfl

/-! ## What appears in the stream -/

lemma buffered_eq_false : s.buffered = false ↔
    s.pending = [] ∧ s.conn.failed = false ∧ s.conn.plaintext = [] ∧ s.conn.closed = false := by
  simp [State.buffered, Conn.readable, and_assoc]

/-- Nothing appears in the stream, unless the task adds what it read. -/
theorem buffered_sectionStep (hset : Settled s) (hop : s.ops t = .inside x) (hstep : SectionStep S s t x s')
    (hx : x.hand = none) (hcalm : s.buffered = false) : s'.buffered = false := by
  have hplace := hset.places t
  rw [hop] at hplace
  have hpending := (buffered_eq_false.mp hcalm).1
  cases hstep with
  | absorb hgo _ _ _ => cases (after_of_goesOn hgo).symm.trans hplace
  | returned g rest hrest =>
    obtain ⟨-, hfailed, hplain, hclosed⟩ := buffered_eq_false.mp hcalm
    exact buffered_eq_false.mpr ⟨hpending, hfailed, hrest hplain, hclosed⟩
  | feed hne | fed _ hne => exact absurd hpending hne
  | store g bytes => cases hx
  | _ => exact hcalm

/-- A task has read from the socket and is adding it to what is pending. -/
def Op.stores : Op → Bool
  | .inside (.store _ _) => true
  | _ => false

lemma hand_of_not_stores (h : (Op.inside x).stores = false) : x.hand = none := by
  cases x <;> first | rfl | cases h

lemma buffered_taskStep (hset : Settled s) (hstep : TaskStep S s t l s')
    (hstores : (s.ops t).stores = false) (hcalm : s.buffered = false) : s'.buffered = false := by
  cases hstep with
  | @inside x i s' hop hstep =>
    rw [hop] at hstores
    exact buffered_sectionStep hset hop hstep (hand_of_not_stores hstores) hcalm
  | _ => exact hcalm

/-! ## Nothing is there -/

/-- What a task has found when it goes to the socket. -/
def Op.calm : Op → Bool
  | .reading _ | .watching (.probing _) => true
  | _ => false

/-- Nothing is in the stream while a task goes to the socket for want of it. -/
def Calm (s : State) : Prop := ∀ t, (s.ops t).calm = true → s.buffered = false

lemma stores_locks (h : o.stores) : o.locks = some [.read] ∧ o.holdsInner := by
  cases o with
  | inside x => cases x <;> first | exact ⟨rfl, rfl⟩ | cases h
  | _ => cases h

/-- A task that adds what it read is the only one that could be at the socket. -/
theorem Orderly.not_calm (ho : Orderly s) (ht : (s.ops t).stores) (hu : u ≠ t) : (s.ops u).calm = false := by
  obtain ⟨hlocks, hinner⟩ := stores_locks ht
  by_contra hne
  have hcalm : (s.ops u).calm := by simpa using hne
  cases hop : s.ops u with
  | reading g =>
    have hmine := ho.locked hlocks List.mem_cons_self
    have hlocks' : (s.ops u).locks = some [.read] := by rw [hop]; rfl
    have hother := ho.locked hlocks' List.mem_cons_self
    exact hu (Option.some.inj (hother.symm.trans hmine))
  | watching c =>
    rw [hop] at hcalm
    cases c with
    | probing hs => exact hu (ho.placed.eq_of_holdsInner (by rw [hop]; rfl) hinner)
    | _ => cases hcalm
  | _ =>
    rw [hop] at hcalm
    cases hcalm

lemma calm_of_plain (h : o.plain) : o.calm = false := by
  cases o <;> first | rfl | cases h

lemma Moves.calm (h : Moves S s o o') (ho' : o'.calm) : s.buffered = false := by
  rcases h.plain with ⟨hplain, -⟩ | ⟨w, rfl, -⟩ | ⟨g, rfl, -⟩ | ⟨c, c', rfl, rfl⟩
  · cases (calm_of_plain hplain).symm.trans ho'
  · cases ho'
  · cases ho'
  · cases h with
    | unbuffered hcalm => exact hcalm
    | _ => cases ho'

lemma Exits.calm (h : Exits s x o) (ho : o.calm) : s.buffered = false ∧ x.hand = none := by
  cases h with
  | read hx hcalm =>
    rcases hx with rfl | rfl
    · exact ⟨hcalm, rfl⟩
    · exact ⟨hcalm, rfl⟩
  | _ => cases ho

lemma SectionStep.calm (h : SectionStep S s t x s') (hnew : (s'.ops t).calm) :
    s.buffered = false ∧ x.hand = none := by
  cases h with
  | exit hexits => exact hexits.calm (by simpa using hnew)
  | _ => simp [Op.calm] at hnew

lemma TaskStep.calm (h : TaskStep S s t l s') (hset : Settled s) (hcalm : Calm s)
    (hnew : (s'.ops t).calm) : s'.buffered = false := by
  cases h with
  | move hop hmoves => exact hmoves.calm (by simpa using hnew)
  | @lock w _ _ _ => simp [calm_of_plain (plain_taken w)] at hnew
  | inside hop hstep =>
    obtain ⟨hcalm', hhand⟩ := hstep.calm hnew
    exact buffered_sectionStep hset hop hstep hhand hcalm'
  | readBlocked hop _ => exact hcalm t (by rw [hop]; rfl)
  | drop _ _ => exact hcalm t hnew
  | @dropped next _ _ => simp [calm_of_plain (plain_op next)] at hnew
  | _ => simp [Op.calm] at hnew

lemma Calm.taskStep (h : Calm s) (hset : Settled s) (ho : Orderly s) (hstep : TaskStep S s t l s') : Calm s' := by
  intro u hu
  obtain rfl | hut := eq_or_ne u t
  · exact hstep.calm hset h hu
  · obtain ⟨o, hops⟩ := hstep.ops
    rw [hops, update_of_ne hut] at hu
    refine buffered_taskStep hset hstep ?_ (h u hu)
    by_contra hstores
    have hnot := ho.not_calm (t := t) (by simpa using hstores) hut
    cases hnot.symm.trans hu

end RocNet.Tls
