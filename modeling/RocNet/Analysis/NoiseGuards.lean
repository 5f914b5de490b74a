import RocNet.Analysis.NoiseReceiving
import RocNet.Analysis.StreamSteps
import RocNet.Model.NoiseSteps

/-!
# Who holds the lock of a Noise stream

The guards by where a task stands (`Placed`): a task that looks at what was received or reads from the socket has the
one guard of the read lock, not idle, and a task outside has none.
-/

namespace RocNet.Noise

open Streams (Kept Covers Change DropStep covers_of_busy)
open Function List State

variable {c : Cipher} {S : ℕ} {s s' : State} {t u id w : ℕ} {x : Check} {o : Op} {l : Label}

/-! ## Where the guards are -/

/-- The task holds the lock, not idle. -/
def Op.holds : Op → Bool
  | .looking _ | .filling _ | .got _ _ => true
  | _ => false

/-- The task has no guard. -/
def Op.outside : Op → Bool
  | .none | .wants _ _ | .watching _ => true
  | _ => false

lemma outside_of_holds (h : o.holds) : o.outside = false := by
  cases o with
  | looking r | filling r | got r bytes => rfl
  | _ => cases h

structure Placed (s : State) : Prop where
  outside : ∀ t, (s.ops t).outside = true → s.stream.held t = [] ∧ s.stream.waking t = []
  holding : ∀ t, (s.ops t).holds = true →
    s.stream.waking t = [] ∧ ∃ first, s.stream.held t = [⟨.read, true, first, false⟩]
  read : ∀ t, ∀ h ∈ s.stream.held t, h.lock = .read
  sampled : ∀ t r first, s.ops t = .wants r first → first ≤ s.stream.watchers.nextId
  registered : ∀ t, s.stream.registered t ≠ none → ∃ x, s.ops t = .watching x
  unreadable : ∀ t r, s.ops t = .filling r → s.received.readable = false
  awake : ∀ t, (s.ops t).waits = false → (s.stream.sock.on t).isSome = true

lemma Placed.eq_of_holds (hp : Placed s) (hk : Kept s.stream) (ht : (s.ops t).holds)
    (hu : (s.ops u).holds) : t = u := by
  obtain ⟨-, first, hheld⟩ := hp.holding t ht
  obtain ⟨-, first', hheld'⟩ := hp.holding u hu
  have hlock := hk.guarded t ⟨.read, true, first, false⟩ (by simp [hheld]) rfl
  have hlock' := hk.guarded u ⟨.read, true, first', false⟩ (by simp [hheld']) rfl
  exact Option.some.inj (hlock.symm.trans hlock')

lemma Placed.covers (hp : Placed s) (hu : (s.ops u).holds) : Covers s.stream t id w := by
  obtain ⟨-, first, hheld⟩ := hp.holding u hu
  exact covers_of_busy (u := u) (h := ⟨.read, true, first, false⟩) (by simp [hheld]) rfl

section

variable (hp : Placed s) (hon : (s.stream.sock.on t).isSome) (hops : s'.ops = update s.ops t o)
  (hstream : Change S s.stream t s'.stream)

include hp hon hops hstream

/-- **The rule for a task's step.** Nothing readable appears under a task that goes to the socket. -/
theorem Placed.updated (hread : ∀ u r, u ≠ t → s.ops u = .filling r → s.received.readable = false →
      s'.received.readable = false) (houtside : o.outside → s'.stream.held t = [] ∧ s'.stream.waking t = [])
    (hholding : o.holds → s'.stream.waking t = [] ∧
      ∃ first, s'.stream.held t = [⟨.read, true, first, false⟩]) (hlocks : ∀ h ∈ s'.stream.held t, h.lock = .read)
    (hsampled : ∀ r first, o = .wants r first → first ≤ s'.stream.watchers.nextId)
    (hregistered : s'.stream.registered t ≠ none → ∃ x, o = .watching x)
    (hunreadable : ∀ r, o = .filling r → s'.received.readable = false) : Placed s' := by
  have hself : s'.ops t = o := by rw [hops, update_self]
  have hother : ∀ u ≠ t, s'.ops u = s.ops u := fun u hu => by rw [hops, update_of_ne hu]
  refine ⟨fun u hu => ?_, fun u hu => ?_, fun u => ?_, fun u r first hu => ?_, fun u hu => ?_,
    fun u r hu => ?_, fun u hu => ?_⟩
  all_goals by_cases hut : u = t
  · subst hut
    exact houtside (hself ▸ hu)
  · obtain ⟨hheld, hwaking, -⟩ := hstream.other hut
    rw [hheld, hwaking]
    exact hp.outside u (hother u hut ▸ hu)
  · subst hut
    exact hholding (hself ▸ hu)
  · obtain ⟨hheld, hwaking, -⟩ := hstream.other hut
    rw [hheld, hwaking]
    exact hp.holding u (hother u hut ▸ hu)
  · subst hut
    exact hlocks
  · rw [(hstream.other hut).1]
    exact hp.read u
  · subst hut
    exact hsampled r first (hself.symm.trans hu)
  · rw [hother u hut] at hu
    exact (hp.sampled u r first hu).trans hstream.nextId_le
  · subst hut
    rw [hself]
    exact hregistered hu
  · rw [(hstream.other hut).2.2] at hu
    rw [hother u hut]
    exact hp.registered u hu
  · subst hut
    exact hunreadable r (hself.symm.trans hu)
  · rw [hother u hut] at hu
    exact hread u r hut hu (hp.unreadable u r hu)
  · subst hut
    rw [hstream.on]
    exact hon
  · rw [hstream.on]
    exact hp.awake u (hother u hut ▸ hu)

/-- The task goes on, keeping its guards, its watcher and what was received. -/
theorem Placed.advance (hheld : s'.stream.held t = s.stream.held t) (hwaking : s'.stream.waking t = s.stream.waking t)
    (hreg : s'.stream.registered t = s.stream.registered t) (hreceived : s'.received = s.received)
    (houtside : o.outside → (s.ops t).outside) (hholding : o.holds → (s.ops t).holds)
    (hsampled : ∀ r first, o = .wants r first → first ≤ s'.stream.watchers.nextId)
    (hregistered : (∃ x, s.ops t = .watching x) → ∃ x, o = .watching x)
    (hunreadable : ∀ r, o = .filling r → s.received.readable = false) : Placed s' := by
  refine hp.updated hon hops hstream (fun _ _ _ _ h => hreceived ▸ h) (fun ho => ?_) (fun ho => ?_) ?_
    hsampled (fun h => hregistered (hp.registered t (hreg ▸ h))) fun r h => hreceived ▸ hunreadable r h
  · rw [hheld, hwaking]
    exact hp.outside t (houtside ho)
  · rw [hheld, hwaking]
    exact hp.holding t (hholding ho)
  · rw [hheld]
    exact hp.read t

end

lemma Placed.not_registered (hp : Placed s) (hop : ∀ x, s.ops t ≠ .watching x) : s.stream.registered t = none := by
  by_contra hne
  obtain ⟨x, hx⟩ := hp.registered t hne
  exact hop x hx

lemma Placed.setReceived (hp : Placed s) (hk : Kept s.stream)
    (hon : (s.stream.sock.on t).isSome) (r : Received)
    (results : List (Except ReadError Bytes)) (hholds : (s.ops t).holds)
    (ho : o.holds ∨ o = .leaving) (hunreadable : ∀ q, o = .filling q → r.readable = false) :
    Placed ({ s.setReceived r with results := results }.setOp t o) := by
  have hnone : s.stream.registered t = none := by
    refine hp.not_registered fun x hx => ?_
    rw [hx] at hholds
    cases hholds
  refine hp.updated (S := 0) hon rfl .same (fun u q hu hop _ => ?_) (fun hout => ?_) (fun _ => hp.holding t hholds)
    (hp.read t) (fun q first hq => ?_) (fun hreg => absurd hnone hreg) hunreadable
  · exact absurd (hp.eq_of_holds hk (by rw [hop]; rfl) hholds) hu
  · rcases ho with ho | rfl
    · rw [outside_of_holds ho] at hout
      cases hout
    · cases hout
  · rcases ho with ho | rfl
    · rw [hq] at ho
      cases ho
    · cases hq

lemma read_of_dropStep {x y : Streams.State} (hread : ∀ h ∈ x.held t, h.lock = .read)
    (hd : DropStep x t y) : ∀ h ∈ y.held t, h.lock = .read := by
  intro h hmem
  cases hd with
  | wake hwaking => exact hread h hmem
  | @unlock g rest hwaking hheld hguard =>
    rw [hheld] at hread
    simp only [Streams.State.unlock_held, update_self] at hmem
    rcases mem_cons.mp hmem with rfl | hmem
    · exact hread g mem_cons_self
    · exact hread h (mem_cons_of_mem _ hmem)
  | drain hwaking hheld hguard =>
    rw [hheld] at hread
    simp only [Streams.State.drain_held, update_self] at hmem
    exact hread h (mem_cons_of_mem _ hmem)

lemma TaskStep.stream (h : TaskStep c S s t l s')
    (hsampled : ∀ r first, s.ops t = .wants r first → first ≤ s.stream.watchers.nextId) :
    Change S s.stream t s'.stream := by
  cases h with
  | lock hop hfree => exact .lock hfree (hsampled _ _ hop)
  | readSome hop hstep => exact .sock (.attempt _ _) hstep
  | blocked hop hstep | notReady hop hstep => exact .sock (.observe _) hstep
  | idle hop hstep => exact .sockIdle (.observe _) hstep
  | drop hop hdrop => exact .drop hdrop
  | watch hop hcode => exact .register hcode
  | found hop hreg | unwatch hop hreg => exact .unwatch hreg
  | addIo hop hstep => exact .sock .addIo hstep
  | _ => exact .same

lemma Placed.taskStep (hp : Placed s) (hk : Kept s.stream) (hon : (s.stream.sock.on t).isSome)
    (hstep : TaskStep c S s t l s') : Placed s' := by
  have hstream := hstep.stream (hp.sampled t)
  have hwatch : ∀ {x x' : Check} {s' : State}, s.ops t = .watching x →
      s'.ops = update s.ops t (.watching x') → Change S s.stream t s'.stream →
      s'.stream.held t = s.stream.held t → s'.stream.waking t = s.stream.waking t →
      s'.stream.registered t = s.stream.registered t → s'.received = s.received → Placed s' := by
    intro x x' s' hop hops hstream hheld hwaking hreg hreceived
    exact hp.advance hon hops hstream hheld hwaking hreg hreceived (fun _ => by rw [hop]; rfl) nofun
      nofun (fun _ => ⟨_, rfl⟩) nofun
  cases hstep with
  | start hop =>
    refine hp.advance hon rfl hstream rfl rfl rfl rfl (fun _ => by rw [hop]; rfl) nofun
      (fun r first h => ?_) (by simp [hop]) nofun
    cases h
    exact le_rfl
  | @lock r first hop hfree =>
    obtain ⟨hheld, hwaking⟩ := hp.outside t (by rw [hop]; rfl)
    refine hp.updated hon rfl hstream (fun _ _ _ _ h => h) nofun
      (fun _ => ⟨hwaking, first, by simp [hheld]⟩) (by simp [hheld]) nofun (fun hreg => ?_) nofun
    exact absurd (hp.not_registered (by simp [hop])) hreg
  | giveUp hop =>
    exact hp.advance hon rfl hstream rfl rfl rfl rfl (fun _ => by rw [hop]; rfl) nofun nofun
      (by simp [hop]) nofun
  | filled hop | fail hop =>
    exact hp.advance hon rfl hstream rfl rfl rfl rfl nofun nofun nofun (by simp [hop]) nofun
  | unfilled hop hread =>
    exact hp.advance hon rfl hstream rfl rfl rfl rfl nofun (fun _ => by rw [hop]; rfl) nofun
      (by simp [hop]) fun _ _ => hread
  | nothing hop hr hnext =>
    exact hp.setReceived hk hon _ s.results (by rw [hop]; rfl) (.inl rfl)
      fun _ _ => Received.next_none hnext
  | returned hop hr hnext | failed hop hr hnext => exact hp.setReceived hk hon _ _ (by rw [hop]; rfl) (.inr rfl) nofun
  | readSome hop hstep =>
    exact hp.advance hon rfl hstream rfl rfl rfl rfl nofun (fun _ => by rw [hop]; rfl) nofun
      (by simp [hop]) nofun
  | @blocked r bytes drain y hop hstep =>
    have hops : (s.setStream (s.stream.setSock y)).ops = update s.ops t (s.ops t) := (update_eq_self t s.ops).symm
    exact hp.advance hon hops hstream rfl rfl rfl rfl id id (hp.sampled t) id (hp.unreadable t)
  | @idle r bytes drain y hop hstep =>
    refine hp.updated hon rfl hstream (fun _ _ _ _ h => h) nofun nofun (fun h hmem => ?_) nofun (fun hreg => ?_) nofun
    · simp only [setOp_stream, setStream_stream, Streams.State.markIdle_held,
        Streams.State.setSock_held, update_self] at hmem
      obtain ⟨h', hmem', rfl⟩ := List.mem_map.mp hmem
      exact hp.read t h' hmem'
    · exact absurd (hp.not_registered (by simp [hop])) hreg
  | @extend r bytes hop =>
    exact hp.setReceived (o := .looking r) hk hon (s.received.receive bytes) s.results
      (by rw [hop]; rfl) (.inl rfl) nofun
  | @drop y hop hdrop =>
    have hops : (s.setStream y).ops = update s.ops t .leaving := by
      rw [← hop]
      exact (update_eq_self t s.ops).symm
    refine hp.updated hon hops hstream (fun _ _ _ _ h => h) nofun nofun
      (read_of_dropStep (hp.read t) hdrop) nofun (fun hreg => ?_) nofun
    rw [setStream_stream, hdrop.registered] at hreg
    exact absurd (hp.not_registered (by simp [hop])) hreg
  | dropped hop hdone =>
    refine hp.updated hon rfl hstream (fun _ _ _ _ h => h) (fun _ => ⟨hdone.2, hdone.1⟩) nofun
      (hp.read t) nofun (fun hreg => ?_) nofun
    exact absurd (hp.not_registered (by simp [hop])) hreg
  | watch hop hcode =>
    exact hp.updated hon rfl hstream (fun _ _ _ _ h => h) (fun _ => hp.outside t (by rw [hop]; rfl))
      nofun (hp.read t) nofun (fun _ => ⟨_, rfl⟩) nofun
  | free hop | busy hop hheld | readable hop | unreadable hop hread | notReady hop hstep
  | addIo hop hstep => exact hwatch hop rfl hstream rfl rfl rfl rfl
  | found hop hreg | unwatch hop hreg =>
    refine hp.updated hon rfl hstream (fun _ _ _ _ h => h) (fun _ => hp.outside t (by rw [hop]; rfl))
      nofun (hp.read t) nofun (fun hreg' => ?_) nofun
    simp at hreg'

lemma Placed.setSock (hp : Placed s) (hallows : allows s m) (hstep : Sockets.step s.stream.sock m = some y) :
    Placed (s.setStream (s.stream.setSock y)) := by
  refine ⟨hp.outside, hp.holding, hp.read, hp.sampled, hp.registered, hp.unreadable, fun t h => ?_⟩
  obtain ⟨a, ha⟩ := Option.isSome_iff_exists.mp (hp.awake t h)
  have htask : m.task ≠ some t := by
    intro hm
    have hwaits : (s.ops t).waits := by simpa only [allows, hm] using hallows
    cases hwaits.symm.trans h
  rw [setStream_stream, Streams.State.setSock_sock, ((Sockets.step_cases hstep).frame htask ha).1]
  rfl

end RocNet.Noise
