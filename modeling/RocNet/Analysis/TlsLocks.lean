import RocNet.Analysis.StreamSteps
import RocNet.Analysis.TlsPlaces

/-!
# Who holds the locks of a TLS stream

Every task has the guards, and `inner`, that its place says (`Placed`), is past the handshake or before
it as its place says, and runs unless its place lets it be suspended.
-/

namespace RocNet.Tls

open Streams (LockName Kept Change)
open Function

variable {S : ℕ} {s s' : State} {t u : ℕ} {o o' : Op} {x x' : Section} {c : Check} {l : Label}

/-! ## The locks, the watchers and the sockets -/

lemma SectionStep.stream (h : SectionStep S s t x s') : Change S s.stream t s'.stream := by
  cases h with
  | emit _ _ _ hstep | absorb _ _ _ hstep | ended _ hstep | alerted hstep | flushed hstep =>
    exact .sock (.attempt _ _) hstep
  | wait _ hstep | blocked hstep => exact .sock (.observe _) hstep
  | blockedIdle hstep | fullEmpty _ hstep => exact .sockIdle (.observe _) hstep
  | idle g | full _ _ => exact .idle
  | _ => exact .same

lemma TaskStep.stream (h : TaskStep S s t l s')
    (hsampled : ∀ w first, s.ops t = .wants w first → first ≤ s.stream.watchers.nextId) :
    Change S s.stream t s'.stream := by
  cases h with
  | lock hop hfree => exact .lock hfree (hsampled _ _ hop)
  | inside hop hstep => exact hstep.stream
  | readSome hop hstep | writeSome hop hstep => exact .sock (.attempt _ _) hstep
  | readBlocked hop hstep | writeBlocked hop hstep | notReady hop hstep => exact .sock (.observe _) hstep
  | readIdle hop hstep => exact .sockIdle (.observe _) hstep
  | interrupted hop _ => exact .idle
  | drop hop hdrop => exact .drop hdrop
  | watch hop hcode => exact .register hcode
  | found hop hreg | unwatch hop hreg => exact .unwatch hreg
  | addIo hop hstep => exact .sock .addIo hstep
  | _ => exact .same

/-! ## Every task is where its place says -/

/-- Task `t` has the guards of these locks, none of them idle or being dropped. -/
structure Guarded (y : Streams.State) (t : ℕ) (locks : List LockName) : Prop where
  waking : y.waking t = []
  held : (y.held t).map (·.lock) = locks
  busy : ∀ h ∈ y.held t, h.guard = true ∧ h.idle = false

lemma Guarded.same (h : Guarded y t locks) (hheld : y'.held t = y.held t) (hwaking : y'.waking t = y.waking t) :
    Guarded y' t locks :=
  ⟨hwaking.trans h.waking, by rw [hheld]; exact h.held, by rw [hheld]; exact h.busy⟩

structure Placed (s : State) : Prop where
  guarded : ∀ t locks, (s.ops t).locks = some locks → Guarded s.stream t locks
  sampled : ∀ t w first, s.ops t = .wants w first → first ≤ s.stream.watchers.nextId
  registered : ∀ t, s.stream.registered t ≠ none → ∃ x, s.ops t = .watching x
  inner : ∀ t, (s.ops t).holdsInner = true ↔ s.inner = some t
  after : ∀ t, (s.ops t).after = true → s.handshaken = true
  shaking : ∀ t, (s.ops t).shakes = true → s.handshaken = false
  formed : ∀ t, (s.ops t).formed = true
  awake : ∀ t, (s.ops t).waits = false → (s.stream.sock.on t).isSome = true

/-- **The rule for a task's step.** Others keep their places, and this one has what its new place
says. -/
theorem Placed.updated (hp : Placed s) (hon : (s.stream.sock.on t).isSome) (hops : s'.ops = update s.ops t o)
    (hstream : Change S s.stream t s'.stream) (hinner : ∀ u ≠ t, (s'.inner = some u ↔ s.inner = some u))
    (hmono : s.handshaken → s'.handshaken) (hshaking : ∀ u ≠ t, (s.ops u).shakes → s'.handshaken = s.handshaken)
    (hguarded : ∀ locks, o.locks = some locks → Guarded s'.stream t locks)
    (hsampled : ∀ w first, o = .wants w first → first ≤ s'.stream.watchers.nextId)
    (hregistered : s'.stream.registered t ≠ none → ∃ x, o = .watching x) (hself : o.holdsInner ↔ s'.inner = some t)
    (hafter : o.after → s'.handshaken) (hshakes : o.shakes → s'.handshaken = false) (hformed : o.formed) :
    Placed s' := by
  have hmine : s'.ops t = o := by rw [hops, update_self]
  have hother : ∀ u ≠ t, s'.ops u = s.ops u := fun u hu => by rw [hops, update_of_ne hu]
  refine ⟨fun u locks hu => ?_, fun u w first hu => ?_, fun u hu => ?_, fun u => ?_, fun u hu => ?_,
    fun u hu => ?_, fun u => ?_, fun u hu => ?_⟩
  all_goals by_cases hut : u = t
  · subst hut
    exact hguarded locks (hmine ▸ hu)
  · obtain ⟨hheld, hwaking, -⟩ := hstream.other hut
    exact (hp.guarded u locks (hother u hut ▸ hu)).same hheld hwaking
  · subst hut
    exact hsampled w first (hmine.symm.trans hu)
  · exact (hp.sampled u w first ((hother u hut).symm.trans hu)).trans hstream.nextId_le
  · subst hut
    rw [hmine]
    exact hregistered hu
  · rw [(hstream.other hut).2.2] at hu
    rw [hother u hut]
    exact hp.registered u hu
  · subst hut
    rw [hmine]
    exact hself
  · rw [hother u hut, hinner u hut]
    exact hp.inner u
  · subst hut
    exact hafter (hmine ▸ hu)
  · exact hmono (hp.after u (hother u hut ▸ hu))
  · subst hut
    exact hshakes (hmine ▸ hu)
  · rw [hother u hut] at hu
    rw [hshaking u hut hu]
    exact hp.shaking u hu
  · subst hut
    rw [hmine]
    exact hformed
  · rw [hother u hut]
    exact hp.formed u
  · subst hut
    rw [hstream.on]
    exact hon
  · rw [hstream.on]
    exact hp.awake u (hother u hut ▸ hu)

lemma Placed.eq_of_holdsInner (hp : Placed s) (ht : (s.ops t).holdsInner) (hu : (s.ops u).holdsInner) : t = u :=
  Option.some.inj (((hp.inner t).mp ht).symm.trans ((hp.inner u).mp hu))

lemma Placed.not_registered (hp : Placed s) (hop : ∀ x, s.ops t ≠ .watching x) : s.stream.registered t = none := by
  by_contra hne
  obtain ⟨x, hx⟩ := hp.registered t hne
  exact hop x hx

section

variable (hp : Placed s) (hon : (s.stream.sock.on t).isSome)

include hp hon

section Ends

variable (hops : s'.ops = update s.ops t o) (hstream : Change S s.stream t s'.stream)
  (hsame : s'.handshaken = s.handshaken) (hformed : o.formed) (hafter : o.after → s.handshaken)
  (hguarded : ∀ locks, o.locks = some locks → Guarded s'.stream t locks)

include hops hstream hsame hformed hafter hguarded

section

variable (hregistered : s'.stream.registered t ≠ none → ∃ x, o = .watching x)

include hregistered

/-- A task goes on outside the sections, or in `watch`, without touching `inner`. -/
theorem Placed.advance (hinner : s'.inner = s.inner) (hself : o.holdsInner = (s.ops t).holdsInner)
    (hsampled : ∀ w first, o = .wants w first → first ≤ s'.stream.watchers.nextId)
    (hshakes : o.shakes → s.handshaken = false) : Placed s' := by
  refine hp.updated hon hops hstream (fun u _ => by rw [hinner]) (fun h => hsame.trans h) (fun _ _ _ => hsame) hguarded
    hsampled hregistered ?_ (fun h => hsame.trans (hafter h)) (fun h => hsame.trans (hshakes h)) hformed
  rw [hself, hinner]
  exact hp.inner t

omit hformed in
/-- A task goes on to a place between the sections. -/
theorem Placed.toPlain (hplain : o.plain) (hout : (s.ops t).holdsInner = false) (hinner : s'.inner = s.inner) :
    Placed s' := by
  have ho := holdsInner_of_plain hplain
  refine hp.advance hon hops hstream hsame (formed_of_plain hplain) hafter hguarded hregistered hinner
    (ho.trans hout.symm) (fun w first h => absurd h (not_wants_of_plain hplain w first)) fun h => ?_
  rw [not_shakes_of_holdsInner ho] at h
  cases h

lemma Placed.enter (hfree : s.inner = none) (hinner : s'.inner = some t) (ho : o.holdsInner)
    (hwants : ∀ w first, o ≠ .wants w first) (hshakes : o.shakes → s.handshaken = false) : Placed s' := by
  refine hp.updated hon hops hstream (fun u hu => ?_) (fun h => hsame.trans h) (fun _ _ _ => hsame)
    hguarded (fun w first h => absurd h (hwants w first)) hregistered ?_
    (fun h => hsame.trans (hafter h)) (fun h => hsame.trans (hshakes h)) hformed
  · rw [hinner, hfree]
    exact ⟨fun h => absurd (Option.some.inj h).symm hu, nofun⟩
  · rw [ho, hinner]
    exact ⟨fun _ => rfl, fun _ => rfl⟩

lemma Placed.release (hold : (s.ops t).holdsInner) (hinner : s'.inner = none) (ho : o.holdsInner = false)
    (hwants : ∀ w first, o ≠ .wants w first) : Placed s' := by
  have hmine : s.inner = some t := (hp.inner t).mp hold
  refine hp.updated hon hops hstream (fun u hu => ?_) (fun h => hsame.trans h) (fun _ _ _ => hsame) hguarded
    (fun w first h => absurd h (hwants w first)) hregistered ?_ (fun h => hsame.trans (hafter h)) (fun h => ?_) hformed
  · rw [hinner, hmine]
    exact ⟨nofun, fun h => absurd (Option.some.inj h).symm hu⟩
  · rw [ho, hinner]
    exact ⟨nofun, nofun⟩
  · rw [not_shakes_of_holdsInner ho] at h
    cases h

end

lemma Placed.leave (hop : s.ops t = .inside x) (hreg : s'.stream.registered = s.stream.registered)
    (hinner : s'.inner = none) (ho : o.holdsInner = false) (hwants : ∀ w first, o ≠ .wants w first) : Placed s' :=
  hp.release hon hops hstream hsame hformed hafter hguarded
    (fun h => absurd (hp.not_registered (by simp [hop])) (hreg ▸ h)) (by rw [hop]; rfl) hinner ho hwants

end Ends

lemma Placed.goOn (hop : s.ops t = .inside x) (hops : s'.ops = update s.ops t (.inside x'))
    (hstream : Change S s.stream t s'.stream) (hreg : s'.stream.registered = s.stream.registered)
    (hheld : s'.stream.held t = s.stream.held t) (hwaking : s'.stream.waking t = s.stream.waking t)
    (hinner : s'.inner = s.inner) (hmono : s.handshaken → s'.handshaken) (hlocks : x'.locks = x.locks)
    (hafter : x'.after → s'.handshaken) (hshakes : x'.shakes → s'.handshaken = false)
    (hformed : x'.formed) : Placed s' := by
  have hmine : s.inner = some t := (hp.inner t).mp (by rw [hop]; rfl)
  refine hp.updated hon hops hstream (fun u _ => by rw [hinner]) hmono (fun u hu hs => ?_)
    (fun locks h => ?_) nofun (fun h => ?_) ?_ hafter hshakes hformed
  · -- nobody else is inside
    have huin : (s.ops u).holdsInner := by
      by_contra hout
      rw [not_shakes_of_holdsInner (Bool.eq_false_iff.mpr hout)] at hs
      cases hs
    exact absurd (hp.eq_of_holdsInner huin (by rw [hop]; rfl)) hu
  · cases h
    rw [hlocks]
    exact (hp.guarded t x.locks (by rw [hop]; rfl)).same hheld hwaking
  · exact absurd (hp.not_registered (by simp [hop])) (hreg ▸ h)
  · rw [hinner, hmine]
    exact ⟨fun _ => rfl, fun _ => rfl⟩

end

lemma Placed.not_handshaken (hp : Placed s) (hop : s.ops t = .inside x)
    (hnot : x.shakes ∨ s.handshaken = false) : s.handshaken = false := by
  rcases hnot with hx | hnot
  · exact hp.shaking t (by rw [hop]; exact hx)
  · exact hnot

section

variable (hp : Placed s) (hon : (s.stream.sock.on t).isSome)

include hp hon

lemma Placed.sectionStep (hop : s.ops t = .inside x) (hstep : SectionStep S s t x s') : Placed s' := by
  have hguarded := hp.guarded t x.locks (by rw [hop]; rfl)
  have hafter : x.after → s.handshaken := fun h => hp.after t (by rw [hop]; exact h)
  have hformed : x.formed := by
    have hold := hp.formed t
    rwa [hop] at hold
  have hstream := hstep.stream
  have hleave : ∀ {next : After} {s' : State}, s'.ops = update s.ops t (.leaving next) →
      Change S s.stream t s'.stream → s'.stream.registered = s.stream.registered → s'.inner = none →
      s'.handshaken = s.handshaken → (∀ g, next ≠ .proceed g) → Placed s' := by
    intro next s' hops hstream hreg hinner hsame hnext
    refine hp.leave hon hops hstream hsame rfl (fun h => ?_) nofun hop hreg hinner rfl nofun
    cases next with
    | proceed g => exact absurd rfl (hnext g)
    | _ => cases h
  cases hstep with
  | exit hexits =>
    refine hp.leave hon rfl hstream rfl hexits.formed (hexits.after hafter) (fun locks h => ?_) hop rfl rfl
      hexits.holdsInner ?_
    · rcases hexits.locks with hlocks | hlocks
      · cases hlocks.symm.trans h
        exact hguarded.same rfl rfl
      · cases hlocks.symm.trans h
    · rintro w first rfl
      cases hexits
  | emit hx hx' hnot _ | absorb hx hx' hnot _ =>
    refine hp.goOn hon hop rfl hstream rfl rfl rfl rfl id ?_ (fun h => ?_)
      (fun _ => hp.not_handshaken hop hnot) (formed_of_goesOn hx')
    · rw [locks_of_goesOn hx, locks_of_goesOn hx']
    · cases (after_of_goesOn hx').symm.trans h
  | wait hx _ =>
    exact hp.goOn hon hop rfl hstream rfl rfl rfl rfl id rfl hafter (fun _ => hp.not_handshaken hop (.inl hx)) hformed
  | finish next hx =>
    exact hp.goOn hon hop rfl hstream rfl rfl rfl rfl (fun _ => rfl) (locks_of_goesOn hx).symm (fun _ => rfl) nofun rfl
  | ended _ _ | blocked _ | blockedIdle _ | alerted _ | returned g rest _ | idle g | flushed _ | full _ _
  | fullEmpty _ _ | queued w _ => exact hleave rfl hstream rfl rfl rfl nofun
  | feed _ => exact hp.goOn hon hop rfl hstream rfl rfl rfl rfl id rfl hafter nofun rfl
  | fed hnext _ | eof hnext =>
    refine hleave rfl hstream rfl rfl rfl ?_
    rcases hnext with rfl | rfl <;> exact nofun
  | store g bytes =>
    refine hp.leave hon rfl hstream rfl rfl (fun _ => hafter rfl) (fun locks h => ?_) hop rfl rfl rfl nofun
    cases h
    exact hguarded.same rfl rfl
  | taken w _ =>
    refine hp.leave hon rfl hstream rfl hformed (fun _ => hafter rfl) (fun locks h => ?_) hop rfl rfl rfl nofun
    cases h
    exact hguarded.same rfl rfl

lemma Placed.move (hop : s.ops t = o) (hmoves : Moves S s o o') : Placed (s.setOp t o') := by
  subst hop
  refine hp.advance (S := S) hon rfl .same rfl hmoves.formed (fun h => hmoves.after (hp.after t) h) (fun locks h => ?_)
    (fun h => ?_) rfl hmoves.holdsInner (fun w first h => ?_) hmoves.shakes
  · rcases hmoves.locks with hlocks | hlocks
    · exact hp.guarded t locks (hlocks ▸ h)
    · cases hlocks.symm.trans h
  · obtain ⟨c, hc⟩ := hp.registered t h
    exact (hc ▸ hmoves).watching
  · exact (h ▸ hmoves).sampled

end

section

variable (hp : Placed s) (hon : (s.stream.sock.on t).isSome)

include hp hon

section Watch

variable (hlocks : (s.ops t).locks = some []) (hops : s'.ops = update s.ops t (.watching c))
  (hstream : Change S s.stream t s'.stream) (hheld : s'.stream.held t = s.stream.held t)
  (hwaking : s'.stream.waking t = s.stream.waking t) (hsame : s'.handshaken = s.handshaken)

include hlocks hops hstream hheld hwaking hsame

lemma Placed.watchOn (hinner : s'.inner = s.inner) (hself : (Op.watching c).holdsInner = (s.ops t).holdsInner) :
    Placed s' := by
  refine hp.advance hon hops hstream hsame rfl nofun (fun locks h => ?_) (fun _ => ⟨c, rfl⟩) hinner hself nofun nofun
  cases h
  exact (hp.guarded t [] hlocks).same hheld hwaking

lemma Placed.watchRelease (hold : (s.ops t).holdsInner) (hinner : s'.inner = none)
    (hself : (Op.watching c).holdsInner = false) : Placed s' := by
  refine hp.release hon hops hstream hsame rfl nofun (fun locks h => ?_) (fun _ => ⟨c, rfl⟩) hold hinner hself nofun
  cases h
  exact (hp.guarded t [] hlocks).same hheld hwaking

end Watch

lemma Placed.takeLock (hop : s.ops t = .wants w first)
    (hstream : Change S s.stream t (s.stream.lock w.lock t first)) :
    Placed ((s.setStream (s.stream.lock w.lock t first)).setOp t w.taken) := by
  have hold := hp.guarded t w.before (by rw [hop]; rfl)
  refine hp.toPlain hon rfl hstream rfl (fun h => hp.after t ?_) (fun locks h => ?_)
    (absurd (hp.not_registered (by simp [hop]))) (plain_taken w) (by rw [hop]; rfl) rfl
  · rw [hop]
    exact after_taken h
  · rcases locks_taken w with hlocks | hlocks
    · cases hlocks.symm.trans h
      refine ⟨hold.waking, ?_, fun g hg => ?_⟩
      · simp [hold.held]
      · rcases Streams.mem_update_held hg with ⟨-, hg'⟩ | ⟨hne, -⟩
        · rcases List.mem_cons.mp hg' with rfl | hg'
          · exact ⟨rfl, rfl⟩
          · exact hold.busy g hg'
        · exact absurd rfl hne
    · cases hlocks.symm.trans h

lemma Placed.taskStep (hstep : TaskStep S s t l s') : Placed s' := by
  have hstream := hstep.stream (hp.sampled t)
  have hnone : (∀ x, s.ops t ≠ .watching x) → s.stream.registered t = none := hp.not_registered
  have hsocket : ∀ {s' : State} {o : Op} {g : Goal}, s.ops t = .reading g →
      s'.ops = update s.ops t o → Change S s.stream t s'.stream →
      s'.stream.registered = s.stream.registered → s'.inner = s.inner →
      s'.handshaken = s.handshaken → o.holdsInner = false → (∀ w first, o ≠ .wants w first) →
      (∀ locks, o.locks = some locks → Guarded s'.stream t locks) → o.formed = true → Placed s' := by
    intro s' o g hop hops hstream hreg hinner hsame ho hwants hguarded hformed
    refine hp.advance hon hops hstream hsame hformed (fun _ => hp.after t (by rw [hop]; rfl)) hguarded (fun h => ?_)
      hinner ?_ (fun w first h => absurd h (hwants w first)) (fun h => ?_)
    · exact absurd (hnone (by simp [hop])) (hreg ▸ h)
    · rw [hop, ho]
      rfl
    · rw [not_shakes_of_holdsInner ho] at h
      cases h
  have hsending : ∀ {s' : State} {w : Want} {bytes rest : Bytes}, s.ops t = .sending w bytes →
      s'.ops = update s.ops t (.sending w rest) → Change S s.stream t s'.stream →
      s'.stream.registered = s.stream.registered → s'.stream.held t = s.stream.held t →
      s'.stream.waking t = s.stream.waking t → s'.inner = s.inner → s'.handshaken = s.handshaken →
      Placed s' := by
    intro s' w bytes rest hop hops hstream hreg hheld hwaking hinner hsame
    have hformed := hp.formed t
    rw [hop] at hformed
    refine hp.advance hon hops hstream hsame hformed (fun _ => hp.after t (by rw [hop]; rfl)) (fun locks h => ?_)
      (fun h => ?_) hinner (by rw [hop]; rfl) nofun nofun
    · cases h
      exact (hp.guarded t (w.lock :: w.before) (by rw [hop]; rfl)).same hheld hwaking
    · exact absurd (hnone (by simp [hop])) (hreg ▸ h)
  cases hstep with
  | move hop hmoves => exact hp.move hon hop hmoves
  | lock hop hfree => exact hp.takeLock hon hop hstream
  | @lockInner x hop hinner =>
    have hold := hp.guarded t x.locks (by rw [hop]; rfl)
    have hformed := hp.formed t
    rw [hop, Op.formed, Bool.and_eq_true_iff] at hformed
    refine hp.enter hon rfl hstream rfl hformed.2 (fun h => hp.after t (by rw [hop]; exact h)) (fun locks h => ?_)
      (fun h => ?_) hinner rfl rfl nofun (fun h => ?_)
    · cases h
      exact hold
    · exact absurd (hnone (by simp [hop])) h
    · simp [show x.shakes from h] at hformed
  | inside hop hstep => exact hp.sectionStep hon hop hstep
  | @readSome g i y hop hstep | @readBlocked g i y hop hstep =>
    refine hsocket hop rfl hstream rfl rfl rfl rfl nofun (fun locks h => ?_) rfl
    cases h
    exact (hp.guarded t [.read] (by rw [hop]; rfl)).same rfl rfl
  | readIdle hop hstep | interrupted hop hi => exact hsocket hop rfl hstream rfl rfl rfl rfl nofun nofun rfl
  | writeSome hop hstep | writeBlocked hop hstep => exact hsending hop rfl hstream rfl rfl rfl rfl rfl
  | writeFails hop =>
    refine hp.advance hon rfl hstream rfl rfl nofun nofun (fun h => ?_) rfl (by rw [hop]; rfl) nofun nofun
    exact absurd (hnone (by simp [hop])) h
  | @drop next y hop hdrop =>
    have hops : (s.setStream y).ops = update s.ops t (.leaving next) := by
      rw [← hop]
      exact (update_eq_self t s.ops).symm
    refine hp.advance hon hops hstream rfl rfl (fun h => hp.after t (by rw [hop]; exact h)) nofun (fun h => ?_) rfl
      (by rw [hop]) nofun nofun
    have hreg : y.registered t = s.stream.registered t := by cases hdrop <;> rfl
    exact absurd (hnone (by simp [hop])) (hreg ▸ h)
  | @dropped next hop hdone =>
    refine hp.toPlain hon rfl hstream rfl (fun h => hp.after t (by rw [hop]; exact after_op h)) (fun locks h => ?_)
      (absurd (hnone (by simp [hop]))) (plain_op next) (by rw [hop]; rfl) rfl
    cases (locks_op next).symm.trans h
    exact ⟨hdone.1, by simp [hdone.2], by simp [hdone.2]⟩
  | watch hop hcode | passed hop hinner | addIo hop hstep =>
    exact hp.watchOn hon (by rw [hop]; rfl) rfl hstream rfl rfl rfl rfl (by rw [hop]; rfl)
  | tryInner hop hinner =>
    refine hp.enter hon rfl hstream rfl rfl nofun (fun locks h => ?_) (fun _ => ⟨_, rfl⟩) hinner rfl rfl nofun nofun
    cases h
    exact (hp.guarded t [] (by rw [hop]; rfl)).same rfl rfl
  | notReady hop hstep | foundBusy hop hheld =>
    exact hp.watchRelease hon (by rw [hop]; rfl) rfl hstream rfl rfl rfl (by rw [hop]; rfl) rfl rfl
  | found hop hreg =>
    refine hp.release hon rfl hstream rfl rfl nofun (fun locks h => ?_) (fun h => ?_) (by rw [hop]; rfl) rfl rfl nofun
    · cases h
      exact (hp.guarded t [] (by rw [hop]; rfl)).same rfl rfl
    · simp at h
  | unwatch hop hreg =>
    refine hp.advance hon rfl hstream rfl rfl nofun (fun locks h => ?_) (fun h => ?_) rfl (by rw [hop]; rfl) nofun nofun
    · cases h
      exact (hp.guarded t [] (by rw [hop]; rfl)).same rfl rfl
    · simp at h

end

end RocNet.Tls
