import RocNet.Analysis.CopyEnds

/-!
# Clean ends of `copy_both`

Reading a Unix socket gives the end also after `abort`. `fail` ends side A first: if A is a Unix stream, or Noise over
one, the direction from A can pass this end on before B is aborted.
-/

namespace RocNet.Copy

open Transition

variable {c : Config} {s s' : State} {d x : Side} {f g : Fail} {kinds : Side → Kind} {linux : Bool}

/-! ## The order in which `fail` ends the streams -/

/-- B is being ended, or about to be. -/
def Late (s : State) : Prop := Running s (.load .b) ∨ ∃ stop, Running s (.finish .b stop)

/-- Nothing ends A cleanly any more: it was aborted, or its direction is through. -/
def Shut (s : State) : Prop := (s.streams .a).aborted = true ∨ s.endedInto .a = true

structure Ordered (s : State) : Prop where
  recorded : ∀ x, s.endedInto x = true → (s.dirs x.other).pc = .done
  joined : ∀ f, s.caller = .failing f → (s.dirs .a).pc = .done
  stops : Running s (.finish .a true) → s.endedInto .a = true
  first : Late s → Shut s
  second : (s.streams .b).aborted = true ∨ (s.streams .b).readShut = true → Shut s
  -- A is shut down for reading by its own direction, or after it.
  silent : (s.streams .a).readShut = true → (s.dirs .a).pc.past = true

lemma fail_aborted_of_aborted (haborted : (s.streams x).aborted) : ((fail s f).1.streams x).aborted := by
  rcases fail_streams s f x with heq | ⟨-, heq⟩ | ⟨-, heq⟩ <;> rw [heq]
  · exact haborted
  · exact haborted
  · rfl

lemma fail_readShut (hreadShut : ((fail s f).1.streams x).readShut) :
    (s.streams x).readShut ∨ f = .finish x true := by
  rcases fail_streams s f x with heq | ⟨hf, -⟩ | ⟨-, heq⟩
  · exact .inl (heq ▸ hreadShut)
  · exact .inr hf
  · rw [heq] at hreadShut
    exact .inl hreadShut

lemma fail_next_load (hnext : (fail s f).2 = some (.load .b)) : ∃ stop, f = .finish .a stop := by
  cases f with
  | lock e =>
    simp only [fail] at hnext
    split at hnext <;> simp at hnext
  | load y => simp [fail] at hnext
  | finish y stop =>
    cases y with
    | a => exact ⟨stop, rfl⟩
    | b => simp [fail] at hnext

lemma Ordered.recorded_keeps (h : Ordered s) (hkeeps : Keeps s s') (hx : s'.endedInto x) :
    (s'.dirs x.other).pc = .done := by
  rw [hkeeps.into] at hx
  exact hkeeps.done _ (h.recorded x hx)

lemma Ordered.joined_keeps (h : Ordered s) (hkeeps : Keeps s s') (hf : s'.caller = .failing f) :
    (s'.dirs .a).pc = .done := by
  apply hkeeps.done
  rcases hkeeps.caller f hf with ⟨g, hg⟩ | hdone
  · exact h.joined g hg
  · exact hdone

lemma Ordered.quiet (h : Ordered s) (hquiet : Quiet s s') : Ordered s' := by
  have hshut : Shut s → Shut s' := by
    rintro (haborted | hinto)
    · left
      rwa [(flags_eq (hquiet.flags .a)).2.1]
    · right
      rwa [hquiet.into]
  refine ⟨?_, ?_, ?_, ?_, ?_, ?_⟩
  · exact fun x hx => h.recorded_keeps hquiet.toKeeps hx
  · exact fun f hf => h.joined_keeps hquiet.toKeeps hf
  · intro hrunning
    rcases hquiet.running _ hrunning with hbefore | ⟨e, he⟩
    · rw [hquiet.into]
      exact h.stops hbefore
    · cases he
  · rintro (hrunning | ⟨stop, hrunning⟩)
    · rcases hquiet.running _ hrunning with hbefore | ⟨e, he⟩
      · exact hshut (h.first (.inl hbefore))
      · cases he
    · rcases hquiet.running _ hrunning with hbefore | ⟨e, he⟩
      · exact hshut (h.first (.inr ⟨stop, hbefore⟩))
      · cases he
  · intro hb
    rw [(flags_eq (hquiet.flags .b)).2.1, (flags_eq (hquiet.flags .b)).2.2] at hb
    exact hshut (h.second hb)
  · intro ha
    rw [(flags_eq (hquiet.flags .a)).2.2] at ha
    exact hquiet.past _ (h.silent ha)

/-- A direction goes on to its end by another step than those of `fail`. -/
theorem Ordered.ends (h : Ordered s) (hother : s'.dirs d.other = s.dirs d.other) (hcaller : s'.caller = s.caller)
    (hnotDone : (s.dirs d).pc.past = false) (hpc : ∀ f, (s'.dirs d).pc ≠ .failing f)
    (haborted : ∀ x, (s'.streams x).aborted = (s.streams x).aborted)
    (hreadShut : ∀ x, (s'.streams x).readShut = (s.streams x).readShut) (hinto : ∀ x, s.endedInto x → s'.endedInto x)
    (hrecorded : ∀ x, s'.endedInto x → s.endedInto x ∨ (s'.dirs x.other).pc = .done) : Ordered s' := by
  have hdone : ∀ e, (s.dirs e).pc = .done → (s'.dirs e).pc = .done := by
    intro e he
    rcases Side.eq_or_other d e with rfl | rfl
    · simp [he, Pc.past] at hnotDone
    · rwa [hother]
  have hrunning : ∀ f, Running s' f → Running s f := fun f h => running_of_dir h hother hcaller hpc
  have hshut : Shut s → Shut s' := by
    rintro (ha | ha)
    · left
      rwa [haborted]
    · right
      exact hinto _ ha
  refine ⟨?_, ?_, ?_, ?_, ?_, ?_⟩
  · intro x hx
    rcases hrecorded x hx with hbefore | hafter
    · exact hdone _ (h.recorded x hbefore)
    · exact hafter
  · intro f hf
    rw [hcaller] at hf
    exact hdone _ (h.joined f hf)
  · intro hstop
    exact hinto _ (h.stops (hrunning _ hstop))
  · rintro (hload | ⟨stop, hfinish⟩)
    · exact hshut (h.first (.inl (hrunning _ hload)))
    · exact hshut (h.first (.inr ⟨stop, hrunning _ hfinish⟩))
  · intro hb
    rw [haborted, hreadShut] at hb
    exact hshut (h.second hb)
  · intro ha
    rw [hreadShut] at ha
    have hover := h.silent ha
    rcases Side.eq_or_other d .a with heq | heq
    · rw [heq, hnotDone] at hover
      cases hover
    · rw [heq, hother, ← heq]
      exact hover

lemma Ordered.fails (h : Ordered s) (hfails : Fails s f s') : Ordered s' := by
  have hshut : Shut s → Shut s' := by
    rintro (haborted | hinto)
    · left
      rw [hfails.streams]
      exact fail_aborted_of_aborted haborted
    · right
      rwa [hfails.into]
  refine ⟨?_, ?_, ?_, ?_, ?_, ?_⟩
  · exact fun x hx => h.recorded_keeps hfails.toKeeps hx
  · exact fun f hf => h.joined_keeps hfails.toKeeps hf
  · intro hrunning
    rw [hfails.into]
    rcases hfails.running _ hrunning with hbefore | hnext
    · exact h.stops hbefore
    · exact (fail_next_finish hnext).2.symm
  · rintro (hrunning | ⟨stop, hrunning⟩)
    · rcases hfails.running _ hrunning with hbefore | hnext
      · exact hshut (h.first (.inl hbefore))
      · -- A was just ended
        obtain ⟨stop, rfl⟩ := fail_next_load hnext
        cases stop with
        | true => exact hshut (.inr (h.stops hfails.before))
        | false =>
          left
          rw [hfails.streams]
          simp [fail]
    · rcases hfails.running _ hrunning with hbefore | hnext
      · exact hshut (h.first (.inr ⟨stop, hbefore⟩))
      · obtain ⟨rfl, -⟩ := fail_next_finish hnext
        exact hshut (h.first (.inl hfails.before))
  · rw [hfails.streams]
    rintro (hb | hb)
    · rcases fail_aborted hb with hbefore | rfl
      · exact hshut (h.second (.inl hbefore))
      · exact hshut (h.first (.inr ⟨_, hfails.before⟩))
    · rcases fail_readShut hb with hbefore | rfl
      · exact hshut (h.second (.inr hbefore))
      · exact hshut (h.first (.inr ⟨_, hfails.before⟩))
  · rw [hfails.streams]
    intro ha
    apply hfails.past
    rcases fail_readShut ha with hbefore | rfl
    · exact h.silent hbefore
    · -- the direction into A is done, so that this is the one from A, or its task after it
      have hdone : (s.dirs .b).pc = .done := h.recorded .a (h.stops hfails.before)
      rcases hfails.before with hpc | hpc | hcaller
      · exact past_of_failing hpc
      · rw [hdone] at hpc
        cases hpc
      · rw [h.joined _ hcaller]
        rfl

lemma Ordered.step (h : Ordered s) (hcloses : Closes s s') : Ordered s' := by
  cases hcloses with
  | quiet hquiet => exact h.quiet hquiet
  | fails hfails => exact h.fails hfails
  | @shutdown d how hpc =>
    refine h.ends (d := d) (by simp) rfl (by simp [hpc, Pc.past]) (by simp) ?_ ?_ (fun _ => id) (fun _ => .inl)
    · intro x
      rcases Side.eq_or_other d x with rfl | rfl <;> simp
    · intro x
      rcases Side.eq_or_other d x with rfl | rfl <;> simp
  | @shutdownFails d how hpc =>
    exact h.ends (d := d) (by simp) rfl (by simp [hpc, Pc.past]) (by simp) (fun _ => rfl) (fun _ => rfl)
      (fun _ => id) (fun _ => .inl)
  | @mark d hpc =>
    refine h.ends (d := d) (by simp) rfl (by simp [hpc, Pc.past]) (by simp) (fun _ => rfl) (fun _ => rfl) ?_ ?_
    · intro x hx
      rcases Side.eq_or_other d x with rfl | rfl <;> simp [hx]
    · intro x hx
      rcases Side.eq_or_other d x with rfl | rfl
      · exact .inl (by simpa using hx)
      · exact .inr (by simp)

/-! ## What a direction takes for the end of its source -/

/-- There is no limit, and nothing comes before the stream. -/
def Dir.Unlimited (x : Dir) : Prop := x.endAt = none ∧ x.pc ≠ .leading

section

variable (h : Advance c s d s')

include h

lemma Advance.unlimited (hbefore : (s.dirs d).Unlimited) : (s'.dirs d).Unlimited := by
  obtain ⟨hend, hleading⟩ := hbefore
  cases h with
  | retry => exact ⟨hend, hleading⟩
  | leadFails hpc | leadDone hpc => exact absurd hpc hleading
  | goOn => rcases next_cases (s.dirs d) with hnext | hnext <;> simp [Dir.Unlimited, hend, hnext]
  | writeSome => simp [Dir.Unlimited, hend, hleading]
  | @fail f =>
    rcases after_fail_cases (Copy.fail s f).2 with hnext | ⟨g, hnext⟩ <;> simp [Dir.Unlimited, hend, hnext]
  | _ => simp [Dir.Unlimited, hend]

/-- A direction stops at a limit, or at what a read gives as the end. -/
theorem Advance.stopped (hpc : (s'.dirs d).pc = .stopped how) : (s.dirs d).limitReached ∨
      ((s.dirs d).pc = .reading ∧ ((s.streams d).atEnd ∨ (s.dirs d).room = 0) ∧ s'.streams = s.streams) := by
  cases h with
  | limit _ hlimit => exact .inl hlimit
  | readEof hreading hend => exact .inr ⟨hreading, hend, rfl⟩
  | retry hwrite | writeSome hwrite => rcases hwrite with hwrite | hwrite <;> simp [hwrite] at hpc
  | goOn => rcases next_cases (s.dirs d) with hnext | hnext <;> simp [hnext] at hpc
  | @fail f =>
    rcases after_fail_cases (Copy.fail s f).2 with hnext | ⟨g, hnext⟩ <;> simp [hnext] at hpc
  | _ => simp at hpc

lemma Advance.peers (x : Side) :
    (s'.streams x).kind = (s.streams x).kind ∧ (s'.streams x).peerEnded = (s.streams x).peerEnded := by
  cases h with
  | @fail f =>
    have hdata := fail_data s f x
    simp only [Stream.data, Prod.mk.injEq] at hdata
    exact ⟨hdata.1, hdata.2.2.2.1⟩
  | _ => rcases Side.eq_or_other d x with rfl | rfl <;> simp

lemma Advance.given (hleading : (s.dirs d).pc ≠ .leading)
    (hwriting : (s.dirs d).pc ≠ .writing) : (s'.streams d.other).given = (s.streams d.other).given := by
  cases h with
  | leadDone hpc => exact absurd hpc hleading
  | writeLast hpc => exact absurd hpc hwriting
  | writeSome hpc => exact absurd hpc (by simp [hleading, hwriting])
  | @fail f =>
    have hdata := fail_data s f d.other
    simp only [Stream.data, Prod.mk.injEq] at hdata
    exact hdata.2.2.2.2
  | _ => simp

lemma Advance.ended (hended : (s'.streams x).ended) : (s.streams x).ended ∨
      (x = d.other ∧ (s.streams x).aborted = false ∧ ∃ how, (s.dirs d).pc = .stopped how) := by
  cases h with
  | shutdown hpc =>
    rcases Side.eq_or_other d x with rfl | rfl
    · exact .inl (by simpa using hended)
    · have hcases : (s.streams d.other).ended ∨ (s.streams d.other).aborted = false := by
        simpa using hended
      exact hcases.imp_right fun haborted => ⟨rfl, haborted, _, hpc⟩
  | @fail f => exact .inl (fail_ended s f x ▸ hended)
  | _ =>
    left
    rcases Side.eq_or_other d x with rfl | rfl <;> simpa using hended

end

lemma Closes.aborted (h : Closes s s') (haborted : (s.streams x).aborted) : (s'.streams x).aborted := by
  cases h with
  | quiet hquiet => rwa [(flags_eq (hquiet.flags x)).2.1]
  | fails hfails =>
    rw [hfails.streams]
    exact fail_aborted_of_aborted haborted
  | @shutdown d => rcases Side.eq_or_other d x with rfl | rfl <;> simpa using haborted
  | shutdownFails | mark => exact haborted

/-- The peer has ended its side, and everything was read. -/
def Stream.drained (x : Stream) : Prop := x.peerEnded = true ∧ x.arrived = []

structure Told (s : State) : Prop where
  stopped : ∀ d how, (s.dirs d).pc = .stopped how → (s.streams d).drained ∨ (s.streams d.other).aborted = true
  whole : ∀ d, (s.streams d.other).ended = true →
    (s.streams d).peerEnded = true ∧ (s.streams d.other).given = (s.streams d).sent

/-- What holds in every session, whatever the streams. -/
structure Session (kinds : Side → Kind) (s : State) : Prop where
  flows : Flows (fun _ => []) s
  kind : ∀ x, (s.streams x).kind = kinds x
  unlimited : ∀ d, (s.dirs d).Unlimited
  equipped : ∀ d, (s.dirs d).Equipped
  marked : Marked s
  ordered : Ordered s

section

variable (h : Session kinds s) (hstep : Step c s s')

include h hstep

lemma Session.kind_step (x : Side) : (s'.streams x).kind = kinds x := by
  rw [← h.kind x]
  cases hstep with
  | dir hadv => exact (hadv.peers x).1
  | @caller f =>
    have hdata := fail_data s f x
    simp only [Stream.data, Prod.mk.injEq] at hdata
    exact hdata.1
  | @peerSends y | @peerEnds y => rcases Side.eq_or_other y x with rfl | rfl <;> simp
  | _ => rfl

lemma Session.unlimited_step (e : Side) : (s'.dirs e).Unlimited := by
  cases hstep with
  | @dir d _ hadv =>
    rcases Side.eq_or_other d e with rfl | rfl
    · exact hadv.unlimited (h.unlimited e)
    · rw [hadv.other]
      exact h.unlimited d.other
  | spawn =>
    have hend := (h.unlimited e).1
    cases e <;> simp [Dir.Unlimited, hend]
  | caller => simpa using h.unlimited e
  | _ => exact h.unlimited e

lemma Session.equipped_step (e : Side) : (s'.dirs e).Equipped := by
  cases hstep with
  | @dir d _ hadv =>
    rcases Side.eq_or_other d e with rfl | rfl
    · exact hadv.equipped (h.equipped e)
    · rw [hadv.other]
      exact h.equipped d.other
  | spawn => cases e <;> simp [Dir.Equipped]
  | caller => simpa using h.equipped e
  | _ => exact h.equipped e

lemma Session.step : Session kinds s' := by
  have hcloses := hstep.closes h.flows.started
  exact ⟨h.flows.step hstep, h.kind_step hstep, h.unlimited_step hstep, h.equipped_step hstep,
    h.marked.step hcloses, h.ordered.step hcloses⟩

end

/-- Where A is not shut down by `abort`, what a read gives as the end is the end, or the target was
aborted. -/
theorem Session.atEnd (h : Session kinds s) (hkind : (kinds .a).unixWire = false) (hpc : (s.dirs d).pc = .reading)
    (hend : (s.streams d).atEnd) : (s.streams d).drained ∨ (s.streams d.other).aborted := by
  have hshut : Shut s → d = .b → (s.streams d.other).aborted := by
    rintro (haborted | hinto) rfl
    · exact haborted
    · have hdone : (s.dirs .b).pc = .done := h.ordered.recorded .a hinto
      rw [hpc] at hdone
      cases hdone
  rcases hend with ⟨hpeer, harrived, -⟩ | hreadShut | ⟨haborted, hunix⟩
  · exact .inl ⟨hpeer, harrived⟩
  · right
    cases d with
    | a =>
      have hover := h.ordered.silent hreadShut
      simp [hpc, Pc.past] at hover
    | b => exact hshut (h.ordered.second (.inr hreadShut)) rfl
  · right
    cases d with
    | a =>
      rw [h.kind, hkind] at hunix
      cases hunix
    | b => exact hshut (h.ordered.second (.inl haborted)) rfl

lemma Told.stopped_advance (h : Told s) (hsession : Session kinds s) (hkind : (kinds .a).unixWire = false)
    (hadv : Advance c s d s') (hpc : (s'.dirs e).pc = .stopped how) :
    (s'.streams e).drained ∨ (s'.streams e.other).aborted := by
  rcases Side.eq_or_other d e with rfl | rfl
  · rcases hadv.stopped hpc with hlimit | ⟨hreading, hend, hstreams⟩
    · obtain ⟨n, hn, -⟩ := limitReached_iff.mp hlimit
      rw [(hsession.unlimited e).1] at hn
      cases hn
    · rw [hstreams]
      have hroom := room_pos (hsession.unlimited e).1 hreading (hsession.equipped e)
      exact hsession.atEnd hkind hreading (hend.resolve_right (by omega))
  · rw [hadv.other] at hpc
    obtain ⟨-, -, harrived, -⟩ := hadv.frame
    rcases h.stopped _ how hpc with ⟨hpeer, hempty⟩ | haborted
    · left
      exact ⟨(hadv.peers _).2.trans hpeer, harrived.trans hempty⟩
    · right
      exact hadv.closes.aborted haborted

lemma Session.passed (h : Session kinds s) (hpc : (s.dirs d).pc = .stopped how) (hdrained : (s.streams d).drained) :
    (s.streams d.other).given = (s.streams d).sent := by
  have hbytes := (h.flows.flow d).bytes
  have hholds := (h.flows.flow d).holds
  rw [hpc] at hholds
  have hempty : (s.dirs d).hand = [] := hholds
  simpa [hempty, hdrained.2] using hbytes

lemma Session.silent_of_ended (h : Session kinds s) (hended : (s.streams d.other).ended) :
    (s.dirs d).pc = .marking ∨ (s.dirs d).pc = .done := by
  have hmarked := h.marked d.other hended
  rw [Side.other_other] at hmarked
  apply hmarked.imp_right
  intro hinto
  simpa using h.ordered.recorded d.other hinto

lemma Told.whole_advance (h : Told s) (hsession : Session kinds s) (hadv : Advance c s d s')
    (hended : (s'.streams e.other).ended) :
    (s'.streams e).peerEnded ∧ (s'.streams e.other).given = (s'.streams e).sent := by
  obtain ⟨hgiven, hsent, -, hsent'⟩ := hadv.frame
  rw [(hadv.peers e).2]
  rcases hadv.ended hended with hbefore | ⟨heq, haborted, how, hpc⟩
  · obtain ⟨hpeer, hwhole⟩ := h.whole e hbefore
    refine ⟨hpeer, ?_⟩
    rcases Side.eq_or_other d e with rfl | rfl
    · have hpc := hsession.silent_of_ended hbefore
      have hsame := hadv.given (by rcases hpc with hpc | hpc <;> simp [hpc])
        (by rcases hpc with hpc | hpc <;> simp [hpc])
      rw [hsame, hsent, hwhole]
    · rw [Side.other_other] at hwhole ⊢
      rw [hgiven, hsent', hwhole]
  · obtain rfl : e = d := by simpa using congrArg Side.other heq
    have hdrained : (s.streams e).drained := by
      apply (h.stopped e how hpc).resolve_right
      simp [haborted]
    refine ⟨hdrained.1, ?_⟩
    have hsame := hadv.given (by simp [hpc]) (by simp [hpc])
    rw [hsame, hsent, hsession.passed hpc hdrained]

/-- The streams keep their bytes, and are neither stopped nor ended. -/
theorem Told.still (h : Told s) (hdata : ∀ x, (s'.streams x).data = (s.streams x).data)
    (hended : ∀ x, (s'.streams x).ended = (s.streams x).ended)
    (haborted : ∀ x, (s.streams x).aborted → (s'.streams x).aborted)
    (hpc : ∀ d how, (s'.dirs d).pc = .stopped how → (s.dirs d).pc = .stopped how) : Told s' := by
  have hsame : ∀ x, (s'.streams x).sent = (s.streams x).sent ∧ (s'.streams x).arrived = (s.streams x).arrived ∧
      (s'.streams x).peerEnded = (s.streams x).peerEnded ∧ (s'.streams x).given = (s.streams x).given := by
    intro x
    have hx := hdata x
    simp only [Stream.data, Prod.mk.injEq] at hx
    exact hx.2
  refine ⟨?_, ?_⟩
  · intro d how hstopped
    obtain ⟨-, harrived, hpeer, -⟩ := hsame d
    rw [Stream.drained, harrived, hpeer]
    exact (h.stopped d how (hpc d how hstopped)).imp_right (haborted _)
  · intro d hd
    rw [hended] at hd
    obtain ⟨hsent, -, hpeer, -⟩ := hsame d
    rw [hsent, hpeer, (hsame d.other).2.2.2]
    exact h.whole d hd

lemma Told.step (h : Told s) (hsession : Session kinds s) (hkind : (kinds .a).unixWire = false)
    (hstep : Step c s s') : Told s' := by
  cases hstep with
  | dir hadv =>
    exact ⟨fun e how hpc => h.stopped_advance hsession hkind hadv hpc,
      fun e hended => h.whole_advance hsession hadv hended⟩
  | spawn =>
    refine h.still (fun _ => rfl) (fun _ => rfl) (fun _ => id) ?_
    intro d how hpc
    cases d <;> simp at hpc
  | spawnFails | cancel | finish =>
    exact h.still (fun _ => rfl) (fun _ => rfl) (fun _ => id) (fun _ _ => id)
  | @caller f =>
    refine h.still (fail_data s f) (fail_ended s f) (fun _ => fail_aborted_of_aborted) ?_
    simp
  | @peerSends x bytes hopen =>
    refine ⟨?_, ?_⟩
    · intro d how hpc
      have hbefore := h.stopped d how hpc
      rcases Side.eq_or_other x d with rfl | rfl
      · right
        have haborted := hbefore.resolve_left fun hdrained => by simp [hdrained.1] at hopen
        simpa using haborted
      · simpa using hbefore
    · intro d hended
      rcases Side.eq_or_other x d with rfl | rfl
      · have hpeer := (h.whole d (by simpa using hended)).1
        rw [hopen] at hpeer
        cases hpeer
      · simpa using h.whole x.other (by simpa using hended)
  | @peerEnds x =>
    refine ⟨?_, ?_⟩
    · intro d how hpc
      have hbefore := h.stopped d how hpc
      rcases Side.eq_or_other x d with rfl | rfl
      · apply hbefore.imp
        · intro hdrained
          exact ⟨by simp, by simpa using hdrained.2⟩
        · simp
      · simpa using hbefore
    · intro d hended
      rcases Side.eq_or_other x d with rfl | rfl
      · simpa using (h.whole d (by simpa using hended)).2
      · simpa using h.whole x.other (by simpa using hended)

/-! ## Clean ends are complete -/

lemma session_init (hinit : (copyBoth kinds linux).init s) : Session kinds s := by
  obtain ⟨n, rfl⟩ := hinit
  refine ⟨⟨fun _ _ => rfl, ?_, ?_⟩, fun _ => rfl, ?_, ?_, ?_, ?_⟩
  · intro hand hmem
    exact List.eq_of_mem_replicate hmem
  · intro d
    exact ⟨rfl, rfl⟩
  · intro d
    simp [Dir.Unlimited, State.new, Dir.new]
  · intro d
    simp [Dir.Equipped, State.new, Dir.new]
  · simp [Marked, State.new, Stream.new]
  · constructor <;> simp [Late, Running, State.new, Stream.new, Dir.new]

lemma told_of_reachable (hkind : (kinds .a).unixWire = false)
    (hreach : Reachable (copyBoth kinds linux) s) : Session kinds s ∧ Told s := by
  refine Reachable.invariant (I := fun s => Session kinds s ∧ Told s) ?_ ?_ hreach
  · intro s hinit
    refine ⟨session_init hinit, ?_⟩
    obtain ⟨n, rfl⟩ := hinit
    constructor <;> simp [State.new, Stream.new, Dir.new]
  · rintro a l b ⟨hsession, htold⟩ hstep
    exact ⟨hsession.step (step_cases hstep), htold.step hsession hkind (step_cases hstep)⟩

/-- The streams whose clean end tells the peer that it has received everything: FIN and `close_notify`. -/
def Kind.hasEnd : Kind → Bool
  | .tcp | .tls => true
  | _ => false

lemma Kind.eq_of_hasEnd {k : Kind} (h : k.hasEnd) : k = .tcp ∨ k = .tls := by
  cases k <;> simp_all [Kind.hasEnd]

lemma Kind.eq_of_unixWire {k : Kind} (h : k.unixWire) : k = .unix ∨ k = .noise true := by
  unfold Kind.unixWire at h
  split at h <;> simp_all

lemma Kind.unixWire_of_hasEnd {k : Kind} (h : k.hasEnd) : k.unixWire = false := by
  rcases Kind.eq_of_hasEnd h with rfl | rfl <;> rfl

/-- What the clean end of a TCP or TLS stream says is so: the source's peer has ended its side, and all it
sent was passed on. A direction into such a stream takes nothing else for the end of its source, unless the
stream was aborted. -/
def CleanEnds (kinds : Side → Kind) (s : State) : Prop :=
  ∀ d, (kinds d.other).hasEnd = true → ((s.streams d.other).ended = true →
      (s.streams d).peerEnded = true ∧ (s.streams d.other).given = (s.streams d).sent) ∧
    ∀ how, (s.dirs d).pc = .stopped how → (s.streams d).drained ∨ (s.streams d.other).aborted = true

/-- `fail` has shut A down, and has yet to abort B; the direction from A reads the end, and ends B. -/
def endsTruncated : List Label :=
  .spawn true :: (waitFailure .b).take 8 ++ readsEnd .a ++ [.dir .a .ok]

/-- B is ended cleanly though A's peer has not ended its side. -/
theorem truncated_end (linux : Bool) (hunix : (kinds .a).unixWire) (hend : (kinds .b).hasEnd) :
    ∃ s, Reachable (copyBoth kinds linux) s ∧ (s.streams .b).ended ∧ (s.streams .a).peerEnded = false := by
  have hkinds : kinds = fun x => if x = .a then kinds .a else kinds .b := by
    funext x
    cases x <;> rfl
  rw [hkinds]
  generalize kinds .a = k at *
  generalize kinds .b = m at *
  obtain ⟨s, hreach, hs⟩ := exists_reachable_of_run
    (copyBoth (fun x => if x = .a then k else m) linux) ⟨0, rfl⟩ endsTruncated
    (fun s => decide ((s.streams .b).ended = true ∧ (s.streams .a).peerEnded = false)) (by
        rcases Kind.eq_of_unixWire hunix with rfl | rfl <;> rcases Kind.eq_of_hasEnd hend with rfl | rfl <;>
          cases linux <;> decide)
  exact ⟨s, hreach, of_decide_eq_true hs⟩

/-- A Unix stream and a TCP stream, with `splice`. -/
theorem unix_failure_ends_tcp :
    ∃ s, Reachable (copyBoth (fun x => if x = .a then .unix else .tcp) true) s ∧ (s.streams .b).ended = true ∧
      (s.streams .a).peerEnded = false :=
  truncated_end true rfl rfl

/-- **Truncated data.** `copy_both` ends TCP and TLS streams cleanly only where this is the truth, exactly if
not both A is a Unix stream, or Noise over one, and B is a TCP or TLS stream. -/
theorem clean_ends_iff : (∀ s, Reachable (copyBoth kinds linux) s → CleanEnds kinds s) ↔
      ¬ ((kinds .a).unixWire = true ∧ (kinds .b).hasEnd = true) := by
  constructor
  · rintro hall ⟨hunix, hend⟩
    obtain ⟨s, hreach, hended, hpeer⟩ := truncated_end linux hunix hend
    have htold := ((hall s hreach .a hend).1 hended).1
    rw [hpeer] at htold
    cases htold
  · intro hnot s hreach d hend
    have hkind : (kinds .a).unixWire = false := by
      cases d with
      | a =>
        rw [← Bool.not_eq_true]
        intro hunix
        exact hnot ⟨hunix, hend⟩
      | b => exact Kind.unixWire_of_hasEnd hend
    obtain ⟨-, htold⟩ := told_of_reachable hkind hreach
    exact ⟨htold.whole d, htold.stopped d⟩

end RocNet.Copy
