import RocNet.Analysis.CopyTo
import RocNet.Analysis.CopyTruncation

/-!
# Sessions of `copy_both`

A session that returns without an error has passed on everything, and its totals say how much that was: until an error
is recorded no stream is aborted or shut down for reading, so a direction stops only at the end of its source.
-/

namespace RocNet.Copy

open Function List State Transition

variable {c : Config} {s s' : State} {d e x : Side} {f : Fail} {kinds : Side → Kind} {linux : Bool}

/-! ## Sessions without an error -/

/-- A direction that is at its end. -/
def Pc.ends : Pc → Bool
  | .stopped _ | .marking | .done => true
  | _ => false

/-- Everything was passed on, and counted. -/
def Passed (s : State) (d : Side) : Prop := (s.streams d).drained ∧
  (s.streams d.other).given = (s.streams d).sent ∧ (s.dirs d).total = UInt64.ofNat (s.streams d).sent.length

/-- What holds until an error is recorded. -/
structure Clean (s : State) : Prop where
  flags : ∀ x, (s.streams x).aborted = false ∧ (s.streams x).readShut = false
  locks : ∀ f, Running s f → ∃ e, f = .lock e
  passed : ∀ d, (s.dirs d).pc.ends = true → Passed s d

lemma fail_firstErr (h : ∃ e, f = .lock e) : (fail s f).1.firstErr ≠ none := by
  obtain ⟨e, rfl⟩ := h
  simp only [fail]
  split
  · simp
  · assumption

lemma Passed.congr (h : Passed s d) (hdata : ∀ x, (s'.streams x).data = (s.streams x).data)
    (htotal : (s'.dirs d).total = (s.dirs d).total) : Passed s' d := by
  have hfrom := hdata d
  have hto := hdata d.other
  simp only [Stream.data, Prod.mk.injEq] at hfrom hto
  unfold Passed Stream.drained
  rw [hfrom.2.1, hfrom.2.2.1, hfrom.2.2.2.1, hto.2.2.2.2, htotal]
  exact h

/-- A direction stops where its source has ended, with nothing in hand. -/
theorem Clean.stopped (h : Clean s) (hsession : Session kinds s) (htotal : Totalled s d)
    (hpc : (s.dirs d).pc = .reading) (hend : (s.streams d).atEnd ∨ (s.dirs d).room = 0) : Passed s d := by
  have hroom := room_pos (hsession.unlimited d).1 hpc (hsession.equipped d)
  have hatEnd := hend.resolve_right (by omega)
  simp only [Stream.atEnd, h.flags d, Bool.false_eq_true, false_and, or_false] at hatEnd
  obtain ⟨n, hn, htotals⟩ := htotal
  have hflow := hsession.flows.flow d
  have hholds := hflow.holds
  rw [hpc] at hholds htotals
  have hempty : (s.dirs d).hand = [] := hholds
  have hbytes := hflow.bytes
  simp only [hempty, hatEnd.2.1, append_nil, nil_append] at hbytes
  obtain rfl : n = (s.streams d.other).given.length := htotals
  exact ⟨⟨hatEnd.1, hatEnd.2.1⟩, hbytes, by rw [hn, hbytes]⟩

lemma Clean.passed_advance (h : Clean s) (hsession : Session kinds s) (htotal : Totalled s d)
    (hadv : Advance c s d s') (hnone : s'.firstErr = none) (hends : (s'.dirs e).pc.ends) : Passed s' e := by
  rcases Side.eq_or_other d e with rfl | rfl
  · cases hadv with
    | limit _ hlimit =>
      obtain ⟨n, hn, -⟩ := limitReached_iff.mp hlimit
      rw [(hsession.unlimited e).1] at hn
      cases hn
    | readEof hpc hend => exact (h.stopped hsession htotal hpc hend).congr (fun _ => rfl) (by simp)
    | shutdown hpc =>
      exact (h.passed e (by simp [hpc, Pc.ends])).congr (data_setStream (shutdown_data _)) (by simp)
    | shutdownFails hpc | mark hpc => exact (h.passed e (by simp [hpc, Pc.ends])).congr (fun _ => rfl) (by simp)
    | fail hpc => exact absurd hnone (fail_firstErr (h.locks _ ((running_iff e).mpr (.inl hpc))))
    | retry hpc | writeSome hpc => rcases hpc with hpc | hpc <;> simp [hpc, Pc.ends] at hends
    | goOn => rcases next_cases (s.dirs e) with hnext | hnext <;> simp [hnext, Pc.ends] at hends
    | _ => simp [Pc.ends] at hends
  · rw [hadv.other] at hends
    obtain ⟨hdrained, hpassed, htotals⟩ := h.passed _ hends
    obtain ⟨hgiven, -, harrived, hsent⟩ := hadv.frame
    unfold Passed Stream.drained
    rw [hadv.other, harrived, hsent, (hadv.peers _).2]
    rw [Side.other_other] at hpassed ⊢
    exact ⟨hdrained, hgiven.trans hpassed, htotals⟩

lemma Clean.advance (h : Clean s) (hsession : Session kinds s) (htotal : Totalled s d) (hadv : Advance c s d s')
    (hnone : s'.firstErr = none) : Clean s' := by
  refine ⟨fun x => ?_, fun f hf => ?_, fun e => h.passed_advance hsession htotal hadv hnone⟩
  · cases hadv with
    | fail hpc => exact absurd hnone (fail_firstErr (h.locks _ ((running_iff d).mpr (.inl hpc))))
    | _ => rcases Side.eq_or_other d x with rfl | rfl <;> simpa using h.flags _
  · rw [running_iff d, hadv.other, hadv.caller] at hf
    rcases hf with hpc' | hrest
    · cases hadv with
      | @breaks e =>
        replace hpc' : Fail.lock e = f := by simpa using hpc'
        exact ⟨e, hpc'.symm⟩
      | fail hpc => exact absurd hnone (fail_firstErr (h.locks _ ((running_iff d).mpr (.inl hpc))))
      | retry hpc | writeSome hpc => rcases hpc with hpc | hpc <;> simp [hpc] at hpc'
      | goOn => rcases next_cases (s.dirs d) with hnext | hnext <;> simp [hnext] at hpc'
      | _ => simp at hpc'
    · exact h.locks f ((running_iff d).mpr (.inr hrest))

lemma Step.firstErr (h : Step c s s') (hnone : s'.firstErr = none) : s.firstErr = none := by
  have hfail : ∀ f, (fail s f).1.firstErr = none → s.firstErr = none := by
    intro f hf
    cases f with
    | lock e => exact absurd hf (fail_firstErr ⟨e, rfl⟩)
    | load x | finish x stop => exact hf
  cases h with
  | dir hadv =>
    cases hadv with
    | fail => exact hfail _ hnone
    | _ => exact hnone
  | caller => exact hfail _ hnone
  | spawnFails => cases hnone
  | _ => exact hnone

lemma Clean.step (h : Clean s) (hsession : Session kinds s) (htotal : ∀ d, Totalled s d) (hstep : Step c s s')
    (hnone : s'.firstErr = none) : Clean s' := by
  cases hstep with
  | dir hadv => exact h.advance hsession (htotal _) hadv hnone
  | spawn hcaller =>
    refine ⟨h.flags, ?_, fun d => ?_⟩
    · simp [Running]
    · cases d <;> simp [Pc.ends]
  | spawnFails => cases hnone
  | cancel =>
    refine ⟨h.flags, fun f hf => ?_, h.passed⟩
    rcases hf with hpc | hpc | hcaller
    · exact h.locks f (.inl hpc)
    · exact h.locks f (.inr (.inl hpc))
    · exact ⟨_, (Caller.failing.inj hcaller).symm⟩
  | caller hcaller => exact absurd hnone (fail_firstErr (h.locks _ (.inr (.inr hcaller))))
  | finish => exact ⟨h.flags, fun f hf => h.locks f (hf.imp_right fun hf => .inl (by simpa using hf)), h.passed⟩
  | @peerSends x bytes hopen =>
    refine ⟨fun y => ?_, h.locks, fun d hends => ?_⟩
    · rcases Side.eq_or_other x y with rfl | rfl <;> simpa using h.flags _
    · have hpassed := h.passed d hends
      rcases Side.eq_or_other x d with rfl | rfl
      · rw [hpassed.1.1] at hopen
        cases hopen
      · simpa [Passed, Stream.drained] using hpassed
  | @peerEnds x =>
    refine ⟨fun y => ?_, h.locks, fun d hends => ?_⟩
    · rcases Side.eq_or_other x y with rfl | rfl <;> simpa using h.flags _
    · have hpassed := h.passed d hends
      rcases Side.eq_or_other x d with rfl | rfl
      · simpa [Passed, Stream.drained] using ⟨hpassed.1.2, hpassed.2⟩
      · simpa [Passed, Stream.drained] using hpassed

lemma totalled_step (h : ∀ d, Totalled s d) (hsession : Session kinds s) (hstep : Step c s s') (e : Side) :
    Totalled s' e := by
  cases hstep with
  | @dir d _ hadv =>
    rcases Side.eq_or_other d e with rfl | rfl
    · have hlead := (hsession.unlimited e).2
      exact (h e).advance (hsession.flows.flow e) (fun hpc => absurd hpc hlead) hadv
    · have hframe := hadv.frame.1
      refine (h _).still (by rw [hadv.other]) (by rwa [Side.other_other]) ?_
      rw [hadv.other]
      exact fun _ _ => id
  | spawn hcaller =>
    refine (h e).still ?_ rfl ?_
    · cases e <;> simp
    · rw [hsession.flows.started hcaller e]
      cases e <;> simp [Pc.Totals]
  | @caller f =>
    have hdata := fail_data s f e.other
    simp only [Stream.data, Prod.mk.injEq] at hdata
    exact (h e).still (by simp) hdata.2.2.2.2 (by simp)
  | @peerSends x | @peerEnds x =>
    refine (h e).still rfl ?_ fun _ _ => id
    rcases Side.eq_or_other x e.other with hx | hx <;> simp [hx]
  | _ => exact h e

/-- **Sessions of `copy_both`.** At every moment of a session of any two streams, whatever fails, what was given to
one side, what is in hand and what was not read yet are, in this order, what the other's peer sent. If `copy_both`
returns without an error, each peer has ended its side, the other has been given all that it sent, and the totals
count these bytes. -/
theorem copy_both_exact (hreach : Reachable (copyBoth kinds linux) s) :
    (∀ d, (s.streams d.other).given ++ (s.dirs d).hand ++ (s.streams d).arrived = (s.streams d).sent) ∧
    ∀ s', (copyBoth kinds linux).step s .finish = some s' → s'.firstErr = none → ∀ d,
      (s'.streams d).peerEnded = true ∧ (s'.streams d.other).given = (s'.streams d).sent ∧
        (s'.dirs d).total = UInt64.ofNat (s'.streams d).sent.length := by
  have hinv : Session kinds s ∧ (∀ d, Totalled s d) ∧ (s.firstErr = none → Clean s) := by
    refine Reachable.invariant (I := fun s => Session kinds s ∧ (∀ d, Totalled s d) ∧
      (s.firstErr = none → Clean s)) ?_ ?_ hreach
    · intro s hinit
      refine ⟨session_init hinit, ?_⟩
      obtain ⟨n, rfl⟩ := hinit
      refine ⟨fun d => ⟨0, rfl, rfl⟩, fun _ => ⟨fun x => ⟨rfl, rfl⟩, ?_, ?_⟩⟩
      · simp [Running, State.new, Dir.new]
      · simp [State.new, Dir.new, Pc.ends]
    · rintro a l b ⟨hsession, htotal, hclean⟩ hstep
      have hcases := step_cases hstep
      exact ⟨hsession.step hcases, totalled_step htotal hsession hcases,
        fun hnone => (hclean (hcases.firstErr hnone)).step hsession htotal hcases hnone⟩
  obtain ⟨hsession, -, hclean⟩ := hinv
  refine ⟨fun d => (hsession.flows.flow d).bytes, fun s' hstep hnone d => ?_⟩
  obtain ⟨⟨-, ha, hb⟩, rfl⟩ := of_guard hstep
  obtain ⟨⟨hended, -⟩, hgiven, htotal⟩ := (hclean hnone).passed d (by cases d <;> simp [ha, hb, Pc.ends])
  exact ⟨hended, hgiven, htotal⟩

/-- A byte is passed on and counted, and both peers end. -/
theorem copy_both_exact_tcp :
    ∃ s s', Reachable tcpPair s ∧ tcpPair.step s .finish = some s' ∧ (s'.streams .a).sent = [1] ∧
      (s'.streams .b).given = [1] ∧ (s'.dirs .a).total = 1 := by
  obtain ⟨s, hreach, hs⟩ := exists_reachable_of_run tcpPair tcpPair_init
    ([.spawn true, .peerSends .a [1], .peerEnds .a, .peerEnds .b] ++ replicate 5 (.dir .a .ok) ++ [.dir .a (.bytes 1),
    .dir .a .ok, .dir .a (.bytes 1)] ++ replicate 3 (.dir .a .ok) ++
    [.dir .a .eof, .dir .a .ok, .dir .a .ok] ++ readsEnd .b ++ [.dir .b .ok, .dir .b .ok])
    (fun s => decide (((s.streams .a).sent = [1] ∧ s.firstErr = none) ∧ (tcpPair.step s .finish).isSome)) (by decide)
  obtain ⟨⟨hsent, hnone⟩, hfinish⟩ := of_decide_eq_true hs
  obtain ⟨s', hstep⟩ := Option.isSome_iff_exists.mp hfinish
  obtain ⟨-, rfl⟩ := of_guard hstep
  obtain ⟨-, hgiven, htotal⟩ := (copy_both_exact hreach).2 _ hstep hnone .a
  exact ⟨s, _, hreach, hstep, hsent, hgiven.trans hsent, by simpa [hsent] using htotal⟩

end RocNet.Copy
