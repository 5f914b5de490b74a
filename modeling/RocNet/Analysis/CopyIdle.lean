import RocNet.Model.CopySteps

/-!
# When a session counts as idle

A direction whose wait times out gives up if `progress` is what it was when the wait began and `writing` is zero. The
other lowers `writing` before it raises `progress`, so a write that ends just then can go unseen.
-/

namespace RocNet.Copy

open Transition

variable {c : Config} {s s' : State} {d x : Side} {l : Label} {f : Fail}

/-! ## Counted writes -/

def Pc.raised : Pc → Bool
  | .writing | .lowering _ => true
  | _ => false

/-- In a write that is not counted as progress yet. -/
def Pc.inWrite : Pc → Bool
  | .writing | .lowering _ | .counting _ => true
  | _ => false

def Pc.isCounting : Pc → Bool
  | .counting _ => true
  | _ => false

/-- What a step of a direction does to the counters. -/
inductive Beat (s : State) (d : Side) (s' : State) : Prop
  | quiet (hprogress : s'.progress = s.progress) (hwriting : s'.writing = s.writing) (hstirred : s'.stirred = s.stirred)
      (hraised : (s'.dirs d).pc.raised = (s.dirs d).pc.raised) (hinWrite : (s'.dirs d).pc.inWrite =
      (s.dirs d).pc.inWrite) (hwaiting : ∀ seen, (s'.dirs d).pc = .waiting seen → (s.dirs d).pc = .waiting seen)
      (hexpired : ∀ seen, (s'.dirs d).pc = .expired seen → (s.dirs d).pc = .waiting seen ∨ (s.dirs d).pc = .expired
      seen) (hunmoved : (s'.dirs d).pc = .unmoved → (s.dirs d).pc = .unmoved ∨ (s.dirs d).pc = .expired s.progress)
  | sample (hpc : (s.dirs d).pc = .sample) (heq : s' = s.sample d)
  | raise (hpc : (s.dirs d).pc = .raising) (heq : s' = s.raise d)
  | lower (e : Option IoErr) (hpc : (s.dirs d).pc = .lowering e) (heq : s' = s.lower d e)
  | count (e : Option IoErr) (x : Dir) (hpc : (s.dirs d).pc = .counting e) (heq : s' = s.count d x)
      (hafter : x.pc = .top ∨ ∃ e, x.pc = .broken e)

/-- A step from one place outside of waits and writes to another. -/
theorem Beat.plain (pc : Pc) (hprogress : s'.progress = s.progress) (hwriting : s'.writing = s.writing)
    (hstirred : s'.stirred = s.stirred) (hafter : (s'.dirs d).pc = pc) (hraised : pc.raised = (s.dirs d).pc.raised)
    (hinWrite : pc.inWrite = (s.dirs d).pc.inWrite) (hwaiting : ∀ seen, pc ≠ .waiting seen)
    (hexpired : ∀ seen, pc ≠ .expired seen) (hunmoved : pc ≠ .unmoved) : Beat s d s' := by
  refine .quiet hprogress hwriting hstirred ?_ ?_ ?_ ?_ ?_
  · rw [hafter, hraised]
  · rw [hafter, hinWrite]
  · intro seen h
    exact absurd (hafter.symm.trans h) (hwaiting seen)
  · intro seen h
    exact absurd (hafter.symm.trans h) (hexpired seen)
  · intro h
    exact absurd (hafter.symm.trans h) hunmoved

lemma Advance.beat (h : Advance c s d s') : Beat s d s' := by
  cases h with
  | sample hpc => exact .sample hpc rfl
  | raise hpc => exact .raise hpc rfl
  | lower hpc => exact .lower _ hpc rfl
  | counted hpc => exact .count _ _ hpc rfl (.inl rfl)
  | countedFailure hpc => exact .count _ _ hpc rfl (.inr ⟨_, rfl⟩)
  | retry hpc => exact .quiet rfl rfl rfl rfl rfl (fun _ => id) (fun _ => .inr) .inl
  | writeSome hpc =>
    refine .quiet rfl rfl rfl ?_ ?_ ?_ ?_ ?_ <;> rcases hpc with hpc | hpc <;> simp [hpc]
  | expired hpc => refine .quiet rfl rfl rfl ?_ ?_ ?_ ?_ ?_ <;> simp [hpc, Pc.raised, Pc.inWrite]
  | unmoved hpc hsame =>
    refine .quiet rfl rfl rfl ?_ ?_ ?_ ?_ ?_ <;> simp [hpc, hsame, Pc.raised, Pc.inWrite]
  | goOn hpc =>
    rcases next_cases (s.dirs d) with hnext | hnext
    · refine .plain .reading rfl rfl rfl ?_ ?_ ?_ nofun nofun nofun <;> simp [hpc, hnext, Pc.raised, Pc.inWrite]
    · refine .plain .sample rfl rfl rfl ?_ ?_ ?_ nofun nofun nofun <;> simp [hpc, hnext, Pc.raised, Pc.inWrite]
  | late hpc =>
    rcases hpc with hpc | ⟨seen, hpc⟩ <;> refine .plain (.broken .messageTimeout) rfl rfl rfl ?_ ?_ ?_ nofun nofun nofun
      <;> simp [hpc, Pc.raised, Pc.inWrite]
  | @fail f hpc =>
    rcases after_fail_cases (Copy.fail s f).2 with hnext | ⟨g, hnext⟩
    · refine .plain .done ?_ ?_ fail_stirred ?_ ?_ ?_ nofun nofun nofun <;> simp [hpc, hnext, Pc.raised, Pc.inWrite]
    · refine .plain (.failing g) ?_ ?_ fail_stirred ?_ ?_ ?_ nofun nofun nofun <;>
        simp [hpc, hnext, Pc.raised, Pc.inWrite]
  | _ =>
    rename_i hpc
    refine .plain _ rfl rfl rfl (by simp; rfl) ?_ ?_ ?_ ?_ ?_ <;>
      simp [*, Pc.raised, Pc.inWrite]

/-! ## The invariant -/

/-- `writing` counts the directions that are writing. A direction that waits, while the other has been
writing, finds `progress` moved or the write not counted yet. -/
structure Watched (s : State) : Prop where
  starting : NotStarted s
  counts : s.writing = (s.dirs .a).pc.raised.toNat + (s.dirs .b).pc.raised.toNat
  seen : ∀ {d seen}, (s.dirs d).pc = .waiting seen ∨ (s.dirs d).pc = .expired seen →
    seen ≤ s.progress ∧ (s.stirred d = true → seen < s.progress ∨ (s.dirs d.other).pc.inWrite = true)
  between : ∀ {d}, (s.dirs d).pc = .unmoved → s.stirred d = true → (s.dirs d.other).pc.inWrite = true

/-- A direction is between its two loads, and the other between its two updates. -/
def Crossed (s : State) (d : Side) : Prop :=
  (s.dirs d).pc = .unmoved ∧ (s.dirs d.other).pc.isCounting = true

/-- No direction is between its two loads while the other is between its two updates. -/
def Apart (s : State) : Prop := ¬ Crossed s .a ∧ ¬ Crossed s .b

instance (s : State) : Decidable (Apart s) := inferInstanceAs (Decidable (¬ (_ ∧ _) ∧ ¬ (_ ∧ _)))

lemma Apart.not_crossed (h : Apart s) (d : Side) : ¬ Crossed s d := by
  cases d with
  | a => exact h.1
  | b => exact h.2

/-- The count of the writing directions, seen from one of them. -/
theorem counts_iff (d : Side) : s.writing = (s.dirs .a).pc.raised.toNat + (s.dirs .b).pc.raised.toNat ↔
    s.writing = (s.dirs d).pc.raised.toNat + (s.dirs d.other).pc.raised.toNat := by
  cases d with
  | a => rfl
  | b =>
    simp only [Side.other]
    rw [Nat.add_comm]

/-- A direction begins to write, or goes on to the end of it. -/
theorem Watched.writes (h : Watched s) (hother : s'.dirs d.other = s.dirs d.other) (hstarting : NotStarted s')
    (hprogress : s'.progress = s.progress) (hpc : (s'.dirs d).pc.inWrite)
    (hcounts : s'.writing = (s'.dirs d).pc.raised.toNat + (s.dirs d.other).pc.raised.toNat) : Watched s' := by
  refine ⟨hstarting, ?_, ?_, ?_⟩
  · rw [counts_iff d, hother]
    exact hcounts
  · intro e seen he
    rcases Side.eq_or_other d e with rfl | rfl
    · rcases he with he | he <;> simp [he, Pc.inWrite] at hpc
    · rw [hother] at he
      rw [hprogress, Side.other_other]
      exact ⟨(h.seen he).1, fun _ => .inr hpc⟩
  · intro e he _
    rcases Side.eq_or_other d e with rfl | rfl
    · simp [he, Pc.inWrite] at hpc
    · rwa [Side.other_other]

lemma Watched.beat (h : Watched s) (hapart : Apart s) (hbeat : Beat s d s')
    (hother : s'.dirs d.other = s.dirs d.other) (hstarting : NotStarted s') : Watched s' := by
  have hcounts := (counts_iff d).mp h.counts
  cases hbeat with
  | quiet hprogress hwriting hstirred hraised hinWrite hwaiting hexpired hunmoved =>
    refine ⟨hstarting, ?_, ?_, ?_⟩
    · rw [counts_iff d, hwriting, hraised, hother]
      exact hcounts
    · intro e seen hpc
      rw [hprogress, hstirred]
      rcases Side.eq_or_other d e with rfl | rfl
      · rw [hother]
        refine h.seen ?_
        rcases hpc with hpc | hpc
        · exact .inl (hwaiting seen hpc)
        · exact hexpired seen hpc
      · rw [Side.other_other, hinWrite]
        rw [hother] at hpc
        simpa using h.seen hpc
    · intro e hpc
      rw [hstirred]
      rcases Side.eq_or_other d e with rfl | rfl
      · rw [hother]
        intro hstir
        rcases hunmoved hpc with hbefore | hbefore
        · exact h.between hbefore hstir
        · exact ((h.seen (.inr hbefore)).2 hstir).resolve_left (Nat.lt_irrefl _)
      · rw [Side.other_other, hinWrite]
        rw [hother] at hpc
        simpa using h.between hpc
  | sample hpc heq =>
    subst heq
    refine ⟨hstarting, ?_, ?_, ?_⟩
    · rw [counts_iff d]
      simpa [hpc, Pc.raised] using hcounts
    · intro e seen he
      rcases Side.eq_or_other d e with rfl | rfl
      · obtain rfl : s.progress = seen := by simpa using he
        refine ⟨Nat.le_refl _, fun hstir => .inr ?_⟩
        have hwriting : (s.dirs e.other).pc = .writing := by simpa using hstir
        simp [hwriting, Pc.inWrite]
      · simpa [hpc, Pc.inWrite] using h.seen (d := d.other) (by simpa using he)
    · intro e he
      rcases Side.eq_or_other d e with rfl | rfl
      · simp at he
      · simpa [hpc, Pc.inWrite] using h.between (d := d.other) (by simpa using he)
  | raise hpc heq | lower e hpc heq =>
    subst heq
    apply h.writes hother hstarting rfl
    · simp [Pc.inWrite]
    · simp [hpc, Pc.raised] at hcounts ⊢
      omega
  | count e x hpc heq hafter =>
    subst heq
    have hquiet : x.pc.raised = false ∧ (∀ seen, x.pc ≠ .waiting seen ∧ x.pc ≠ .expired seen) ∧ x.pc ≠ .unmoved := by
      rcases hafter with hx | ⟨e', hx⟩ <;> simp [hx, Pc.raised]
    obtain ⟨hraised, hwaits, hunmoved⟩ := hquiet
    refine ⟨hstarting, ?_, ?_, ?_⟩
    · rw [counts_iff d]
      have hbefore : (s.dirs d).pc.raised = false := by rw [hpc]; rfl
      simpa [hraised, hbefore] using hcounts
    · intro e' seen he
      rcases Side.eq_or_other d e' with rfl | rfl
      · simp [(hwaits seen).1, (hwaits seen).2] at he
      · have hle := (h.seen (d := d.other) (by simpa using he)).1
        refine ⟨Nat.le_succ_of_le hle, fun _ => .inl (Nat.lt_succ_of_le hle)⟩
    · intro e' he
      rcases Side.eq_or_other d e' with rfl | rfl
      · simp [hunmoved] at he
      · have hcrossed : Crossed s d.other := ⟨by simpa using he, by simp [hpc, Pc.isCounting]⟩
        exact absurd hcrossed (hapart.not_crossed d.other)

lemma Watched.step (h : Watched s) (hapart : Apart s) (hstep : Step c s s') : Watched s' := by
  have hstarting := h.starting.step hstep
  cases hstep with
  | @dir d _ hadv =>
    exact h.beat hapart hadv.beat hadv.other hstarting
  | spawn hcaller =>
    have hidle := h.starting hcaller
    refine ⟨hstarting, ?_, ?_, ?_⟩
    · have hcounts := h.counts
      simpa [hidle, Pc.raised] using hcounts
    · intro d seen hpc
      cases d <;> simp at hpc
    · intro d hpc
      cases d <;> simp at hpc
  | spawnFails | cancel | finish | peerSends | peerEnds => exact ⟨hstarting, h.counts, h.seen, h.between⟩
  | @caller f hcaller =>
    refine ⟨hstarting, ?_, ?_, ?_⟩
    · simpa using h.counts
    · intro d seen hpc
      simp only [State.setCaller_dirs, fail_dirs] at hpc
      simpa [fail_stirred] using h.seen hpc
    · intro d hpc
      simp only [State.setCaller_dirs, fail_dirs] at hpc
      simpa [fail_stirred] using h.between hpc

lemma watched_of_reachableBy {kinds : Side → Kind}
    (hreach : ReachableBy (copyBoth kinds linux) (fun s _ => Apart s) s) : Watched s := by
  refine hreach.invariant ?_ ?_
  · rintro _ ⟨n, rfl⟩
    refine ⟨fun _ _ => rfl, rfl, ?_, nofun⟩
    rintro d seen (hpc | hpc) <;> cases hpc
  · intro a l b hapart hwatched hstep
    exact hwatched.step hapart (step_cases hstep)

/-- **Idle sessions.** In every run of `copy_both` in which no step is taken while one direction is between
its two loads and the other between its two updates: when a direction's wait ends in a timeout error, the
other direction did not write at any time from when `progress` was loaded for the wait until the wait
timed out. -/
theorem times_out_only_when_idle {kinds : Side → Kind} {linux : Bool}
    (hreach : ReachableBy (copyBoth kinds linux) (fun s _ => Apart s) s) (hapart : Apart s)
    (hpc : (s.dirs d).pc = .unmoved) (hstep : (copyBoth kinds linux).step s (.dir d .ok) = some s')
    (herror : (s'.dirs d).pc = .broken (.read d .timedOut)) : s.stirred d = false := by
  have hwatched := watched_of_reachableBy hreach
  rw [← Bool.not_eq_true]
  intro hstirred
  have hinWrite := hwatched.between hpc hstirred
  have hraised : (s.dirs d.other).pc.raised := by
    have hnot := hapart.not_crossed d
    cases hother : (s.dirs d.other).pc with
    | counting e => exact absurd ⟨hpc, by simp [hother, Pc.isCounting]⟩ hnot
    | writing | lowering e => rfl
    | _ => simp [hother, Pc.inWrite] at hinWrite
  have hcounts := (counts_iff d).mp hwatched.counts
  have hpos : 0 < s.writing := by
    rw [hcounts, hraised]
    simp
  have hadv : s' = s.goto d .sample := by
    have hsome : (copyBoth kinds linux).step s (.dir d .ok) = some (s.goto d .sample) := by
      simp [copyBoth, step, advance, hpc, hpos]
    exact Option.some_injective _ (hstep.symm.trans hsome)
  simp [hadv] at herror

/-- A direction's first wait times out, and it has loaded `progress` again. -/
def waitTimesOut : List Label :=
  [.dir .a .ok, .dir .a .ok, .dir .a .ok, .dir .a (.fails .timedOut), .dir .a .ok]

/-- Nothing is sent, and the session times out. -/
theorem times_out_only_when_idle_silence :
    ∃ s s', ReachableBy tcpPair (fun s _ => Apart s) s ∧ tcpPair.step s (.dir .a .ok) = some s' ∧
      (s'.dirs .a).pc = .broken (.read .a .timedOut) ∧ s.stirred .a = false := by
  obtain ⟨s, hreach, hs⟩ := exists_reachableBy_of_runBy tcpPair (fun s _ => Apart s) tcpPair_init
    (.spawn true :: waitTimesOut) (fun s => decide (Apart s ∧ (s.dirs .a).pc = .unmoved ∧ s.writing = 0)) (by decide)
  obtain ⟨hapart, hpc, hwriting⟩ := of_decide_eq_true hs
  have hstep : tcpPair.step s (.dir .a .ok) = some (s.goto .a (.broken (.read .a .timedOut))) := by
    simp [tcpPair, copyBoth, step, advance, hpc, hwriting]
  have herror : ((s.goto .a (.broken (.read .a .timedOut))).dirs .a).pc = .broken (.read .a .timedOut) := by
    simp
  exact ⟨s, _, hreach, hstep, herror, times_out_only_when_idle hreach hapart hpc hstep herror⟩

/-- The other direction is writing when the wait begins, and ends its write between the wait's end and the
load of `writing`: the session times out all the same. -/
theorem busy_session_times_out :
    ∃ s s', Reachable tcpPair s ∧ (s.dirs .a).pc = .unmoved ∧ tcpPair.step s (.dir .a .ok) = some s' ∧
      (s'.dirs .a).pc = .broken (.read .a .timedOut) ∧ s.stirred .a = true := by
  obtain ⟨s, hreach, hs⟩ := exists_reachable_of_run tcpPair tcpPair_init
    ([.spawn true, .peerSends .b [1]] ++ [.ok, .ok, .ok, .ok, .ok, .bytes 1, .ok].map (.dir .b) ++
      [.ok, .ok, .ok, .fails .timedOut].map (.dir .a) ++ [.dir .b (.bytes 1), .dir .b .ok, .dir .a .ok])
    (fun s => decide ((s.dirs .a).pc = .unmoved ∧ s.writing = 0 ∧ s.stirred .a = true)) (by decide)
  obtain ⟨hpc, hwriting, hstirred⟩ := of_decide_eq_true hs
  have hstep : tcpPair.step s (.dir .a .ok) = some (s.goto .a (.broken (.read .a .timedOut))) := by
    simp [tcpPair, copyBoth, step, advance, hpc, hwriting]
  exact ⟨s, _, hreach, hpc, hstep, by simp, hstirred⟩

end RocNet.Copy
