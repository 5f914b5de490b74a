import RocNet.Analysis.CopyFlow

/-!
# How `copy_both` ends its streams

The first failure aborts the streams into which the data is not complete. That flag is set after the stream was ended,
so a stream can be ended while a failure is on its way to abort it.
-/

namespace RocNet.Copy

open Transition

variable {c : Config} {s s' : State} {d x : Side} {f g : Fail} {kinds : Side → Kind} {linux : Bool}

/-! ## Who is in `fail` -/

def Running (s : State) (f : Fail) : Prop :=
  (s.dirs .a).pc = .failing f ∨ (s.dirs .b).pc = .failing f ∨ s.caller = .failing f

instance (s : State) (f : Fail) : Decidable (Running s f) := inferInstanceAs (Decidable (_ ∨ _))

lemma running_iff (d : Side) : Running s f ↔
    (s.dirs d).pc = .failing f ∨ (s.dirs d.other).pc = .failing f ∨ s.caller = .failing f := by
  cases d with
  | a => rfl
  | b => exact or_left_comm

/-- In `fail`, or through with its task. -/
def Pc.past : Pc → Bool
  | .failing _ | .done => true
  | _ => false

lemma past_of_failing {p : Pc} (h : p = .failing f) : p.past := by
  rw [h]
  rfl

/-! ## What a step does about the ends of streams -/

/-- The part of a stream that `abort`, `stop_reading` and `shutdown_write` change. -/
def Stream.flags (x : Stream) : Bool × Bool × Bool := (x.ended, x.aborted, x.readShut)

lemma flags_setStream (hy : y.flags = (s.streams x).flags) (z : Side) :
    ((s.setStream x y).streams z).flags = (s.streams z).flags := by
  obtain rfl | hz := eq_or_ne z x
  · simpa using hy
  · simp [hz]

lemma flags_eq {y z : Stream} (h : y.flags = z.flags) :
    y.ended = z.ended ∧ y.aborted = z.aborted ∧ y.readShut = z.readShut := by
  simpa [Stream.flags] using h

/-- Steps after which the end of each direction is where it was. -/
structure Keeps (s s' : State) : Prop where
  into : s'.endedInto = s.endedInto
  marking : ∀ d, (s'.dirs d).pc = .marking ↔ (s.dirs d).pc = .marking
  done : ∀ d, (s.dirs d).pc = .done → (s'.dirs d).pc = .done
  past : ∀ d, (s.dirs d).pc.past = true → (s'.dirs d).pc.past = true
  caller : ∀ f, s'.caller = .failing f → (∃ g, s.caller = .failing g) ∨ (s.dirs .a).pc = .done

structure Quiet (s s' : State) : Prop extends Keeps s s' where
  flags : ∀ x, (s'.streams x).flags = (s.streams x).flags
  running : ∀ f, Running s' f → Running s f ∨ ∃ e, f = .lock e

structure Fails (s : State) (f : Fail) (s' : State) : Prop extends Keeps s s' where
  before : Running s f
  streams : s'.streams = (fail s f).1.streams
  running : ∀ g, Running s' g → Running s g ∨ (fail s f).2 = some g

/-- The steps that are about the ends of streams, and the others. -/
inductive Closes (s : State) : State → Prop
  | quiet {s' : State} (h : Quiet s s') : Closes s s'
  | shutdown {d : Side} {how : Ended} (hpc : (s.dirs d).pc = .stopped how) :
      Closes s ((s.setStream d.other (s.streams d.other).shutdownWrite).goto d .marking)
  | shutdownFails {d : Side} {how : Ended} (hpc : (s.dirs d).pc = .stopped how) : Closes s (s.goto d .marking)
  | mark {d : Side} (hpc : (s.dirs d).pc = .marking) : Closes s (s.mark d)
  | fails {f : Fail} {s' : State} (h : Fails s f s') : Closes s s'

/-- A direction goes on from one place to another, neither of them its end. -/
theorem Closes.of_dir (hother : s'.dirs d.other = s.dirs d.other) (hcaller : s'.caller = s.caller)
    (hinto : s'.endedInto = s.endedInto) (hflags : ∀ x, (s'.streams x).flags = (s.streams x).flags)
    (hover : (s.dirs d).pc.past = false) (hmarking : (s.dirs d).pc ≠ .marking) (hmarking' : (s'.dirs d).pc ≠ .marking)
    (hlock : ∀ f, (s'.dirs d).pc = .failing f → ∃ e, f = .lock e) : Closes s s' := by
  refine .quiet { into := hinto, marking := ?_, done := ?_, past := ?_, caller := ?_, flags := hflags, running := ?_ }
  · intro e
    rcases Side.eq_or_other d e with rfl | rfl
    · exact iff_of_false hmarking' hmarking
    · rw [hother]
  · intro e hdone
    rcases Side.eq_or_other d e with rfl | rfl
    · simp [hdone, Pc.past] at hover
    · rwa [hother]
  · intro e he
    rcases Side.eq_or_other d e with rfl | rfl
    · simp [he] at hover
    · rwa [hother]
  · intro f hf
    left
    exact ⟨f, hcaller ▸ hf⟩
  · intro f hrunning
    rw [running_iff d, hother, hcaller] at hrunning
    rw [running_iff d]
    rcases hrunning with hpc | hrest
    · right
      exact hlock f hpc
    · left
      exact .inr hrest

lemma fails_of_dir (hpc : (s.dirs d).pc = .failing f) :
    Fails s f ((fail s f).1.goto d (((fail s f).2.map Pc.failing).getD .done)) := by
  have hover : ((((fail s f).2.map Pc.failing).getD .done)).past := by
    rcases after_fail_cases (fail s f).2 with hnext | ⟨g, hnext⟩ <;> simp [hnext, Pc.past]
  have hmarking : (((fail s f).2.map Pc.failing).getD .done) ≠ .marking := by
    rcases after_fail_cases (fail s f).2 with hnext | ⟨g, hnext⟩ <;> simp [hnext]
  refine { into := ?_, marking := ?_, done := ?_, past := ?_, caller := ?_, before := ?_, streams := rfl,
           running := ?_ }
  · rw [fail_fst f]
    rfl
  · intro e
    rcases Side.eq_or_other d e with rfl | rfl
    · simp [hmarking, hpc]
    · simp
  · intro e hdone
    rcases Side.eq_or_other d e with rfl | rfl
    · simp [hpc] at hdone
    · simpa using hdone
  · intro e he
    rcases Side.eq_or_other d e with rfl | rfl
    · simpa using hover
    · simpa using he
  · intro g hg
    left
    exact ⟨g, fail_caller ▸ hg⟩
  · exact (running_iff d).mpr (.inl hpc)
  · intro g hrunning
    rw [running_iff d] at hrunning
    rw [running_iff d]
    rcases hrunning with hg | hg | hg
    · right
      cases hnext : (fail s f).2 <;> simp_all
    · left
      exact .inr (.inl (by simpa using hg))
    · left
      exact .inr (.inr (fail_caller ▸ hg))

lemma fails_of_caller (hcaller : s.caller = .failing f) :
    Fails s f ((fail s f).1.setCaller (((fail s f).2.map Caller.failing).getD .waitingOn)) := by
  refine { into := ?_, marking := ?_, done := ?_, past := ?_, caller := ?_, before := ?_, streams := rfl,
           running := ?_ }
  · rw [fail_fst f]
    rfl
  · simp
  · simp
  · simp
  · intro g _
    left
    exact ⟨f, hcaller⟩
  · exact .inr (.inr hcaller)
  · intro g hrunning
    rcases hrunning with hg | hg | hg
    · left
      exact .inl (by simpa using hg)
    · left
      exact .inr (.inl (by simpa using hg))
    · right
      cases hnext : (fail s f).2 <;> simp_all

lemma Advance.closes (h : Advance c s d s') : Closes s s' := by
  have hother := h.other
  have hcaller := h.caller
  cases h with
  | shutdown hpc => exact .shutdown hpc
  | shutdownFails hpc => exact .shutdownFails hpc
  | mark hpc => exact .mark hpc
  | fail hpc => exact .fails (fails_of_dir hpc)
  | retry hpc =>
    apply Closes.of_dir hother hcaller rfl (fun _ => rfl) <;> rcases hpc with hpc | hpc <;> simp [hpc, Pc.past]
  | late hpc =>
    apply Closes.of_dir hother hcaller rfl (fun _ => rfl) <;> rcases hpc with hpc | ⟨seen, hpc⟩ <;> simp [hpc, Pc.past]
  | goOn hpc =>
    apply Closes.of_dir hother hcaller rfl (fun _ => rfl) <;>
      rcases next_cases (s.dirs d) with hnext | hnext <;> simp [hpc, hnext, Pc.past]
  | writeSome hpc =>
    apply Closes.of_dir hother hcaller rfl (flags_setStream rfl) <;> rcases hpc with hpc | hpc <;> simp [hpc, Pc.past]
  | leadDone hpc | writeLast hpc | readBytes hpc =>
    apply Closes.of_dir hother hcaller rfl (flags_setStream rfl) <;> simp [hpc, Pc.past]
  | _ =>
    apply Closes.of_dir hother hcaller rfl (fun _ => rfl) <;> simp [*, Pc.past]

lemma Closes.of_dirs (hdirs : s'.dirs = s.dirs) (hinto : s'.endedInto = s.endedInto)
    (hflags : ∀ x, (s'.streams x).flags = (s.streams x).flags) (hcaller : ∀ f, s'.caller = .failing f →
      s.caller = .failing f ∨ ((∃ e, f = .lock e) ∧ (s.dirs .a).pc = .done)) : Closes s s' := by
  refine .quiet { into := hinto, marking := ?_, done := ?_, past := ?_, caller := ?_, flags := hflags, running := ?_ }
  · simp [hdirs]
  · simp [hdirs]
  · simp [hdirs]
  · intro f hf
    exact (hcaller f hf).imp (fun h => ⟨f, h⟩) (·.2)
  · intro f hrunning
    rcases hrunning with hf | hf | hf
    · left
      exact .inl (hdirs ▸ hf)
    · left
      exact .inr (.inl (hdirs ▸ hf))
    · exact (hcaller f hf).imp (fun h => .inr (.inr h)) (·.1)

lemma Step.closes (h : Step c s s') (hstarted : NotStarted s) : Closes s s' := by
  cases h with
  | dir h => exact h.closes
  | caller hcaller => exact .fails (fails_of_caller hcaller)
  | spawn hcaller =>
    have hidle := hstarted hcaller
    apply Closes.quiet
    refine { into := rfl, marking := ?_, done := ?_, past := ?_, caller := ?_, flags := fun _ => rfl, running := ?_ }
    · intro d
      cases d <;> simp [hidle]
    · intro d hdone
      simp [hidle] at hdone
    · intro d hover
      simp [hidle, Pc.past] at hover
    · simp
    · intro f hrunning
      simp [Running] at hrunning
  | cancel hcaller hdone =>
    refine .of_dirs rfl rfl (fun _ => rfl) ?_
    intro f hf
    right
    simp only [State.setCaller_caller, Caller.failing.injEq] at hf
    exact ⟨⟨_, hf.symm⟩, hdone⟩
  | spawnFails | finish =>
    refine .of_dirs rfl rfl (fun _ => rfl) ?_
    simp
  | peerSends | peerEnds =>
    refine .of_dirs rfl rfl (flags_setStream rfl) ?_
    intro f hf
    left
    exact hf

lemma running_of_dir (hrunning : Running s' f) (hother : s'.dirs d.other = s.dirs d.other)
    (hcaller : s'.caller = s.caller) (hpc : ∀ f, (s'.dirs d).pc ≠ .failing f) : Running s f := by
  rw [running_iff d, hother, hcaller] at hrunning
  rw [running_iff d]
  right
  exact hrunning.resolve_left (hpc f)

/-! What `fail` does, as far as it matters here. -/

lemma fail_ended (s : State) (f : Fail) (x : Side) : ((fail s f).1.streams x).ended = (s.streams x).ended := by
  rcases fail_streams s f x with heq | ⟨-, heq⟩ | ⟨-, heq⟩ <;> rw [heq] <;> rfl

lemma fail_aborted (haborted : ((fail s f).1.streams x).aborted) : (s.streams x).aborted ∨ f = .finish x false := by
  rcases fail_streams s f x with heq | ⟨-, heq⟩ | ⟨hf, -⟩
  · exact .inl (heq ▸ haborted)
  · rw [heq] at haborted
    exact .inl haborted
  · exact .inr hf

lemma fail_next_finish (hnext : (fail s f).2 = some (.finish x stop)) : f = .load x ∧ stop = s.endedInto x := by
  cases f with
  | lock e =>
    simp only [fail] at hnext
    split at hnext <;> simp at hnext
  | load y =>
    simp only [fail, Option.some.injEq, Fail.finish.injEq] at hnext
    obtain ⟨rfl, rfl⟩ := hnext
    exact ⟨rfl, rfl⟩
  | finish y stop' => cases y <;> simp [fail] at hnext

/-- A stream that was ended has its flag set, or the direction into it is about to set it. -/
def Marked (s : State) : Prop :=
  ∀ x, (s.streams x).ended = true → (s.dirs x.other).pc = .marking ∨ s.endedInto x = true

lemma Marked.keeps (h : Marked s) (hkeeps : Keeps s s')
    (hended : ∀ x, (s'.streams x).ended = (s.streams x).ended) : Marked s' := by
  intro x hx
  rw [hended] at hx
  rw [hkeeps.marking, hkeeps.into]
  exact h x hx

lemma Marked.step (h : Marked s) (hcloses : Closes s s') : Marked s' := by
  cases hcloses with
  | quiet hquiet => exact h.keeps hquiet.toKeeps fun x => (flags_eq (hquiet.flags x)).1
  | @fails f _ hfails =>
    apply h.keeps hfails.toKeeps
    intro x
    rw [hfails.streams, fail_ended]
  | @shutdown d how hpc =>
    intro x hx
    rcases Side.eq_or_other d x with rfl | rfl
    · simpa using h x (by simpa using hx)
    · simp
  | @shutdownFails d how hpc | @mark d hpc =>
    intro x hx
    rcases Side.eq_or_other d x with rfl | rfl
    · simpa using h x hx
    · simp

/-! ## Ended streams are not aborted -/

/-- A failure has found this side's flag unset and is about to abort it, and the direction into it is between
`shutdown_write` and the flag. -/
def Crossing (s : State) (x : Side) : Prop := Running s (.finish x false) ∧ (s.dirs x.other).pc = .marking

instance (s : State) (x : Side) : Decidable (Crossing s x) := inferInstanceAs (Decidable (_ ∧ _))

def Uncrossed (s : State) : Prop := ¬ Crossing s .a ∧ ¬ Crossing s .b

instance (s : State) : Decidable (Uncrossed s) := inferInstanceAs (Decidable (_ ∧ _))

lemma Uncrossed.not_crossing (h : Uncrossed s) (x : Side) : ¬ Crossing s x := by
  cases x with
  | a => exact h.1
  | b => exact h.2

structure Spared (s : State) : Prop where
  about : ∀ x, Running s (.finish x false) → (s.streams x).ended = true → (s.dirs x.other).pc = .marking
  spared : ∀ x, (s.streams x).ended = true → (s.streams x).aborted = false

lemma Spared.quiet (h : Spared s) (hquiet : Quiet s s') : Spared s' := by
  have hended : ∀ x, (s'.streams x).ended = (s.streams x).ended := fun x => (flags_eq (hquiet.flags x)).1
  refine ⟨?_, ?_⟩
  · intro x hrunning hx
    rw [hended] at hx
    rw [hquiet.marking]
    rcases hquiet.running _ hrunning with hbefore | ⟨e, he⟩
    · exact h.about x hbefore hx
    · cases he
  · intro x hx
    rw [hended] at hx
    rw [(flags_eq (hquiet.flags x)).2.1]
    exact h.spared x hx

lemma Spared.shutdown (h : Spared s) (d : Side) :
    Spared ((s.setStream d.other (s.streams d.other).shutdownWrite).goto d .marking) := by
  refine ⟨?_, ?_⟩
  · intro x hrunning hx
    have hbefore : Running s (.finish x false) := running_of_dir (d := d) hrunning (by simp) rfl (by simp)
    rcases Side.eq_or_other d x with rfl | rfl
    · simpa using h.about x hbefore (by simpa using hx)
    · simp
  · intro x hx
    rcases Side.eq_or_other d x with rfl | rfl
    · simpa using h.spared x (by simpa using hx)
    · -- either it was ended before, or it was not aborted
      have hcases : (s.streams d.other).ended ∨ (s.streams d.other).aborted = false := by simpa using hx
      simpa using hcases.elim (h.spared d.other) id

lemma Spared.shutdownFails (h : Spared s) (d : Side) : Spared (s.goto d .marking) := by
  refine ⟨?_, h.spared⟩
  intro x hrunning hx
  have hbefore : Running s (.finish x false) := running_of_dir (d := d) hrunning (by simp) rfl (by simp)
  rcases Side.eq_or_other d x with rfl | rfl
  · simpa using h.about x hbefore hx
  · simp

lemma Spared.mark (h : Spared s) (hcross : Uncrossed s) (hpc : (s.dirs d).pc = .marking) : Spared (s.mark d) := by
  refine ⟨?_, h.spared⟩
  intro x hrunning hx
  have hbefore : Running s (.finish x false) := running_of_dir (d := d) hrunning (by simp) rfl (by simp)
  rcases Side.eq_or_other d x with rfl | rfl
  · simpa using h.about x hbefore hx
  · exact absurd ⟨hbefore, by simpa using hpc⟩ (hcross.not_crossing d.other)

lemma Spared.fails (h : Spared s) (hmarked : Marked s) (hcross : Uncrossed s) (hfails : Fails s f s') :
    Spared s' := by
  have hended : ∀ x, (s'.streams x).ended = (s.streams x).ended := by
    intro x
    rw [hfails.streams, fail_ended]
  refine ⟨?_, ?_⟩
  · intro x hrunning hx
    rw [hended] at hx
    rw [hfails.marking]
    rcases hfails.running _ hrunning with hbefore | hnext
    · exact h.about x hbefore hx
    · -- the flag was just loaded, and is not set
      obtain ⟨-, hflag⟩ := fail_next_finish hnext
      apply (hmarked x hx).resolve_right
      simp [← hflag]
  · intro x hx
    rw [hended] at hx
    rw [hfails.streams, ← Bool.not_eq_true]
    intro haborted
    rcases fail_aborted haborted with hbefore | rfl
    · rw [h.spared x hx] at hbefore
      cases hbefore
    · exact hcross.not_crossing x ⟨hfails.before, h.about x hfails.before hx⟩

lemma Spared.step (h : Spared s) (hmarked : Marked s) (hcross : Uncrossed s) (hcloses : Closes s s') : Spared s' := by
  cases hcloses with
  | quiet hquiet => exact h.quiet hquiet
  | shutdown => exact h.shutdown _
  | shutdownFails => exact h.shutdownFails _
  | mark hpc => exact h.mark hcross hpc
  | fails hfails => exact h.fails hmarked hcross hfails

lemma spared_of_reachableBy (hreach : ReachableBy (copyBoth kinds linux) (fun s _ => Uncrossed s) s) :
    NotStarted s ∧ Marked s ∧ Spared s := by
  refine ReachableBy.invariant (I := fun s => NotStarted s ∧ Marked s ∧ Spared s) ?_ ?_ hreach
  · rintro s ⟨n, rfl⟩
    refine ⟨fun _ _ => rfl, ?_, ?_, ?_⟩ <;> simp [Marked, State.new, Stream.new]
  · rintro a l b hcross ⟨hstarted, hmarked, hspared⟩ hstep
    have hstep := step_cases hstep
    have hcloses := hstep.closes hstarted
    exact ⟨hstarted.step hstep, hmarked.step hcloses, hspared.step hmarked hcross hcloses⟩

/-- **Finished streams.** In every run of `copy_both` in which no step is taken while a failure is about to
abort a stream whose flag it found unset and the direction into that stream is between `shutdown_write` and
setting the flag: a stream that was ended cleanly is not aborted. -/
theorem ended_not_aborted (hreach : ReachableBy (copyBoth kinds linux) (fun s _ => Uncrossed s) s)
    (hended : (s.streams x).ended = true) : (s.streams x).aborted = false := by
  obtain ⟨-, -, hspared⟩ := spared_of_reachableBy hreach
  exact hspared.spared x hended

/-- A direction finds the end of its stream. -/
def readsEnd (d : Side) : List Label :=
  [.dir d .ok, .dir d .ok, .dir d .ok, .dir d .ok, .dir d .ok, .dir d .eof]

/-- A direction's first wait fails, and it goes on until both streams are ended. -/
def waitFailure (d : Side) : List Label :=
  [.dir d .ok, .dir d .ok, .dir d .ok, .dir d (.fails .other), .dir d .ok, .dir d .ok, .dir d .ok, .dir d .ok,
    .dir d .ok, .dir d .ok]

/-- The direction into `b` ends and is recorded; then the other one fails, and only `a` is aborted. -/
theorem ended_not_aborted_recorded :
    ∃ s, ReachableBy tcpPair (fun s _ => Uncrossed s) s ∧ (s.streams .a).aborted = true ∧
      (s.streams .b).ended = true ∧ (s.streams .b).readShut = true ∧ (s.streams .b).aborted = false := by
  obtain ⟨s, hreach, hs⟩ := exists_reachableBy_of_runBy tcpPair (fun s _ => Uncrossed s) tcpPair_init
    ([.spawn true, .peerEnds .a] ++ readsEnd .a ++ [.dir .a .ok, .dir .a .ok] ++ waitFailure .b)
    (fun s => (s.streams .a).aborted && (s.streams .b).ended && (s.streams .b).readShut) (by decide)
  simp only [Bool.and_eq_true] at hs
  obtain ⟨⟨haborted, hended⟩, hreadShut⟩ := hs
  exact ⟨s, hreach, haborted, hended, hreadShut, ended_not_aborted hreach hended⟩

/-- The direction into `b` ends, and the other one fails before this is recorded: `b` is aborted. -/
theorem ended_stream_aborted :
    ∃ s, Reachable tcpPair s ∧ (s.streams .b).ended = true ∧ (s.streams .b).aborted = true := by
  obtain ⟨s, hreach, hs⟩ := exists_reachable_of_run tcpPair tcpPair_init
    ([.spawn true, .peerEnds .a] ++ readsEnd .a ++ [.dir .a .ok] ++ waitFailure .b)
    (fun s => (s.streams .b).ended && (s.streams .b).aborted) (by decide)
  simp only [Bool.and_eq_true] at hs
  exact ⟨s, hreach, hs⟩

end RocNet.Copy
