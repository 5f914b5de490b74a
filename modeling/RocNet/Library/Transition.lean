import Mathlib.Data.Option.Basic

/-!
# Transition systems with an executable step

A system is a set of start states and a step that either refuses a label or says which
state it leads to. Being a function to `Option`, the step evaluates: a run is a list of
labels (`run`), and a run found by hand is checked by computing it
(`exists_reachable_of_run`).

`ReachableBy ok` are the states of the runs all of whose steps meet `ok`, a condition on the
state before the step and its label; `Reachable` puts no condition. Every safety result
below is an instance of `ReachableBy.invariant`, and a result about one system is carried
to another that projects onto it by `ReachableBy.project`.
-/

namespace Transition

open Option

variable {S L S' L' : Type}

/-- Start states, and what each label does in each state (`none`: it cannot happen). -/
structure System (S L : Type) where
  init : S → Prop
  step : S → L → Option S

/-- The same system, started in `s`. -/
def System.startAt (sys : System S L) (s : S) : System S L where
  init r := r = s
  step := sys.step

/-- A guarded step is taken only where its guard holds, and then leads where it says. -/
theorem of_guard {c : Prop} [Decidable c] {a b : S} (h : (if c then some a else none) = some b) : c ∧ a = b := by
  rw [ite_none_right_eq_some, some.injEq] at h
  exact h

/-- The states reached by runs all of whose steps meet `ok`. -/
inductive ReachableBy (sys : System S L) (ok : S → L → Prop) : S → Prop
  | start {s : S} : sys.init s → ReachableBy sys ok s
  | next {s s' : S} {l : L} : ReachableBy sys ok s → ok s l → sys.step s l = some s' → ReachableBy sys ok s'

/-- The states of all runs. -/
def Reachable (sys : System S L) (s : S) : Prop := ReachableBy sys (fun _ _ => True) s

variable {sys : System S L} {ok : S → L → Prop} {s s' : S} {I : S → Prop} {ls : List L}

/-- A state reached under a condition is reached under any weaker one. -/
theorem ReachableBy.mono {ok' : S → L → Prop}
    (h : ReachableBy sys ok s) (himp : ∀ s l, ok s l → ok' s l) : ReachableBy sys ok' s := by
  induction h with
  | start hi => exact .start hi
  | next _ hok hstep ih => exact .next ih (himp _ _ hok) hstep

lemma ReachableBy.reachable (h : ReachableBy sys ok s) : Reachable sys s :=
  h.mono fun _ _ _ => trivial

/-- **The invariant rule.** What holds at the start and is kept by every step that meets the
condition holds in every state reached that way. -/
theorem ReachableBy.invariant (hinit : ∀ s, sys.init s → I s)
    (hstep : ∀ s l s', ok s l → I s → sys.step s l = some s' → I s') (h : ReachableBy sys ok s) : I s := by
  induction h with
  | start hi => exact hinit _ hi
  | next _ hok hs ih => exact hstep _ _ _ hok ih hs

/-- The invariant rule without a condition on the steps. -/
theorem Reachable.invariant (hinit : ∀ s, sys.init s → I s) (hstep : ∀ s l s', I s → sys.step s l = some s' → I s')
    (h : Reachable sys s) : I s :=
  ReachableBy.invariant hinit (fun s l s' _ => hstep s l s') h

/-- **Projection.** If each step of one system is a step of another, or leaves its image
where it was, then the image of every state reached in the first is reached in the
second, and a condition that carries over step by step carries over to runs. -/
theorem ReachableBy.project {sys' : System S' L'} {ok' : S' → L' → Prop} (f : S → S')
    (hinit : ∀ s, sys.init s → sys'.init (f s)) (hstep : ∀ s l s', ok s l → sys.step s l = some s' →
      f s' = f s ∨ ∃ l', ok' (f s) l' ∧ sys'.step (f s) l' = some (f s')) (h : ReachableBy sys ok s) :
    ReachableBy sys' ok' (f s) := by
  induction h with
  | start hi => exact .start (hinit _ hi)
  | next _ hok hs ih =>
      rcases hstep _ _ _ hok hs with heq | ⟨l', hok', hs'⟩
      · rw [heq]
        exact ih
      · exact .next ih hok' hs'

/-- Take the steps of a list of labels in order. -/
def run (sys : System S L) : S → List L → Option S
  | s, [] => some s
  | s, l :: ls => (sys.step s l).bind fun s' => run sys s' ls

/-- What every step keeps, every run keeps. -/
theorem run_preserves (hstep : ∀ s l s', I s → sys.step s l = some s' → I s') (h : I s)
    (hrun : run sys s ls = some s') : I s' := by
  induction ls generalizing s with
  | nil =>
      simp only [run, some.injEq] at hrun
      exact hrun ▸ h
  | cons l ls ih =>
      simp only [run, bind_eq_some_iff] at hrun
      obtain ⟨m, hm, hrest⟩ := hrun
      exact ih (hstep s l m h hm) hrest

/-- A run from a reachable state ends in a reachable state. -/
theorem Reachable.of_run (h : Reachable sys s) (hrun : run sys s ls = some s') : Reachable sys s' :=
  run_preserves (fun _ _ _ hs hstep => .next hs trivial hstep) h hrun

/-- A run computed from a start state, with a test of where it ends, gives a reachable state
that passes the test. -/
theorem exists_reachable_of_run (sys : System S L) (hinit : sys.init s) (ls : List L)
    (p : S → Bool) (h : (run sys s ls).any p) : ∃ s', Reachable sys s' ∧ p s' := by
  cases hrun : run sys s ls with
  | none => simp [hrun] at h
  | some s' => exact ⟨s', Reachable.of_run (.start hinit) hrun, by simpa [hrun] using h⟩

/-- Take the steps of a list of labels in order, as long as each meets the condition. -/
def runBy (sys : System S L) (ok : S → L → Prop) [∀ s l, Decidable (ok s l)] :
    S → List L → Option S
  | s, [] => some s
  | s, l :: ls => if ok s l then (sys.step s l).bind fun s' => runBy sys ok s' ls else none

/-- A run under a condition, from a state reached under a weaker one, ends in such a state. -/
theorem ReachableBy.of_runBy_imp {ok' : S → L → Prop} [∀ s l, Decidable (ok' s l)] (himp : ∀ s l, ok' s l → ok s l)
    (h : ReachableBy sys ok s) (hrun : runBy sys ok' s ls = some s') : ReachableBy sys ok s' := by
  induction ls generalizing s with
  | nil =>
      simp only [runBy, some.injEq] at hrun
      exact hrun ▸ h
  | cons l ls ih =>
      unfold runBy at hrun
      split at hrun
      · next hok =>
        obtain ⟨m, hm, hrest⟩ := bind_eq_some_iff.mp hrun
        exact ih (.next h (himp s l hok) hm) hrest
      · cases hrun

/-- A run under a condition, from a state reached under it, ends in such a state. -/
theorem ReachableBy.of_runBy [∀ s l, Decidable (ok s l)] (h : ReachableBy sys ok s)
    (hrun : runBy sys ok s ls = some s') : ReachableBy sys ok s' :=
  h.of_runBy_imp (fun _ _ hok => hok) hrun

/-- Likewise for a run under a condition. -/
theorem exists_reachableBy_of_runBy (sys : System S L) (ok : S → L → Prop)
    [∀ s l, Decidable (ok s l)] (hinit : sys.init s) (ls : List L) (p : S → Bool)
    (h : (runBy sys ok s ls).any p) : ∃ s', ReachableBy sys ok s' ∧ p s' := by
  cases hrun : runBy sys ok s ls with
  | none => simp [hrun] at h
  | some s' => exact ⟨s', ReachableBy.of_runBy (.start hinit) hrun, by simpa [hrun] using h⟩

end Transition
