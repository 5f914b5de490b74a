import RocNet.Analysis.StreamWatchers

/-!
# What a task's step does to a stream

The steps of TLS and Noise streams do the same few things to the stream's locks and watchers and to the
sockets (`Change`). What such a change keeps is proved here once.
-/

namespace RocNet.Streams

open List
open Sockets (Open Later Joined step_cases readiness_of_reachable)

/-- The labels of the sockets that are part of a task's step in a stream. -/
inductive Access (S t : ℕ) : Sockets.Label → Prop
  | attempt (d drain : Bool) : Access S t (.attempt t S d drain)
  | observe (d : Bool) : Access S t (.observe S d)
  | addIo : Access S t (.addIo t S false)

/-- What a step of task `t` does to the locks and watchers of a stream over socket `S`, and to the
sockets. -/
inductive Change (S : ℕ) (s : State) (t : ℕ) : State → Prop
  | same : Change S s t s
  | sock (hm : Access S t m) (hstep : Sockets.step s.sock m = some x) : Change S s t (s.setSock x)
  | idle : Change S s t (s.markIdle t)
  | sockIdle (hm : Access S t m) (hstep : Sockets.step s.sock m = some x) : Change S s t ((s.setSock x).markIdle t)
  | lock (hfree : s.locked L = none) (hfirst : first ≤ s.watchers.nextId) : Change S s t (s.lock L t first)
  | drop (hdrop : DropStep s t y) : Change S s t y
  | register (hcode : s.sock.code t = .opened w io) : Change S s t (s.register t w)
  | unwatch {id w : ℕ} (hreg : s.registered t = some (id, w)) : Change S s t (s.unwatch t id)

variable {S : ℕ} {s y : State} {t u w : ℕ} {m : Sockets.Label} {x z : Sockets.State}

lemma Access.on (h : Access S t m) (hstep : Sockets.step x m = some z) : z.on = x.on := by
  have hcases := step_cases hstep
  cases h with
  | attempt d drain =>
    cases hcases with
    | task hon htask =>
      cases htask with
      | succeed _ _ | block _ _ => rfl
  | observe d =>
    cases hcases with
    | observe _ => rfl
    | task hon htask => cases htask
  | addIo =>
    cases hcases with
    | task hon htask =>
      cases htask with
      | addIo _ => rfl

section Sockets

variable (hr : Transition.Reachable Sockets.system s.sock)
include hr

lemma later_of_step (hstep : Sockets.step s.sock m = some z) : Later s.sock z := by
  have hready := readiness_of_reachable hr
  exact .of_step hready.watched hready.owned (step_cases hstep)

lemma reachable_of_step (hstep : Sockets.step s.sock m = some z) : Transition.Reachable Sockets.system z :=
  .next hr trivial hstep

lemma Change.reachable (h : Change S s t y) : Transition.Reachable Sockets.system y.sock := by
  cases h with
  | sock _ hstep | sockIdle _ hstep => exact (reachable_of_step hr hstep :)
  | drop hdrop =>
    cases hdrop with
    | @wake u w rest hwaking =>
      rcases wake_sock s t u w rest with hsame | hstep
      · rw [hsame]
        exact hr
      · exact (reachable_of_step hr hstep :)
    | unlock _ _ _ | drain _ _ _ => exact hr
  | _ => exact hr

lemma Change.later (h : Change S s t y) : Later s.sock y.sock := by
  have hready := readiness_of_reachable hr
  cases h with
  | sock _ hstep | sockIdle _ hstep => exact later_of_step hr hstep
  | drop hdrop =>
    cases hdrop with
    | wake hwaking => exact later_wake hready.watched hready.owned
    | unlock _ _ _ | drain _ _ _ => exact .refl _
  | _ => exact .refl _

lemma Change.kept (h : Change S s t y) (hk : Kept s) : Kept y := by
  have hready := readiness_of_reachable hr
  cases h with
  | same => exact hk
  | sock _ hstep => exact hk.setSock (later_of_step hr hstep)
  | idle => exact hk.markIdle
  | sockIdle _ hstep => exact (hk.setSock (later_of_step hr hstep)).markIdle
  | lock hfree hfirst => exact hk.lock hfree hfirst
  | drop hdrop => exact hk.dropStep hready.watched hready.owned hdrop
  | register hcode => exact hk.register (hready.owned.issued t _ (by rw [hcode]; rfl)).2
  | unwatch hreg => exact hk.unwatch hreg

/-- A `Select` that has added the socket stays registered with it. -/
theorem Change.joined (h : Change S s t y) (hopen : Open y.sock u w) (hj : Joined S s.sock u w) :
    Joined S y.sock u w := by
  have hready := readiness_of_reachable hr
  cases h with
  | sock _ hstep | sockIdle _ hstep => exact hj.step hready.watched hready.owned (step_cases hstep) hopen
  | drop hdrop =>
    cases hdrop with
    | @wake v x rest hwaking =>
      rcases wake_sock s t v x rest with hsame | hstep
      · rwa [hsame]
      · exact hj.step hready.watched hready.owned (step_cases hstep) hopen
    | unlock _ _ _ | drain _ _ _ => exact hj
  | _ => exact hj

end Sockets

lemma Change.on (h : Change S s t y) : y.sock.on = s.sock.on := by
  cases h with
  | sock hm hstep | sockIdle hm hstep => exact hm.on hstep
  | drop hdrop =>
    cases hdrop with
    | @wake u w rest hwaking =>
      rw [State.wake_sock]
      split <;> rfl
    | unlock _ _ _ | drain _ _ _ => rfl
  | _ => rfl

lemma Change.other (h : Change S s t y) (hu : u ≠ t) :
    y.held u = s.held u ∧ y.waking u = s.waking u ∧ y.registered u = s.registered u := by
  cases h with
  | drop hdrop => cases hdrop <;> simp [hu]
  | _ => simp [hu]

lemma Change.nextId_le (h : Change S s t y) : s.watchers.nextId ≤ y.watchers.nextId := by
  cases h with
  | drop hdrop =>
    cases hdrop with
    | drain _ _ _ => simp [Waiters.nextId]
    | _ => exact Nat.le_refl _
  | register _ => exact Nat.le_succ _
  | _ => exact Nat.le_refl _

lemma DropStep.held_back (h : DropStep s t y) (hmem : g ∈ y.held u) (hguard : g.guard) : g ∈ s.held u := by
  cases h with
  | wake hwaking => exact hmem
  | unlock hwaking hheld _ =>
    rcases mem_update_held hmem with ⟨rfl, hmem'⟩ | ⟨-, hmem'⟩
    · rcases mem_cons.mp hmem' with rfl | hmem'
      · cases hguard
      · rw [hheld]
        exact mem_cons_of_mem _ hmem'
    · exact hmem'
  | drain hwaking hheld _ =>
    rcases mem_update_held hmem with ⟨rfl, hmem'⟩ | ⟨-, hmem'⟩
    · rw [hheld]
      exact mem_cons_of_mem _ hmem'
    · exact hmem'

lemma DropStep.registered (h : DropStep s t y) : y.registered = s.registered := by
  cases h with
  | wake _ | unlock _ _ _ | drain _ _ _ => rfl

lemma seen_of_observe (hstep : Sockets.step x (.observe S false) = some z) (u : ℕ) : (S, false) ∈ z.tried u := by
  cases step_cases hstep with
  | observe _ => exact mem_cons_self
  | task hon htask => cases htask

end RocNet.Streams
