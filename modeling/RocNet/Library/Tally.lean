import Mathlib.Data.Finset.Card

/-!
# Counting by hand

A counter that is raised and lowered by many parties counts, at every moment, the parties that
have raised it and not lowered it. `Tally P n` says exactly `n` things satisfy `P`; its rules are
the ways such a counter changes: a thing comes to satisfy `P`, one ceases to, or one takes over
from another. The things may come from an infinite type, as long as finitely many satisfy `P`.
-/

variable {A : Type} {P Q : A → Prop} {n : ℕ} {a b : A}

/-- Exactly `n` things satisfy `P`. -/
def Tally (P : A → Prop) (n : ℕ) : Prop := ∃ F : Finset A, (∀ a, a ∈ F ↔ P a) ∧ F.card = n

namespace Tally

open Finset

lemma congr (h : Tally P n) (hQ : ∀ a, Q a ↔ P a) : Tally Q n := by
  obtain ⟨F, hF, hn⟩ := h
  exact ⟨F, fun a => (hF a).trans (hQ a).symm, hn⟩

lemma zero (h : ∀ a, ¬ P a) : Tally P 0 :=
  ⟨∅, fun a => by simp [h a], card_empty⟩

/-- What lies in a finite set can be counted. -/
theorem exists_of_finset {F : Finset A} (h : ∀ a, P a → a ∈ F) : ∃ n, Tally P n := by
  classical
  exact ⟨_, F.filter P, fun a => by simpa using h a, rfl⟩

lemma exists_of_pos (h : Tally P n) (hn : 0 < n) : ∃ a, P a := by
  obtain ⟨F, hF, rfl⟩ := h
  obtain ⟨a, ha⟩ := card_pos.mp hn
  exact ⟨a, (hF a).mp ha⟩

lemma pos (h : Tally P n) (ha : P a) : 0 < n := by
  obtain ⟨F, hF, rfl⟩ := h
  exact card_pos.mpr ⟨a, (hF a).mpr ha⟩

lemma insert (h : Tally P n) (ha : ¬ P a) (ha' : Q a) (hQ : ∀ b ≠ a, (Q b ↔ P b)) : Tally Q (n + 1) := by
  classical
  obtain ⟨F, hF, rfl⟩ := h
  refine ⟨Insert.insert a F, fun b => ?_, card_insert_of_notMem (mt (hF a).mp ha)⟩
  rw [mem_insert, hF b]
  obtain rfl | hb := eq_or_ne b a
  · simp [ha']
  · simp [hb, hQ b hb]

lemma erase (h : Tally P n) (ha : P a) (ha' : ¬ Q a) (hQ : ∀ b ≠ a, (Q b ↔ P b)) : Tally Q (n - 1) := by
  classical
  obtain ⟨F, hF, rfl⟩ := h
  refine ⟨F.erase a, fun b => ?_, card_erase_of_mem ((hF a).mpr ha)⟩
  rw [mem_erase, hF b]
  obtain rfl | hb := eq_or_ne b a
  · simp [ha']
  · simp [hb, hQ b hb]

/-- `b` takes over from `a`. -/
theorem move (h : Tally P n) (ha : P a) (hb : ¬ P b) (ha' : ¬ Q a) (hb' : Q b)
    (hQ : ∀ c ≠ a, c ≠ b → (Q c ↔ P c)) : Tally Q n := by
  have hpos := h.pos ha
  have hne : b ≠ a := fun heq => hb (heq ▸ ha)
  have herase : Tally (fun c => c ≠ b ∧ Q c) (n - 1) := by
    refine h.erase ha (fun hc => ha' hc.2) fun c hc => ?_
    obtain rfl | hcb := eq_or_ne c b
    · simp [hb]
    · simp [hcb, hQ c hc hcb]
  have hinsert : Tally Q (n - 1 + 1) := herase.insert (a := b) (fun hc => hc.1 rfl) hb' fun c hc => by simp [hc]
  rwa [Nat.sub_add_cancel hpos] at hinsert

end Tally
