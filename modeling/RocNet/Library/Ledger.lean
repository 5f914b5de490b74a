import Mathlib.Data.List.Count

/-!
# Where a thing is, when it is in one place at a time

A ledger gives every place the list of things in it. A thing is *sole* when it stands once in
one place and in no other, and *absent* when it stands nowhere. Moving things between two
places keeps both (`Sole.transfer`, `Absent.transfer`), whatever else is moved along;
`Absent.enter` and `Sole.leave` are the two ways in and out. A thing whose counts do not
change keeps its standing (`Sole.congr`, `Absent.congr`), which is how a step about one
thing leaves every other where it was. `Placed` says all of it at once, for a predicate that
tells which things stand somewhere, with one rule for each kind of step.
-/

namespace Ledger

open List

variable {P T : Type} [DecidableEq P] [DecidableEq T] {c c' : P → List T} {t : T} {p q : P}

/-- `t` stands exactly once in place `p`, and nowhere else. -/
def SoleAt (c : P → List T) (t : T) (p : P) : Prop :=
  ∀ r, (c r).count t = if r = p then 1 else 0

/-- `t` stands exactly once, in one place. -/
def Sole (c : P → List T) (t : T) : Prop := ∃ p, SoleAt c t p

/-- `t` stands nowhere. -/
def Absent (c : P → List T) (t : T) : Prop := ∀ r, (c r).count t = 0

omit [DecidableEq P] in
lemma Absent.notMem (h : Absent c t) (p : P) : t ∉ c p :=
  count_eq_zero.mp (h p)

/-- The one place of a sole thing holds it once. -/
theorem SoleAt.count_eq_one (h : SoleAt c t p) : (c p).count t = 1 := by
  rw [h p, if_pos rfl]

lemma SoleAt.notMem (h : SoleAt c t p) (hq : q ≠ p) : t ∉ c q := by
  rw [← count_eq_zero, h q, if_neg hq]

lemma SoleAt.unique (hp : SoleAt c t p) (hq : SoleAt c t q) : p = q := by
  by_contra hne
  have h1 := hp.count_eq_one
  rw [hq p, if_neg hne] at h1
  exact absurd h1 (by decide)

lemma Sole.count_le_one (h : Sole c t) (p : P) : (c p).count t ≤ 1 := by
  obtain ⟨r, hr⟩ := h
  rw [hr p]
  split <;> decide

/-- Wherever a sole thing is found is its place. -/
theorem Sole.at_of_mem (h : Sole c t) (hp : t ∈ c p) : SoleAt c t p := by
  obtain ⟨r, hr⟩ := h
  by_cases hpr : p = r
  · exact hpr ▸ hr
  · exact absurd hp (hr.notMem hpr)

/-- A sole thing found in two places is found in one. -/
theorem Sole.place_unique (h : Sole c t) (hp : t ∈ c p) (hq : t ∈ c q) : q = p := by
  by_contra hne
  exact (h.at_of_mem hp).notMem hne hq

/-- A sole thing is somewhere. -/
theorem Sole.not_absent (h : Sole c t) : ¬ Absent c t := by
  obtain ⟨p, hp⟩ := h
  intro ha
  have h1 := hp.count_eq_one
  rw [ha p] at h1
  exact absurd h1 (by decide)

lemma Sole.congr (h : Sole c t) (hc : ∀ r, (c' r).count t = (c r).count t) : Sole c' t := by
  obtain ⟨p, hp⟩ := h
  exact ⟨p, fun r => (hc r).trans (hp r)⟩

omit [DecidableEq P] in
lemma Absent.congr (h : Absent c t) (hc : ∀ r, (c' r).count t = (c r).count t) : Absent c' t :=
  fun r => (hc r).trans (h r)

/-- **Moving keeps a thing sole.** If only `p` and `q` change, and together they hold `t` as
often as before, `t` still stands once in one place. -/
theorem Sole.transfer (h : Sole c t) (hpq : p ≠ q) (hrest : ∀ r ≠ p, r ≠ q → c' r = c r)
    (hsum : (c' p).count t + (c' q).count t = (c p).count t + (c q).count t) : Sole c' t := by
  obtain ⟨r, hr⟩ := h
  have hp := hr p
  have hq := hr q
  -- the place afterwards is `p` or `q` exactly when it was one of the two before
  have hother : ∀ a ≠ p, a ≠ q → (c' a).count t = if a = r then 1 else 0 := by
    intro a hap haq
    rw [hrest a hap haq]
    exact hr a
  by_cases hrp : r = p ∨ r = q
  · have hone : (c' p).count t + (c' q).count t = 1 := by
      rcases hrp with rfl | rfl
      · rw [if_pos rfl] at hp
        rw [if_neg hpq.symm] at hq
        omega
      · rw [if_neg hpq] at hp
        rw [if_pos rfl] at hq
        omega
    have hzero : ∀ a ≠ p, a ≠ q → (c' a).count t = 0 := by
      intro a hap haq
      rw [hother a hap haq, if_neg]
      rcases hrp with rfl | rfl
      · exact hap
      · exact haq
    rcases Nat.eq_zero_or_pos ((c' p).count t) with h0 | h1
    · refine ⟨q, fun a => ?_⟩
      obtain rfl | haq := eq_or_ne a q
      · rw [if_pos rfl]
        omega
      · rw [if_neg haq]
        obtain rfl | hap := eq_or_ne a p
        · exact h0
        · exact hzero a hap haq
    · refine ⟨p, fun a => ?_⟩
      obtain rfl | hap := eq_or_ne a p
      · rw [if_pos rfl]
        omega
      · rw [if_neg hap]
        obtain rfl | haq := eq_or_ne a q
        · omega
        · exact hzero a hap haq
  · rw [not_or] at hrp
    rw [if_neg (Ne.symm hrp.1)] at hp
    rw [if_neg (Ne.symm hrp.2)] at hq
    refine ⟨r, fun a => ?_⟩
    obtain rfl | hap := eq_or_ne a p
    · rw [if_neg (Ne.symm hrp.1)]
      omega
    · obtain rfl | haq := eq_or_ne a q
      · rw [if_neg (Ne.symm hrp.2)]
        omega
      · exact hother a hap haq

omit [DecidableEq P] in
lemma Absent.transfer (h : Absent c t) (hrest : ∀ r ≠ p, r ≠ q → c' r = c r)
    (hsum : (c' p).count t + (c' q).count t = (c p).count t + (c q).count t) : Absent c' t := by
  have hp := h p
  have hq := h q
  classical
  intro a
  obtain rfl | hap := eq_or_ne a p
  · omega
  · obtain rfl | haq := eq_or_ne a q
    · omega
    · rw [hrest a hap haq]
      exact h a

/-- An absent thing put once in one place is sole. -/
theorem Absent.enter (h : Absent c t) (hrest : ∀ r ≠ p, (c' r).count t = (c r).count t)
    (hp : (c' p).count t = 1) : Sole c' t := by
  refine ⟨p, fun r => ?_⟩
  obtain rfl | hr := eq_or_ne r p
  · rw [if_pos rfl, hp]
  · rw [if_neg hr, hrest r hr, h r]

/-- A sole thing taken from its place is absent. -/
theorem Sole.leave (h : Sole c t) (hmem : t ∈ c p) (hrest : ∀ r ≠ p, (c' r).count t = (c r).count t)
    (hp : (c' p).count t = 0) : Absent c' t := by
  have hat := h.at_of_mem hmem
  intro r
  obtain rfl | hr := eq_or_ne r p
  · exact hp
  · rw [hrest r hr, hat r, if_neg hr]

/-- Exactly the things that satisfy `alive` stand somewhere, each once in one place. -/
def Placed (c : P → List T) (alive : T → Prop) : Prop :=
  ∀ t, (alive t → Sole c t) ∧ (¬ alive t → Absent c t)

variable {alive alive' : T → Prop}

section

variable (h : Placed c alive)

include h

lemma Placed.alive_of_mem (hp : t ∈ c p) : alive t := by
  by_contra hdead
  exact ((h t).2 hdead).notMem p hp

lemma Placed.place_unique (hp : t ∈ c p) (hq : t ∈ c q) : q = p :=
  ((h t).1 (h.alive_of_mem hp)).place_unique hp hq

lemma Placed.count_le_one (t : T) (p : P) : (c p).count t ≤ 1 := by
  by_cases ht : alive t
  · exact ((h t).1 ht).count_le_one p
  · rw [(h t).2 ht p]
    exact Nat.zero_le 1

lemma Placed.count_eq_one (hp : t ∈ c p) : (c p).count t = 1 :=
  Nat.le_antisymm (h.count_le_one t p) (count_pos_iff.mpr hp)

lemma Placed.notMem_of_ne (hp : t ∈ c p) (hq : q ≠ p) : t ∉ c q :=
  fun hmem => hq (h.place_unique hp hmem)

lemma Placed.same (hc : ∀ r, c' r = c r) (ha : ∀ t, alive' t ↔ alive t) : Placed c' alive' := by
  have hcc : c' = c := funext hc
  intro t
  rw [ha t, hcc]
  exact h t

lemma Placed.move (hpq : p ≠ q) (hrest : ∀ r ≠ p, r ≠ q → c' r = c r)
    (hperm : (c' p ++ c' q).Perm (c p ++ c q)) (ha : ∀ t, alive' t ↔ alive t) : Placed c' alive' := by
  intro t
  have hsum : (c' p).count t + (c' q).count t = (c p).count t + (c q).count t := by
    rw [← count_append, ← count_append]
    exact hperm.count_eq t
  rw [ha t]
  exact ⟨fun hl => ((h t).1 hl).transfer hpq hrest hsum, fun hd => ((h t).2 hd).transfer hrest hsum⟩

end

omit [DecidableEq P] in
/-- Where one thing was added to one place, the others are counted as before. -/
theorem count_eq_of_cons {u : T} (hrest : ∀ r ≠ p, c' r = c r) (hperm : (c' p).Perm (t :: c p))
    (hu : u ≠ t) (r : P) : (c' r).count u = (c r).count u := by
  obtain rfl | hr := eq_or_ne r p
  · rw [hperm.count_eq u, count_cons_of_ne hu.symm]
  · rw [hrest r hr]

/-- `t`, which stood nowhere, entered `p`. -/
theorem Placed.enter (h : Placed c alive) (hdead : ¬ alive t) (hrest : ∀ r ≠ p, c' r = c r)
    (hperm : (c' p).Perm (t :: c p)) (ha : ∀ u, alive' u ↔ alive u ∨ u = t) : Placed c' alive' := by
  intro u
  rw [ha u]
  obtain rfl | hu := eq_or_ne u t
  · have habs := (h u).2 hdead
    refine ⟨fun _ => habs.enter (p := p) (fun r hr => by rw [hrest r hr]) ?_, fun hn => ?_⟩
    · rw [hperm.count_eq u, count_cons_self, habs p]
    · exact absurd (.inr rfl) hn
  · refine ⟨fun hl => ?_, fun hn => ?_⟩
    · exact ((h u).1 (hl.resolve_right hu)).congr (count_eq_of_cons hrest hperm hu)
    · exact ((h u).2 fun hl => hn (.inl hl)).congr (count_eq_of_cons hrest hperm hu)

/-- `t`, which stood in `p`, left. -/
theorem Placed.leave (h : Placed c alive) (hrest : ∀ r ≠ p, c' r = c r)
    (hperm : (c p).Perm (t :: c' p)) (ha : ∀ u, alive' u ↔ alive u ∧ u ≠ t) : Placed c' alive' := by
  have hmem : t ∈ c p := hperm.symm.subset mem_cons_self
  have hsole := (h t).1 (h.alive_of_mem hmem)
  intro u
  rw [ha u]
  obtain rfl | hu := eq_or_ne u t
  · refine ⟨fun hl => absurd rfl hl.2, fun _ => ?_⟩
    refine hsole.leave hmem (fun r hr => by rw [hrest r hr]) ?_
    have hone := (hsole.at_of_mem hmem).count_eq_one
    rw [hperm.count_eq u, count_cons_self] at hone
    omega
  · have hcount := fun r => (count_eq_of_cons (fun r hr => (hrest r hr).symm) hperm hu r).symm
    refine ⟨fun hl => ?_, fun hn => ?_⟩
    · exact ((h u).1 hl.1).congr hcount
    · exact ((h u).2 fun hl => hn ⟨hl, hu⟩).congr hcount

end Ledger
