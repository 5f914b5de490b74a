import Mathlib.Data.Int.CardIntervalMod
import RocNet.Model.Random

/-!
# `between!` is uniform

With `r` values to choose from, the draws below `2 ^ 64 % r` are drawn again.
-/

namespace RocNet.Random

open Fallible Nat UInt64 Finset

variable {low high n : UInt64} {draws : List UInt64} {N r x : ℕ}

/-! ## Counting -/

lemma card_accepted (hx : x < r) : ((range N).filter fun n => N % r ≤ n ∧ n % r = x).card = N / r := by
  have hr : 0 < r := zero_lt_of_lt hx
  have hcount : ∀ b, ((range b).filter fun n => n % r = x).card = b / r + if x < b % r then 1 else 0 := by
    intro b
    have hmod := count_modEq_card b hr x
    simpa only [Nat.ModEq, mod_eq_of_lt hx, count_eq_card_filter_range] using hmod
  have hparts : ((range N).filter fun n => N % r ≤ n ∧ n % r = x) =
      (range N).filter (fun n => n % r = x) \ (range (N % r)).filter (fun n => n % r = x) := by
    ext n
    simp only [mem_filter, mem_range, mem_sdiff]
    omega
  have hsub : (range (N % r)).filter (fun n => n % r = x) ⊆ (range N).filter fun n => n % r = x :=
    Finset.filter_subset_filter _ (Finset.range_subset_range.mpr (Nat.mod_le N r))
  rw [hparts, Finset.card_sdiff_of_subset hsub, hcount, hcount, Nat.mod_mod, Nat.div_eq_of_lt (Nat.mod_lt N hr),
    Nat.zero_add, Nat.add_sub_cancel]

lemma half_lt_accepted (hr : 0 < r) (hle : r ≤ N) : N < 2 * (N - N % r) := by
  have hlt := Nat.mod_lt N hr
  have hparts := Nat.div_add_mod N r
  have hone : r ≤ r * (N / r) := Nat.le_mul_of_pos_right r (Nat.div_pos hle hr)
  omega

/-! ## What is drawn -/

/-- How many values there are. -/
def values (low high : UInt64) : ℕ := high.toNat - low.toNat + 1

lemma values_le (low high : UInt64) : values low high ≤ 2 ^ 64 := by
  have hhigh := high.toNat_lt
  unfold values
  omega

/-- What is left of the draws below `2 ^ 64` when they are put into blocks of as many as there are values. -/
def threshold (low high : UInt64) : ℕ := 2 ^ 64 % values low high

lemma redraw_eq (t : ℕ) (draws : List UInt64) :
    redraw t draws = (draws.find? fun n => t ≤ n.toNat).map toNat := by
  induction draws with
  | nil => rfl
  | cons n draws ih =>
    rw [redraw, List.find?_cons]
    by_cases hn : n.toNat < t
    · simp [hn, not_le.mpr hn, ih]
    · simp [hn, not_lt.mp hn]

/-- No arithmetic overflows, and the first draw at or above the threshold counts. -/
theorem between_eq (h : low < high) (draws : List UInt64) : between low high draws =
    .ok ((draws.find? fun n => threshold low high ≤ n.toNat).map fun n => low.toNat + n.toNat % values low high) := by
  have hlow : low.toNat < high.toNat := UInt64.lt_iff_toNat_lt.mp h
  have hhigh := high.toNat_lt
  have hnot : ¬ high ≤ low := UInt64.not_le.mpr h
  unfold between threshold
  rw [if_neg hnot, sub64_of_le hlow.le, ok_bind]
  by_cases hall : high.toNat - low.toNat = 18446744073709551615
  · -- every draw is a value
    have hvalues : values low high = 2 ^ 64 := by
      unfold values
      omega
    have hzero : low.toNat = 0 := by omega
    rw [if_pos hall, hvalues]
    cases draws with
    | nil => rfl
    | cons n draws =>
      simp [hzero]
      rfl
  · have hthreshold : (18446744073709551615 - (high.toNat - low.toNat + 1) + 1) % (high.toNat - low.toNat + 1) =
        2 ^ 64 % values low high := by
      unfold values
      rw [mod_eq_sub_mod (show high.toNat - low.toNat + 1 ≤ 2 ^ 64 by omega)]
      congr 1
      omega
    rw [if_neg hall, add64_of_lt (by omega), ok_bind, sub64_of_le (by omega), ok_bind, add64_of_lt (by omega), ok_bind,
      hthreshold]
    dsimp only
    rw [redraw_eq]
    cases hfind : draws.find? fun n => 2 ^ 64 % values low high ≤ n.toNat with
    | none => rfl
    | some n =>
      have hmod := mod_lt n.toNat (show 0 < high.toNat - low.toNat + 1 by omega)
      simp only [Option.map_some]
      rw [add64_of_lt (by omega)]
      rfl

lemma between_singleton (h : low < high) (n : UInt64) : between low high [n] =
    .ok (if threshold low high ≤ n.toNat then some (low.toNat + n.toNat % values low high) else none) := by
  rw [between_eq h, List.find?_singleton]
  split <;> simp_all

/-- **Uniform numbers.** The first draw that is not drawn again is a value of the range; as many draws lead to
each of its values, and to some more than half. -/
theorem between_uniform (low high : UInt64) : (high ≤ low → ∀ draws, between low high draws = .ok (some low.toNat)) ∧
    (low < high →
      (∀ n draws, (between low high [n] = .ok none ∧ between low high (n :: draws) = between low high draws) ∨
        ∃ v, low.toNat ≤ v ∧ v ≤ high.toNat ∧ between low high [n] = .ok (some v) ∧
          between low high (n :: draws) = .ok (some v)) ∧
      (∃ k, 1 ≤ k ∧ ∀ v, low.toNat ≤ v → v ≤ high.toNat → ((Finset.range (2 ^ 64)).filter fun n =>
        between low high [UInt64.ofNat n] = .ok (some v)).card = k) ∧
      2 ^ 64 < 2 * ((Finset.range (2 ^ 64)).filter fun n => between low high [UInt64.ofNat n] ≠ .ok none).card) := by
  refine ⟨fun hle draws => if_pos hle, fun hlt => ⟨fun n draws => ?_, ⟨2 ^ 64 / values low high, ?_, ?_⟩, ?_⟩⟩
  · have hlow : low.toNat < high.toNat := lt_iff_toNat_lt.mp hlt
    rw [between_singleton hlt, between_eq hlt (n :: draws), List.find?_cons]
    by_cases hn : threshold low high ≤ n.toNat
    · have hmod : n.toNat % values low high < values low high := mod_lt _ (succ_pos _)
      right
      refine ⟨low.toNat + n.toNat % values low high, le_add_right _ _, ?_, by simp [hn], by simp [hn]⟩
      unfold values at hmod ⊢
      omega
    · left
      simp [hn, between_eq hlt]
  · exact div_pos (values_le low high) (succ_pos _)
  · intro v hlow hhigh
    have hx : v - low.toNat < values low high := by
      unfold values
      omega
    rw [← card_accepted hx]
    refine congrArg card (filter_congr ?_)
    intro n hn
    rw [between_singleton hlt, toNat_ofNat_of_lt' (mem_range.mp hn)]
    unfold threshold
    split
    · simp_all
      omega
    · simp_all
  · have hcard : ((range (2 ^ 64)).filter fun n => between low high [ofNat n] ≠ .ok none) =
        Finset.Ico (threshold low high) (2 ^ 64) := by
      ext n
      simp only [mem_filter, mem_range, mem_Ico]
      constructor
      · rintro ⟨hn, hne⟩
        rw [between_singleton hlt, toNat_ofNat_of_lt' hn] at hne
        exact ⟨by_contra fun hnot => hne (by rw [if_neg hnot]), hn⟩
      · rintro ⟨hle, hn⟩
        rw [between_singleton hlt, toNat_ofNat_of_lt' hn, if_pos hle]
        exact ⟨hn, by simp⟩
    rw [hcard, card_Ico]
    exact half_lt_accepted (succ_pos _) (values_le low high)

end RocNet.Random
