import Mathlib.Data.List.Basic

/-!
# Reading a segmented input

An incremental reader looks at what it has received so far and answers: here is a value, made of so
many of the items; this cannot go on; or I need more. Fed with segments until it answers (`feed`), and
again and again with what is left (`feedAll`), a reader whose answers are not changed by more input
(`Stable`) gives what it gives on the whole input at once (`split`), however that was cut into segments
(`feedAll_eq_split`). Where more input may change the error, the reader is stable up to a relation of
errors (`StableUpTo`).
-/

namespace Incremental

open List

variable {α β ε : Type}

/-- What a reader says of the items received so far. -/
inductive Answer (β ε : Type)
  | done (value : β) (used : ℕ)
  | fail (e : ε)
  | more

/-- Answers use what was received, and stand when more is received. -/
structure Stable (f : List α → Answer β ε) : Prop where
  used_le : ∀ {xs : List α} {v : β} {n : ℕ}, f xs = .done v n → n ≤ xs.length
  done : ∀ {xs : List α} {v : β} {n : ℕ} (ys : List α), f xs = .done v n → f (xs ++ ys) = .done v n
  fail : ∀ {xs : List α} {e : ε} (ys : List α), f xs = .fail e → f (xs ++ ys) = .fail e

/-- The same, but that what was received later may change the error. -/
structure StableUpTo (R : ε → ε → Prop) (f : List α → Answer β ε) : Prop where
  used_le : ∀ {xs : List α} {v : β} {n : ℕ}, f xs = .done v n → n ≤ xs.length
  done : ∀ {xs : List α} {v : β} {n : ℕ} (ys : List α), f xs = .done v n → f (xs ++ ys) = .done v n
  fail : ∀ {xs : List α} {e : ε} (ys : List α), f xs = .fail e → ∃ e', f (xs ++ ys) = .fail e' ∧ R e e'

lemma Stable.upTo {f : List α → Answer β ε} (hf : Stable f) : StableUpTo Eq f where
  used_le := hf.used_le
  done := hf.done
  fail ys h := ⟨_, hf.fail ys h, rfl⟩

/-- How a reader comes out of being fed: with a value, what is left over and the segments not asked for;
with a failure; or at the end of the input, with all of it received. -/
inductive Fed (α β ε : Type)
  | done (value : β) (rest : List α) (segments : List (List α))
  | fail (e : ε)
  | ended (received : List α)

/-- Feed segments, after what was received before, until there is an answer. -/
def feed (f : List α → Answer β ε) : List (List α) → List α → Fed α β ε
  | segments, xs =>
    match f xs with
    | .done v n => .done v (xs.drop n) segments
    | .fail e => .fail e
    | .more =>
      match segments with
      | [] => .ended xs
      | segment :: segments => feed f segments (xs ++ segment)

/-- Why a sequence of reads stops. -/
inductive Stop (α ε : Type)
  | fail (e : ε)
  | ended (received : List α)

/-- Read one value after the other, `n` reads at most. -/
def feedAll (f : List α → Answer β ε) : ℕ → List (List α) → List α → Option (List β × Stop α ε)
  | 0, _, _ => none
  | n + 1, segments, xs =>
    match feed f segments xs with
    | .done v rest segments => (feedAll f n segments rest).map fun p => (v :: p.1, p.2)
    | .fail e => some ([], .fail e)
    | .ended xs => some ([], .ended xs)

/-- The same on an input that is there as a whole. -/
def split (f : List α → Answer β ε) : ℕ → List α → Option (List β × Stop α ε)
  | 0, _ => none
  | n + 1, xs =>
    match f xs with
    | .done v used => (split f n (xs.drop used)).map fun p => (v :: p.1, p.2)
    | .fail e => some ([], .fail e)
    | .more => some ([], .ended xs)

/-- **Feeding answers as the whole input does**: with the same value, leaving the rest of the input; with a failure,
maybe an earlier one; or having received everything. -/
theorem feed_answers {R : ε → ε → Prop} {f : List α → Answer β ε} (hf : StableUpTo R f) (hrefl : ∀ e, R e e)
    (segments : List (List α)) (xs : List α) : match f (xs ++ segments.flatten) with
      | .done v n => ∃ rest segments', feed f segments xs = .done v rest segments' ∧
          rest ++ segments'.flatten = (xs ++ segments.flatten).drop n
      | .fail e => ∃ e', feed f segments xs = .fail e' ∧ R e' e
      | .more => feed f segments xs = .ended (xs ++ segments.flatten) := by
  induction segments generalizing xs with
  | nil =>
    unfold feed
    rw [flatten_nil, append_nil]
    cases f xs with
    | done v n => exact ⟨xs.drop n, [], rfl, append_nil _⟩
    | fail e => exact ⟨e, rfl, hrefl e⟩
    | more => rfl
  | cons segment segments ih =>
    unfold feed
    cases hx : f xs with
    | done v n =>
      rw [hf.done _ hx]
      exact ⟨_, _, rfl, (drop_append_of_le_length (hf.used_le hx)).symm⟩
    | fail e =>
      obtain ⟨e', he', hR⟩ := hf.fail (segment :: segments).flatten hx
      rw [he']
      exact ⟨e, rfl, hR⟩
    | more =>
      rw [flatten_cons, ← append_assoc]
      exact ih (xs ++ segment)

/-- **Segmentation does not matter.** Read after read, a stable reader gives what it gives on the whole
input. -/
theorem feedAll_eq_split {f : List α → Answer β ε} (hf : Stable f) {xs : List α} {segments : List (List α)} (n : ℕ) :
    feedAll f n segments xs = split f n (xs ++ segments.flatten) := by
  induction n generalizing segments xs with
  | zero => rfl
  | succ n ih =>
    unfold feedAll split
    have hfeed := feed_answers hf.upTo (fun _ => rfl) segments xs
    generalize f (xs ++ segments.flatten) = whole at hfeed ⊢
    cases whole with
    | done v used =>
      obtain ⟨rest, segments', hfeed, hrest⟩ := hfeed
      simp only [hfeed]
      rw [ih, hrest]
    | fail e =>
      obtain ⟨e', hfeed, rfl⟩ := hfeed
      simp only [hfeed]
    | more => simp only [hfeed]

end Incremental
