import Mathlib.Data.List.Basic
import RocNet.Library.Fallible

/-!
# Scanning a growing buffer

A scanner reads a buffer from a position on, and returns a value with the position after it; or it wants more items,
or what is there is bad. `Local start least p` says that `p`, a scanner from `start` on, only looks at what it takes
(at least `least` items). Local scanners are put together from parts (`Local.bind`, `Local.const_bind`).

A local scanner that does not crash may be asked again while the buffer grows: it wants more on every buffer that is
too short for the value it will find (`Local.more_of_lt`), and on every shorter one (`Local.more_of_isPrefix`).
-/

namespace Scanning

open List Fallible Nat

/-- Why a scanner stops without a value. -/
inductive Stop (ε : Type)
  | more
  | bad (e : ε)
  deriving DecidableEq, Repr

variable {τ ε κ α β : Type}

/-- The scanner looks at nothing but the items from `start` on that it takes, `least` of them or more. -/
structure Local (start least : ℕ) (p : List τ → Result (Stop ε) κ (α × ℕ)) : Prop where
  range : ∀ {b : List τ} {a : α} {next : ℕ}, start ≤ b.length → p b = .ok (a, next) →
    start + least ≤ next ∧ next ≤ b.length
  got : ∀ {b : List τ} {a : α} {next : ℕ} (c : List τ), start ≤ b.length → p b = .ok (a, next) →
    p (b.take next ++ c) = .ok (a, next)
  bad : ∀ {b : List τ} {e : ε} (c : List τ), start ≤ b.length → p b = fail (.bad e) → p (b ++ c) = fail (.bad e)

/-! ## Parts of a buffer -/

variable {b c : List τ} {next : ℕ}

/-- What a buffer with the same items up to `next` has from `start` on. -/
theorem drop_take_append {start : ℕ} (hstart : start ≤ next) (hb : next ≤ b.length) :
    (b.take next ++ c).drop start = (b.drop start).take (next - start) ++ c := by
  have hlen : start ≤ (b.take next).length := by
    rw [length_take]
    omega
  rw [drop_append_of_le_length hlen, take_drop, add_sub_of_le hstart]

/-- A part that ends before `next`. -/
theorem take_drop_take_append {start len : ℕ} (hnext : start + len ≤ next) (hb : next ≤ b.length) :
    ((b.take next ++ c).drop start).take len = (b.drop start).take len := by
  have hlen : len ≤ ((b.drop start).take (next - start)).length := by
    rw [length_take, length_drop]
    omega
  rw [drop_take_append (by omega) hb, take_append_of_le_length hlen, take_take, Nat.min_eq_left (by omega)]

namespace Local

variable {start least least' : ℕ} {p : List τ → Result (Stop ε) κ (α × ℕ)}

/-! ## Scanners from parts -/

lemma pure (a : α) (start : ℕ) :
    Local start 0 (fun _ : List τ => (.ok (a, start) : Result (Stop ε) κ (α × ℕ))) where
  range h heq := by
    cases heq
    exact ⟨Nat.le_refl _, h⟩
  got _ _ heq := heq
  bad _ _ heq := heq

lemma error (start least : ℕ) (stop : Failure (Stop ε) κ) :
    Local start least (fun _ : List τ => (.error stop : Result (Stop ε) κ (α × ℕ))) where
  range _ heq := by cases heq
  got _ _ heq := by cases heq
  bad _ _ heq := heq

lemma mono (h : Local start least p) (hle : least' ≤ least) : Local start least' p where
  range hb heq := by
    have hrange := h.range hb heq
    omega
  got := h.got
  bad := h.bad

variable {a : α}

/-- A value is found in every buffer that starts the same way. -/
theorem append (h : Local start least p) (c : List τ)
    (hb : start ≤ b.length) (heq : p b = .ok (a, next)) : p (b ++ c) = .ok (a, next) := by
  have hgot := h.got (b.drop next ++ c) hb heq
  rwa [← append_assoc, take_append_drop] at hgot

lemma bind {q : α → ℕ → List τ → Result (Stop ε) κ (β × ℕ)} (hp : Local start least p)
    (hq : ∀ a next, start + least ≤ next → Local next least' (q a next)) :
    Local start (least + least') (fun b => p b >>= fun x => q x.1 x.2 b) where
  range := by
    intro b a next hb heq
    obtain ⟨⟨x, middle⟩, hx, hrest⟩ := bind_eq_ok heq
    obtain ⟨hstart, hmiddle⟩ := hp.range hb hx
    have hrange := (hq x middle hstart).range hmiddle hrest
    omega
  got := by
    intro b a next c hb heq
    obtain ⟨⟨x, middle⟩, hx, hrest⟩ := bind_eq_ok heq
    obtain ⟨hstart, hmiddle⟩ := hp.range hb hx
    have hlocal := hq x middle hstart
    have hrange := hlocal.range hmiddle hrest
    -- the first part sees the same items, since the second one takes what comes after them
    have hfirst := hp.got ((b.take next).drop middle ++ c) hb hx
    have hsame : b.take middle ++ ((b.take next).drop middle ++ c) = b.take next ++ c := by
      rw [← append_assoc, ← Nat.min_eq_left (show middle ≤ next by omega), ← take_take,
        Nat.min_eq_left (show middle ≤ next by omega), take_append_drop]
    rw [hsame] at hfirst
    simp only [hfirst, ok_bind]
    exact hlocal.got c hmiddle hrest
  bad := by
    intro b e c hb heq
    cases hx : p b with
    | error stop =>
      simp only [hx] at heq
      cases heq
      simp only [hp.bad c hb hx]
      rfl
    | ok x =>
      obtain ⟨x, middle⟩ := x
      obtain ⟨hstart, hmiddle⟩ := hp.range hb hx
      simp only [hx, ok_bind] at heq
      simp only [hp.append c hb hx, ok_bind]
      exact (hq x middle hstart).bad c hmiddle heq

/-- A computation that does not look at the buffer may come first. -/
theorem const_bind {x : Result (Stop ε) κ α} {q : α → List τ → Result (Stop ε) κ (β × ℕ)}
    (hq : ∀ a, x = .ok a → Local start least (q a)) : Local start least (fun b => x >>= fun a => q a b) := by
  cases x with
  | error stop => exact error start least stop
  | ok a => exact hq a rfl

/-! ## Asking again while the buffer grows -/

lemma more_of_ne (hcrash : ∀ c : κ, p b ≠ crash c)
    (hok : ∀ a next, p b ≠ .ok (a, next)) (hbad : ∀ e, p b ≠ fail (.bad e)) : p b = fail .more := by
  match hx : p b with
  | .ok (a, next) => exact absurd hx (hok a next)
  | .error (.err .more) => rfl
  | .error (.err (.bad e)) => exact absurd hx (hbad e)
  | .error (.crash c) => exact absurd hx (hcrash c)

/-- A buffer too short for the value is one where more is wanted. -/
theorem more_of_lt (h : Local 0 least p) {m : ℕ} (heq : p b = .ok (a, next))
    (hm : m < next) (hcrash : ∀ c : κ, p (b.take m) ≠ crash c) : p (b.take m) = fail .more := by
  refine more_of_ne hcrash ?_ ?_
  · intro a' next' hprefix
    have hwhole := h.append (b.drop m) (zero_le _) hprefix
    rw [take_append_drop, heq] at hwhole
    cases hwhole
    have hrange := (h.range (zero_le _) hprefix).2
    rw [length_take] at hrange
    omega
  · intro e hprefix
    have hwhole := h.bad (b.drop m) (zero_le _) hprefix
    rw [take_append_drop, heq] at hwhole
    cases hwhole

/-- Where more is wanted, more is wanted on every shorter buffer. -/
theorem more_of_isPrefix (h : Local 0 least p) {b' : List τ} (heq : p b = fail .more) (hb : b' <+: b)
    (hcrash : ∀ c : κ, p b' ≠ crash c) : p b' = fail .more := by
  obtain ⟨c, rfl⟩ := hb
  refine more_of_ne hcrash ?_ ?_
  · intro a next hshort
    rw [h.append c (zero_le _) hshort] at heq
    cases heq
  · intro e hshort
    rw [h.bad c (zero_le _) hshort] at heq
    cases heq

end Local

end Scanning
