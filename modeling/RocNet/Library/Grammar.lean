import Mathlib.Data.List.Basic
import RocNet.Library.Fallible

/-!
# Readers of a grammar

A grammar says which phrases, lists of symbols, denote what. A reader is asked for the phrase at a
position of its input, and returns what the phrase denotes and the position after it. `Reads data G p`
says that on the input `data` the reader `p` reads the phrases of `G`, all of them and no others, and
does not crash.

Readers are put together as their grammars are: one after the other (`Reads.bind`), and again and again
up to the end of the input (`Reads.loop_ok_iff`). So is what they do after a first input that has been
read (`Shifts`), and at the end of an input that ends within a phrase (`Cuts`).
-/

namespace Grammar

open Fallible List

variable {σ ε κ α β : Type} {data : List σ} {pos next : ℕ}

/-- A phrase of `G`, and then one of the grammar that `H` has for what it denotes. -/
def Then (G : List σ → α → Prop) (H : α → List σ → β → Prop) (phrase : List σ) (b : β) : Prop :=
  ∃ a front back, phrase = front ++ back ∧ G front a ∧ H a back b

/-- Phrases of `G` one after the other. -/
inductive Many (G : List σ → α → Prop) : List σ → List α → Prop
  | nil : Many G [] []
  | cons {a : α} {as : List α} (h : G front a) (hrest : Many G back as) : Many G (front ++ back) (a :: as)

/-- A reader that reads exactly the phrases of a grammar. -/
structure Reads (data : List σ) (G : List σ → α → Prop) (p : ℕ → Result ε κ (α × ℕ)) : Prop where
  ok_iff {pos next : ℕ} {a : α} : pos ≤ data.length → (p pos = .ok (a, next) ↔
    ∃ phrase, G phrase a ∧ phrase <+: data.drop pos ∧ next = pos + phrase.length)
  no_crash {pos : ℕ} (c : κ) : pos ≤ data.length → p pos ≠ crash c

/-- A loop that reads up to the end of the input, and keeps what it has read. -/
def Repeats (data : List σ) (p : ℕ → Result ε κ (α × ℕ)) (loop : ℕ → List α → Result ε κ (List α)) : Prop :=
  ∀ pos as, loop pos as = if pos < data.length then p pos >>= fun r => loop r.2 (as ++ [r.1]) else Pure.pure as

/-- A phrase in two parts at a position: its second part follows its first. -/
theorem append_isPrefix_drop {front back : List σ} : front ++ back <+: data.drop pos ↔
      front <+: data.drop pos ∧ back <+: data.drop (pos + front.length) := by
  constructor
  · rintro ⟨rest, hrest⟩
    rw [← drop_drop, ← hrest, append_assoc, drop_left]
    exact ⟨prefix_append _ _, prefix_append _ _⟩
  · rintro ⟨⟨rest, hrest⟩, hback⟩
    rw [← drop_drop, ← hrest, drop_left] at hback
    rw [← hrest]
    exact (prefix_append_right_inj front).mpr hback

/-- A phrase at a position ends within the input. -/
theorem add_length_le {phrase : List σ} (h : phrase <+: data.drop pos) (hpos : pos ≤ data.length) :
    pos + phrase.length ≤ data.length := by
  have hlen := h.length_le
  rw [length_drop] at hlen
  omega

namespace Reads

variable {G G' : List σ → α → Prop} {H : α → List σ → β → Prop} {p : ℕ → Result ε κ (α × ℕ)}

lemma next_le {a : α} (hp : Reads data G p) (hpos : pos ≤ data.length) (h : p pos = .ok (a, next)) :
    next ≤ data.length := by
  obtain ⟨phrase, -, hphrase, rfl⟩ := (hp.ok_iff hpos).mp h
  exact add_length_le hphrase hpos

lemma congr (hp : Reads data G p) (h : ∀ phrase a, G phrase a ↔ G' phrase a) : Reads data G' p where
  ok_iff hpos := by simp only [hp.ok_iff hpos, h]
  no_crash := hp.no_crash

lemma fail (e : ε) : Reads data (fun _ (_ : α) => False) (fun _ => (fail e : Result ε κ (α × ℕ))) where
  ok_iff _ := ⟨nofun, fun ⟨_, h, _⟩ => h.elim⟩
  no_crash _ _ := nofun

lemma pure (a : α) :
    Reads data (fun phrase a' => phrase = [] ∧ a' = a)
      (fun pos => (Pure.pure (a, pos) : Result ε κ (α × ℕ))) where
  ok_iff {pos next a'} _ := by
    constructor
    · intro h
      cases h
      exact ⟨[], ⟨rfl, rfl⟩, nil_prefix, rfl⟩
    · rintro ⟨_, ⟨rfl, rfl⟩, -, rfl⟩
      rfl
  no_crash _ _ := nofun

lemma take {count : ℕ} {f : List σ → α}
    (hshort : ∀ {pos}, pos ≤ data.length → data.length < pos + count → ∃ e, p pos = Fallible.fail e)
    (hlong : ∀ {pos}, pos + count ≤ data.length → p pos = .ok (f ((data.drop pos).take count), pos + count)) :
    Reads data (fun phrase a => phrase.length = count ∧ a = f phrase) p where
  ok_iff {pos next a} hpos := by
    constructor
    · intro h
      rcases Nat.lt_or_ge data.length (pos + count) with hlt | hle
      · obtain ⟨e, he⟩ := hshort hpos hlt
        rw [he] at h
        cases h
      · have hlen : ((data.drop pos).take count).length = count := by
          rw [length_take, length_drop]
          omega
        rw [hlong hle] at h
        cases h
        exact ⟨_, ⟨hlen, rfl⟩, take_prefix _ _, by rw [hlen]⟩
    · rintro ⟨phrase, ⟨rfl, rfl⟩, hphrase, rfl⟩
      rw [hlong (add_length_le hphrase hpos), ← prefix_iff_eq_take.mp hphrase]
  no_crash {pos} c hpos := by
    rcases Nat.lt_or_ge data.length (pos + count) with hlt | hle
    · obtain ⟨e, he⟩ := hshort hpos hlt
      rw [he]
      nofun
    · rw [hlong hle]
      nofun

/-- One reader after the other. -/
theorem bind {q : α → ℕ → Result ε κ (β × ℕ)} (hp : Reads data G p) (hq : ∀ a, Reads data (H a) (q a)) :
    Reads data (Then G H) (fun pos => p pos >>= fun r => q r.1 r.2) where
  ok_iff {pos next b} hpos := by
    constructor
    · intro h
      obtain ⟨⟨a, mid⟩, hfirst, hsecond⟩ := bind_eq_ok h
      obtain ⟨front, hG, hfront, rfl⟩ := (hp.ok_iff hpos).mp hfirst
      obtain ⟨back, hH, hback, rfl⟩ := ((hq a).ok_iff (add_length_le hfront hpos)).mp hsecond
      refine ⟨front ++ back, ⟨a, front, back, rfl, hG, hH⟩, append_isPrefix_drop.mpr ⟨hfront, hback⟩, ?_⟩
      rw [length_append, Nat.add_assoc]
    · rintro ⟨_, ⟨a, front, back, rfl, hG, hH⟩, hphrase, rfl⟩
      obtain ⟨hfront, hback⟩ := append_isPrefix_drop.mp hphrase
      rw [(hp.ok_iff hpos).mpr ⟨front, hG, hfront, rfl⟩, length_append, ← Nat.add_assoc]
      exact ((hq a).ok_iff (add_length_le hfront hpos)).mpr ⟨back, hH, hback, rfl⟩
  no_crash {pos} c hpos := by
    match hfirst : p pos with
    | .ok (a, mid) => exact (hq a).no_crash c (hp.next_le hpos hfirst)
    | .error (.err e) => exact nofun
    | .error (.crash c') => exact absurd hfirst (hp.no_crash c' hpos)

section Loop

variable {loop : ℕ → List α → Result ε κ (List α)}

/-- The rule for such loops: phrases are not empty, so what holds at a position whenever it holds after
the phrase there holds at every position. -/
theorem loop_induction (hp : Reads data G p) (hne : ∀ phrase a, G phrase a → phrase ≠ [])
    {motive : ∀ pos ≤ data.length, Prop} (turn : ∀ pos (hpos : pos ≤ data.length),
      (∀ a next (hread : p pos = .ok (a, next)), motive next (hp.next_le hpos hread)) → motive pos hpos) (pos : ℕ)
    (hpos : pos ≤ data.length) : motive pos hpos := by
  induction hn : data.length - pos using Nat.strongRecOn generalizing pos with
  | ind n ih =>
    refine turn pos hpos fun a next hread => ?_
    obtain ⟨phrase, hG, hphrase, rfl⟩ := (hp.ok_iff hpos).mp hread
    have hnext := add_length_le hphrase hpos
    have hlen := length_pos_of_ne_nil (hne phrase a hG)
    exact ih _ (by omega) _ hnext rfl

section

variable (hp : Reads data G p) (hne : ∀ phrase a, G phrase a → phrase ≠ []) (hloop : Repeats data p loop)

include hp hne hloop

/-- What the loop returns is what the phrases up to the end denote. -/
theorem loop_ok_iff (hpos : pos ≤ data.length) {front as : List α} :
    loop pos front = .ok as ↔ ∃ back, Many G (data.drop pos) back ∧ as = front ++ back := by
  induction pos, hpos using hp.loop_induction hne generalizing front as with
  | turn pos hpos ih =>
    rw [hloop]
    split
    · next hlt =>
      constructor
      · intro h
        obtain ⟨⟨a, next⟩, hfirst, hrest⟩ := bind_eq_ok h
        obtain ⟨back, hback, rfl⟩ := (ih a next hfirst).mp hrest
        obtain ⟨phrase, hG, ⟨rest, hdrop⟩, rfl⟩ := (hp.ok_iff hpos).mp hfirst
        refine ⟨a :: back, ?_, append_cons front a back |>.symm⟩
        rw [← hdrop]
        rw [← drop_drop, ← hdrop, drop_left] at hback
        exact .cons hG hback
      · rintro ⟨back, hback, rfl⟩
        generalize hdrop : data.drop pos = input at hback
        cases hback with
        | nil =>
          have hlen := congrArg length hdrop
          rw [length_drop, length_nil] at hlen
          omega
        | @cons phrase rest a as hG hrest =>
          have hphrase : phrase <+: data.drop pos := hdrop ▸ prefix_append phrase rest
          have hfirst := (hp.ok_iff hpos).mpr ⟨phrase, hG, hphrase, rfl⟩
          rw [hfirst, ok_bind]
          refine (ih a _ hfirst).mpr ⟨as, ?_, append_cons front a as⟩
          rwa [← drop_drop, hdrop, drop_left]
    · next hge =>
      have hdrop : data.drop pos = [] := drop_eq_nil_of_le (Nat.not_lt.mp hge)
      rw [hdrop]
      constructor
      · intro h
        cases h
        exact ⟨[], .nil, (append_nil _).symm⟩
      · rintro ⟨back, hback, rfl⟩
        generalize hinput : ([] : List σ) = input at hback
        cases hback with
        | nil =>
          rw [append_nil]
          rfl
        | cons hG hrest => exact absurd (append_eq_nil_iff.mp hinput.symm).1 (hne _ _ hG)

lemma loop_no_crash (c : κ) (hpos : pos ≤ data.length) (front : List α) : loop pos front ≠ crash c := by
  induction pos, hpos using hp.loop_induction hne generalizing front with
  | turn pos hpos ih =>
    rw [hloop]
    split
    · match hfirst : p pos with
      | .ok (a, next) => exact ih a next hfirst _
      | .error (.err e) => exact nofun
      | .error (.crash c') => exact absurd hfirst (hp.no_crash c' hpos)
    · exact nofun

/-- Loops with the same answers within the input return the same. -/
theorem loop_congr {p' : ℕ → Result ε κ (α × ℕ)} {loop' : ℕ → List α → Result ε κ (List α)}
    (hloop' : Repeats data p' loop') (hsame : ∀ {pos}, pos ≤ data.length → p' pos = p pos) (hpos : pos ≤ data.length)
    (front : List α) : loop' pos front = loop pos front := by
  induction pos, hpos using hp.loop_induction hne generalizing front with
  | turn pos hpos ih =>
    rw [hloop, hloop', hsame hpos]
    split
    · match hfirst : p pos with
      | .ok (a, next) => exact ih a next hfirst _
      | .error failure => rfl
    · rfl

lemma loop_skip {phrases : List σ} {front as : List α} (h : Many G phrases as) (hpos : pos ≤ data.length)
    (hphrases : phrases <+: data.drop pos) : loop pos front = loop (pos + phrases.length) (front ++ as) := by
  induction h generalizing pos front with
  | nil => rw [length_nil, Nat.add_zero, append_nil]
  | @cons phrase phrases a as hG hrest ih =>
    obtain ⟨hphrase, hphrases⟩ := append_isPrefix_drop.mp hphrases
    have hnext := add_length_le hphrase hpos
    have hlen := length_pos_of_ne_nil (hne phrase a hG)
    have hread := (hp.ok_iff hpos).mpr ⟨phrase, hG, hphrase, rfl⟩
    rw [hloop, if_pos (by omega), hread, ok_bind, ih hnext hphrases, length_append, ← Nat.add_assoc,
      append_assoc, singleton_append]

end

end Loop

end Reads

/-! ## An input after another -/

/-- A reader that is given its input answers on the second of two inputs as it does on both. -/
def Shifts (front back : List σ) (p : List σ → ℕ → Result ε κ (α × ℕ)) : Prop :=
  ∀ ⦃pos⦄, pos ≤ back.length → p (front ++ back) (front.length + pos) =
    p back pos >>= fun r => Pure.pure (r.1, front.length + r.2)

namespace Shifts

variable {front back : List σ} {G : List σ → α → Prop} {p : List σ → ℕ → Result ε κ (α × ℕ)}

lemma fail (e : ε) : Shifts front back (fun _ _ => (fail e : Result ε κ (α × ℕ))) :=
  fun _ _ => rfl

lemma pure (a : α) : Shifts front back (fun _ pos => (Pure.pure (a, pos) : Result ε κ (α × ℕ))) :=
  fun _ _ => rfl

lemma bind {q : α → List σ → ℕ → Result ε κ (β × ℕ)} (hread : Reads back G (p back))
    (hp : Shifts front back p) (hq : ∀ a, Shifts front back (q a)) :
    Shifts front back (fun data pos => p data pos >>= fun r => q r.1 data r.2) := by
  intro pos hpos
  simp only [hp hpos]
  match hfirst : p back pos with
  | .ok (a, next) => exact hq a (hread.next_le hpos hfirst)
  | .error failure => rfl

/-- A loop goes on, after a first input, as it does on the second one alone. -/
theorem loop {loop : List σ → ℕ → List α → Result ε κ (List α)} (hread : Reads back G (p back))
    (hne : ∀ phrase a, G phrase a → phrase ≠ []) (hp : Shifts front back p)
    (hloop : ∀ data, Repeats data (p data) (loop data)) (hpos : pos ≤ back.length) (as bs : List α) :
    loop (front ++ back) (front.length + pos) (as ++ bs) = loop back pos bs >>= fun cs => Pure.pure (as ++ cs) := by
  induction pos, hpos using hread.loop_induction hne generalizing bs with
  | turn pos hpos ih =>
    rw [hloop, hloop back, length_append, hp hpos]
    by_cases hlt : pos < back.length
    · rw [if_pos (Nat.add_lt_add_left hlt _), if_pos hlt]
      match hfirst : p back pos with
      | .ok (a, next) =>
        have hrest := ih a next hfirst (bs ++ [a])
        rw [← append_assoc] at hrest
        exact hrest
      | .error failure => rfl
    · rw [if_neg (by omega), if_neg hlt]
      rfl

end Shifts

/-! ## Inputs that end early -/

/-- Where the input ends within a phrase, the reader fails with `e`. -/
def Cuts (data : List σ) (G : List σ → α → Prop) (p : ℕ → Result ε κ (α × ℕ)) (e : ε) : Prop :=
  ∀ ⦃pos phrase a⦄, pos ≤ data.length → G phrase a → data.drop pos <+: phrase → data.drop pos ≠ phrase → p pos = fail e

namespace Cuts

variable {e : ε} {G G' : List σ → α → Prop} {H : α → List σ → β → Prop} {p : ℕ → Result ε κ (α × ℕ)}

lemma congr (hp : Cuts data G p e) (h : ∀ phrase a, G' phrase a → G phrase a) : Cuts data G' p e :=
  fun _ _ _ hpos hG => hp hpos (h _ _ hG)

lemma pure (a : α) : Cuts data (fun phrase a' => phrase = [] ∧ a' = a)
    (fun pos => (Pure.pure (a, pos) : Result ε κ (α × ℕ))) e := by
  rintro pos _ _ hpos ⟨rfl, -⟩ hcut hne
  exact absurd (prefix_nil.mp hcut) hne

lemma of_length {count : ℕ} (hshort : ∀ {pos}, pos ≤ data.length → data.length < pos + count → p pos = fail e) :
    Cuts data (fun phrase (_ : α) => phrase.length = count) p e := by
  intro pos phrase a hpos hlen hcut hne
  apply hshort hpos
  have hle := hcut.length_le
  rw [length_drop] at hle
  have hlt : (data.drop pos).length ≠ phrase.length := fun heq => hne (hcut.eq_of_length heq)
  rw [length_drop] at hlt
  omega

/-- One reader after the other: the input ends within the first phrase, or within the second. -/
theorem bind {q : α → ℕ → Result ε κ (β × ℕ)} (hread : Reads data G p) (hp : Cuts data G p e)
    (hq : ∀ a, Cuts data (H a) (q a) e) : Cuts data (Then G H) (fun pos => p pos >>= fun r => q r.1 r.2) e := by
  rintro pos _ b hpos ⟨a, front, back, rfl, hG, hH⟩ hcut hne
  by_cases hfront : front <+: data.drop pos
  · obtain ⟨rest, hrest⟩ := hfront
    have hnext := add_length_le (⟨rest, hrest⟩ : front <+: data.drop pos) hpos
    have hdrop : data.drop (pos + front.length) = rest := by
      rw [← drop_drop, ← hrest, drop_left]
    rw [← hrest] at hcut hne
    have hfirst := (hread.ok_iff hpos).mpr ⟨front, hG, ⟨rest, hrest⟩, rfl⟩
    simp only [hfirst, ok_bind]
    apply hq a hnext hH
    · rw [hdrop]
      exact (prefix_append_right_inj front).mp hcut
    · rw [hdrop]
      exact fun heq => hne (congrArg (front ++ ·) heq)
  · have hshort : data.drop pos <+: front :=
      (List.prefix_or_prefix_of_prefix hcut (prefix_append front back)).resolve_right hfront
    have hcutFirst := hp hpos hG hshort fun heq => hfront (heq ▸ prefix_refl _)
    simp only [hcutFirst]
    rfl

end Cuts

end Grammar
