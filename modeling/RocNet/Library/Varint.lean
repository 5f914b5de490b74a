import Mathlib.Data.Nat.Digits.Defs

/-!
# Numbers as bytes

A varint is a number in base 128, its lowest digit first: every byte carries a digit, and all but the
last byte have their top bit set. Digits that are zero may be written out, so a number has many varints;
the shortest one is `canonical`. `Varint64` are the varints that a reader of 64 bits takes: of ten bytes
at most, with one bit in the tenth. All numbers below 2^64 have one, and they denote nothing else
(`Varint64.lt`, `canonical_varint64`).

Numbers of fixed width are in base 256, their lowest digit first (`base256`).
-/

namespace Varint

open List Option Nat UInt8

variable {b : UInt8} {bs : List UInt8} {n k : ℕ}

/-! ## Base 128 -/

/-- The number whose digits the bytes carry. -/
def base128 (bs : List UInt8) : ℕ := Nat.ofDigits 128 (bs.map fun b => b.toNat % 128)

@[simp] lemma base128_nil : base128 [] = 0 := rfl

@[simp] lemma base128_cons : base128 (b :: bs) = b.toNat % 128 + 128 * base128 bs := by
  unfold base128
  rw [map_cons, ofDigits_cons]

/-- Every byte but the last says that another one follows. -/
inductive Continued : List UInt8 → Prop
  | last {b : UInt8} (h : b < 128) : Continued [b]
  | more {b : UInt8} {bs : List UInt8} (h : 128 ≤ b) (hbs : Continued bs) : Continued (b :: bs)

/-- The varints of 64 bits. -/
structure Varint64 (bs : List UInt8) : Prop where
  continued : Continued bs
  length_le : bs.length ≤ 10
  tenth : ∀ b ∈ bs[9]?, b ≤ 1

lemma continued_cons_iff : Continued (b :: bs) ↔ (b < 128 ∧ bs = []) ∨ (128 ≤ b ∧ Continued bs) := by
  constructor
  · rintro (h | ⟨h, hbs⟩)
    · exact .inl ⟨h, rfl⟩
    · exact .inr ⟨h, hbs⟩
  · rintro (⟨h, rfl⟩ | ⟨h, hbs⟩)
    · exact .last h
    · exact .more h hbs

lemma Continued.ne_nil (h : Continued bs) : bs ≠ [] := by
  cases h <;> exact cons_ne_nil _ _

/-- What follows the first `k` bytes of a varint of 64 bits. -/
structure From (k : ℕ) (bs : List UInt8) : Prop where
  continued : Continued bs
  length_le : k + bs.length ≤ 10
  tenth : ∀ b ∈ bs[9 - k]?, b ≤ 1

lemma from_zero_iff : From 0 bs ↔ Varint64 bs :=
  ⟨fun h => ⟨h.continued, zero_add bs.length ▸ h.length_le, h.tenth⟩,
    fun h => ⟨h.continued, (zero_add bs.length).symm ▸ h.length_le, h.tenth⟩⟩

lemma from_cons_iff (hk : k ≤ 9) :
    From k (b :: bs) ↔ ¬(k = 9 ∧ 1 < b) ∧ ((b < 128 ∧ bs = []) ∨ (128 ≤ b ∧ From (k + 1) bs)) := by
  have htenth : k ≤ 8 → (b :: bs)[9 - k]? = bs[9 - (k + 1)]? := fun hk8 => by
    rw [show 9 - k = 9 - (k + 1) + 1 by omega, List.getElem?_cons_succ]
  constructor
  · rintro ⟨hbs, hlen, hb⟩
    rw [length_cons] at hlen
    constructor
    · rintro ⟨rfl, hb'⟩
      exact UInt8.not_le.mpr hb' (hb b rfl)
    · refine (continued_cons_iff.mp hbs).imp_right fun ⟨hmore, hbs⟩ => ⟨hmore, hbs, by omega, ?_⟩
      have hpos := length_pos_iff.mpr hbs.ne_nil
      rwa [← htenth (by omega)]
  · rintro ⟨hover, ⟨hlast, rfl⟩ | ⟨hmore, hbs, hlen, hb⟩⟩
    · refine ⟨.last hlast, succ_le_succ hk, fun b' hb' => ?_⟩
      obtain ⟨hk9, rfl⟩ : 9 - k = 0 ∧ b = b' := by
        rwa [mem_def, List.getElem?_singleton, ite_none_right_eq_some, some.injEq] at hb'
      exact UInt8.not_lt.mp fun h => hover ⟨by omega, h⟩
    · have hpos := length_pos_iff.mpr hbs.ne_nil
      refine ⟨.more hmore hbs, ?_, ?_⟩
      · rw [length_cons]
        omega
      · rwa [htenth (by omega)]

/-- Bytes with a last place for one bit denote a number below twice the value of that place. -/
theorem base128_lt_of_place (hlen : bs.length ≤ k + 1) (hplace : ∀ b ∈ bs[k]?, b ≤ 1) : base128 bs < 2 * 128 ^ k := by
  induction k generalizing bs with
  | zero =>
    match bs, hlen with
    | [], _ => decide
    | [b], _ =>
      have hb : b ≤ 1 := hplace b rfl
      rw [le_iff_toNat_le] at hb
      have hone : (1 : UInt8).toNat = 1 := rfl
      rw [base128_cons, base128_nil]
      omega
  | succ k ih =>
    match bs with
    | [] =>
      rw [base128_nil]
      positivity
    | b :: bs =>
      have hrest := ih (le_of_succ_le_succ hlen) hplace
      rw [base128_cons, pow_succ]
      omega

lemma Varint64.lt (h : Varint64 bs) : base128 bs < 2 ^ 64 :=
  base128_lt_of_place h.length_le h.tenth

/-! ## The shortest varint -/

/-- The varint of a number without superfluous digits. -/
def canonical (n : ℕ) : List UInt8 :=
  if n < 128 then [UInt8.ofNat n] else UInt8.ofNat (n % 128 + 128) :: canonical (n / 128)

lemma canonical_of_lt (h : n < 128) : canonical n = [ofNat n] := by
  rw [canonical, if_pos h]

lemma canonical_of_le (h : 128 ≤ n) : canonical n = ofNat (n % 128 + 128) :: canonical (n / 128) := by
  rw [canonical, if_neg (not_lt.mpr h)]

lemma toNat_ofNat (h : n < 256) : (ofNat n).toNat = n := by
  rw [toNat_ofNat']
  omega

lemma canonical_continued (n : ℕ) : Continued (canonical n) := by
  induction n using Nat.strongRecOn with
  | ind n ih =>
    by_cases h : n < 128
    · rw [canonical_of_lt h]
      apply Continued.last
      rw [lt_iff_toNat_lt, toNat_ofNat (by omega)]
      exact h
    · rw [canonical_of_le (by omega)]
      apply Continued.more _ (ih _ (by omega))
      rw [le_iff_toNat_le, toNat_ofNat (by omega)]
      exact le_add_left 128 _

@[simp] lemma base128_canonical (n : ℕ) : base128 (canonical n) = n := by
  induction n using Nat.strongRecOn with
  | ind n ih =>
    by_cases h : n < 128
    · rw [canonical_of_lt h, base128_cons, base128_nil, toNat_ofNat (by omega)]
      omega
    · rw [canonical_of_le (by omega), base128_cons, ih _ (by omega), toNat_ofNat (by omega)]
      omega

/-- A number below twice the value of a place has no digits after that place, and one bit at most in it. -/
theorem canonical_place (h : n < 2 * 128 ^ k) : (canonical n).length ≤ k + 1 ∧ ∀ b ∈ (canonical n)[k]?, b ≤ 1 := by
  induction k generalizing n with
  | zero =>
    rw [canonical_of_lt (by omega)]
    refine ⟨le_refl 1, fun b hb => ?_⟩
    obtain rfl : ofNat n = b := some.inj hb
    rw [le_iff_toNat_le, toNat_ofNat (by omega)]
    exact le_of_lt_succ h
  | succ k ih =>
    by_cases hn : n < 128
    · rw [canonical_of_lt hn]
      exact ⟨le_add_left 1 _, nofun⟩
    · rw [canonical_of_le (by omega)]
      rw [pow_succ] at h
      obtain ⟨hlen, hplace⟩ := ih (n := n / 128) (by omega)
      exact ⟨succ_le_succ hlen, hplace⟩

lemma canonical_varint64 (h : n < 2 ^ 64) : Varint64 (canonical n) :=
  have hplace := canonical_place (k := 9) h
  ⟨canonical_continued n, hplace.1, hplace.2⟩

/-- No varint of a number is shorter than its canonical one. -/
theorem Continued.canonical_length_le (h : Continued bs) : (canonical (base128 bs)).length ≤ bs.length := by
  induction h with
  | @last b h =>
    rw [base128_cons, base128_nil, canonical_of_lt (by omega)]
    exact le_refl 1
  | @more b bs h hbs ih =>
    rw [base128_cons]
    by_cases hn : b.toNat % 128 + 128 * base128 bs < 128
    · rw [canonical_of_lt hn]
      exact le_add_left 1 _
    · have hdiv : (b.toNat % 128 + 128 * base128 bs) / 128 = base128 bs := by omega
      rw [canonical_of_le (by omega), hdiv]
      exact succ_le_succ ih

/-! ## Base 256 -/

/-- The number whose digits the bytes are. -/
def base256 (bs : List UInt8) : ℕ := Nat.ofDigits 256 (bs.map UInt8.toNat)

@[simp] lemma base256_nil : base256 [] = 0 := rfl

@[simp] lemma base256_cons : base256 (b :: bs) = b.toNat + 256 * base256 bs := by
  unfold base256
  rw [map_cons, ofDigits_cons]

lemma base256_lt (bs : List UInt8) : base256 bs < 256 ^ bs.length := by
  have h := ofDigits_lt_base_pow_length (b := 256) (l := bs.map toNat) (by decide)
    fun d hd => by
      obtain ⟨b, -, rfl⟩ := List.mem_map.mp hd
      exact b.toNat_lt
  rwa [length_map] at h

end Varint
