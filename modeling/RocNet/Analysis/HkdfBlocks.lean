import RocNet.Model.Hkdf

/-!
# What HKDF expands to

The blocks of RFC 5869. After `i` turns of its loop `expand` has the first `i` of them. The counter goes on after the
last block too: lengths that need the 255th crash.
-/

namespace RocNet.Hkdf

open List Fallible UInt8
open NoiseHandshake (Primitives tag)

section Blocks

variable (P : Primitives) (prk info : List UInt8)

/-- `T(i)`. -/
def block : ℕ → List UInt8
  | 0 => []
  | i + 1 => tag P prk (block i ++ info ++ [UInt8.ofNat (i + 1)])

/-- `T(1) ++ … ++ T(n)`. -/
def blocks : ℕ → List UInt8
  | 0 => []
  | n + 1 => blocks n ++ block P prk info (n + 1)

end Blocks

variable {P : Primitives} {prk info : List UInt8} {length : ℕ}

lemma blocks_length (n : ℕ) : (blocks P prk info n).length = 32 * n := by
  induction n with
  | zero => rfl
  | succ n ih =>
    rw [blocks, length_append, ih, block, tag_length]
    omega

lemma blocks_prefix (h : m ≤ n) : blocks P prk info m <+: blocks P prk info n := by
  induction n, h using Nat.le_induction with
  | base => exact prefix_refl _
  | succ n _ ih => exact ih.trans (prefix_append _ _)

/-- The first bytes are the same, however many blocks more there are. -/
theorem take_blocks (h : m ≤ n) (hlength : length ≤ 32 * m) :
    (blocks P prk info m).take length = (blocks P prk info n).take length := by
  obtain ⟨rest, hrest⟩ : blocks P prk info m <+: blocks P prk info n := blocks_prefix h
  rw [← hrest, take_append_of_le_length]
  rwa [blocks_length]

/-- From block `i` on, the loop ends with enough blocks, and before block 255; or it crashes. -/
theorem expandLoop_blocks (hi : i ≤ 254) : (length ≤ 8128 → ∃ m ≤ 254, length ≤ 32 * m ∧
      expandLoop P prk info length (blocks P prk info i) (block P prk info i) (ofNat (i + 1)) =
        .ok (blocks P prk info m)) ∧ (8128 < length →
      expandLoop P prk info length (blocks P prk info i) (block P prk info i) (ofNat (i + 1)) =
        crash .overflow) := by
  induction hi using Nat.decreasingInduction with
  | self =>
    rw [expandLoop, blocks_length]
    refine ⟨fun hlength => ⟨254, le_rfl, hlength, if_neg (by omega)⟩, fun hlength => ?_⟩
    rw [if_pos (by omega)]
    rfl
  | of_succ i hi ih =>
    by_cases hlength : 32 * i < length
    · -- one more turn
      have hcounter : (addU8 (ofNat (i + 1)) 1 : Result Err Overflow UInt8) = .ok (ofNat (i + 1 + 1)) := by
        rw [addU8_of_lt]
        · rw [ofNat_add (i + 1) 1]
          rfl
        · rw [toNat_ofNat_of_lt' (show i + 1 < 256 by omega)]
          exact (by omega : i + 1 + 1 < 256)
      rw [expandLoop, if_pos (by rwa [blocks_length])]
      simp only [hcounter, ok_bind]
      exact ih
    · refine ⟨fun _ => ⟨i, hi.le, by omega, ?_⟩, fun hlong => by omega⟩
      rw [expandLoop, if_neg (by rwa [blocks_length])]
      rfl

lemma expand_of_le (h : length ≤ 8128) : expand P prk info length = .ok ((blocks P prk info 255).take length) := by
  obtain ⟨m, hm, hlength, hrun⟩ : ∃ m ≤ 254, length ≤ 32 * m ∧
      expandLoop P prk info length [] [] 1 = .ok (blocks P prk info m) := (expandLoop_blocks (Nat.zero_le _)).1 h
  rw [expand, if_neg (by omega), hrun, ok_bind, take_blocks (n := 255) (by omega) hlength]
  rfl

lemma expand_of_lt (h : 8128 < length) (hle : length ≤ 8160) : expand P prk info length = crash .overflow := by
  have hrun : expandLoop P prk info length [] [] 1 = crash .overflow := (expandLoop_blocks (Nat.zero_le _)).2 h
  rw [expand, if_neg (by omega), hrun]
  rfl

/-- **HKDF expansion.** Of the lengths that RFC 5869 permits, `expand` returns the first bytes of the blocks for those
that leave out block 255, and no others; longer ones are refused; and shorter results are prefixes of longer ones. -/
theorem expand_eq_blocks_iff (P : Primitives) (prk info : List UInt8) (length : ℕ) :
    (length ≤ 8160 → (expand P prk info length = .ok ((blocks P prk info 255).take length) ↔ length ≤ 8128)) ∧
    (8160 < length → expand P prk info length = fail .tooLong) ∧
    ∀ short ≤ length, ∀ a b, expand P prk info short = .ok a → expand P prk info length = .ok b → a <+: b := by
  refine ⟨fun hle => ⟨fun heq => ?_, expand_of_le⟩, fun hlong => if_pos hlong, fun short hshort a b ha hb => ?_⟩
  · by_contra hlong
    rw [expand_of_lt (by omega) hle] at heq
    cases heq
  · have hlength : length ≤ 8128 := by
      by_contra hlong
      by_cases hle : length ≤ 8160
      · rw [expand_of_lt (by omega) hle] at hb
        cases hb
      · rw [expand, if_pos (by omega)] at hb
        cases hb
    rw [expand_of_le hlength] at hb
    rw [expand_of_le (hshort.trans hlength)] at ha
    cases ha
    cases hb
    exact take_prefix_take_left hshort

/-- The longest length that is permitted overflows, whatever is expanded. -/
theorem expand_longest_overflows : (fun P prk info => expand P prk info 8160) = fun _ _ _ => crash .overflow := by
  funext P prk info
  exact expand_of_lt (by decide) (by decide)

end RocNet.Hkdf
