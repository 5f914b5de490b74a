import RocNet.Analysis.RespScanning

/-!
# The RESP parser, asked again and again

The parser does not crash, however large the counts and lengths are that the bytes declare, and a reader may ask it
again and again while bytes come in. That Roc's `to_str` and `from_str` are inverse to each other is an assumption
(`Builtins.Inverse`).
-/

namespace RocNet.Resp

open List Fallible Scanning

variable {B : Builtins} {b text : List UInt8} {start : ℕ}

/-! ## No crash -/

/-- A list that fits into memory: an allocation has at most 2^63 - 1 bytes, and a list's reference count
takes some of them. -/
def Fits (b : List UInt8) : Prop := b.length < 2 ^ 63 - 1

instance : DecidablePred Fits := fun b => inferInstanceAs (Decidable (b.length < 2 ^ 63 - 1))

lemma Fits.of_isPrefix (h : Fits b) (hb : b' <+: b) : Fits b' :=
  Nat.lt_of_le_of_lt hb.length_le h

/-- `to_u64_wrap` does not wrap what is not negative. -/
theorem toNat_toUInt64 {n : Int64} (h : n ≥ 0) : (n.toUInt64.toNat : Int) = n.toInt := by
  have hpos : 0 ≤ n.toBitVec.toInt := Int64.le_iff_toInt_le.mp h
  have hcond := BitVec.toInt_eq_toNat_cond n.toBitVec
  have hlt := n.toBitVec.isLt
  change (n.toBitVec.toNat : Int) = n.toBitVec.toInt
  split at hcond <;> omega

variable {n pos after : ℕ} {nullAllowed : Bool}

lemma count_lt (h : count B text = .ok n) : n < 2 ^ 63 := by
  unfold count at h
  split at h
  · next m hm =>
    split at h
    · next hpos =>
      cases h
      have heq := toNat_toUInt64 hpos
      have hlt := m.toInt_lt
      omega
    · cases h
  · cases h

lemma orBad_meets {α : Type} (x : Except String α) : Meets False (orBad x) fun a => x = .ok a := by
  cases x with
  | ok a => rfl
  | error reason => exact Fallible.meets_fail

lemma byteAt_meets (hfits : Fits b) : Meets False (byteAt b pos) fun p => p.2 ≤ b.length := by
  unfold Fits at hfits
  unfold byteAt
  split
  · exact Fallible.meets_fail
  · next byte hbyte =>
    obtain ⟨hlt, -⟩ := List.getElem?_eq_some_iff.mp hbyte
    rw [add64_of_lt (by omega), Fallible.ok_bind]
    exact hlt

lemma lineAt_meets (hfits : Fits b) (hstart : start ≤ b.length) :
    Meets False (lineAt b start) fun p => p.2 ≤ b.length := by
  have hloop : Meets False (lineAt b start) fun _ => True := by
    obtain ⟨text, tail, hb, hmem, htail⟩ := exists_cr (b.drop start)
    have hlen := congrArg length hb
    rw [length_drop, length_append] at hlen
    unfold Fits at hfits
    rw [lineAt, hb, lineLoop_skips hmem, if_pos (.inr (by omega))]
    rcases htail with rfl | rfl | ⟨rest, rfl⟩ | ⟨x, rest, hx, rfl⟩
    · exact Fallible.meets_fail
    · rw [lineLoop_cr_nil, if_pos (by omega)]
      exact Fallible.meets_fail
    · rw [lineLoop_crlf (Nat.le_add_right _ _), if_pos (by omega)]
      trivial
    · rw [lineLoop_cr hx, if_pos (by omega)]
      exact Fallible.meets_fail
  exact hloop.with_eq.mono fun p hp => ((lineAt_local start).range hstart hp.1).2

lemma bulkAt_meets {wrap : List UInt8 → Value B.F64} (hfits : Fits b)
    (hafter : after ≤ b.length) : Meets False (bulkAt b text after wrap nullAllowed) fun p => p.2 ≤ b.length := by
  unfold bulkAt
  split
  · exact hafter
  · refine (orBad_meets _).bind fun len hlen => ?_
    have hlt := count_lt hlen
    unfold Fits at hfits
    rw [add64_of_lt (by omega), Fallible.ok_bind, add64_of_lt (by omega), Fallible.ok_bind]
    split
    · exact Fallible.meets_fail
    · next hlong =>
      split
      · exact Fallible.meets_fail
      · exact Nat.le_of_not_lt hlong

section Nested

variable {parse : ℕ → Result (Stop String) Overflow (Value B.F64 × ℕ)}
  (hparse : ∀ pos ≤ b.length, Meets False (parse pos) fun p => p.2 ≤ b.length)
include hparse

lemma itemsFrom_meets (n : ℕ) (items : List (Value B.F64)) (hpos : pos ≤ b.length) :
    Meets False (itemsFrom parse n pos items) fun p => p.2 ≤ b.length := by
  induction n generalizing pos items with
  | zero => exact hpos
  | succ n ih => exact (hparse pos hpos).bind fun p hp => ih _ hp

lemma itemsAt_meets {wrap : List (Value B.F64) → Value B.F64}
    (hafter : after ≤ b.length) : Meets False (itemsAt parse text after wrap nullAllowed) fun p => p.2 ≤ b.length := by
  unfold itemsAt
  split
  · exact hafter
  · exact (orBad_meets _).bind fun n _ => (itemsFrom_meets hparse n [] hafter).bind fun p hp => hp

lemma pairsAt_meets (hafter : after ≤ b.length) : Meets False (pairsAt parse text after) fun p => p.2 ≤ b.length := by
  unfold pairsAt
  refine (orBad_meets _).bind fun n hn => ?_
  have hlt := count_lt hn
  rw [mul64_of_lt (by omega), Fallible.ok_bind]
  exact itemsFrom_meets hparse (n * 2) [] hafter

lemma parseKind_meets (hfits : Fits b) (hafter : after ≤ b.length) :
    Meets False (parseKind b parse kind text after) fun p => p.2 ≤ b.length := by
  have htoGot : ∀ (s : Option String) (wrap : String → Value B.F64),
      Meets False (toGot s wrap after) fun p => p.2 ≤ b.length := by
    intro s wrap
    cases s with
    | none => exact Fallible.meets_fail
    | some s => exact hafter
  cases kind with
  | simpleString | error => exact htoGot _ _
  | integer => exact (orBad_meets _).bind fun n _ => hafter
  | bulkString | bulkError => exact bulkAt_meets hfits hafter
  | verbatim =>
    refine (bulkAt_meets hfits hafter).bind fun p hp => ?_
    unfold verbatimOf
    split
    · split
      · split
        · exact hp
        · exact Fallible.meets_fail
      · exact Fallible.meets_fail
    · exact Fallible.meets_fail
  | null =>
    unfold parseKind
    dsimp only
    split
    · exact hafter
    · exact Fallible.meets_fail
  | boolean =>
    unfold parseKind
    dsimp only
    split
    · exact hafter
    · split
      · exact hafter
      · exact Fallible.meets_fail
  | double => exact (orBad_meets _).bind fun f _ => hafter
  | bigNumber =>
    unfold parseKind
    dsimp only
    split
    · split
      · exact hafter
      · exact Fallible.meets_fail
    · exact Fallible.meets_fail
  | array | set | push => exact itemsAt_meets hparse hafter
  | map => exact (pairsAt_meets hparse hafter).bind fun p hp => hp
  | attributes => exact (pairsAt_meets hparse hafter).bind fun p hp => hparse _ hp

end Nested

/-- **The parser does not crash**, whatever counts and lengths the bytes declare. -/
theorem parseAt_meets (hfits : Fits b) (hpos : pos ≤ b.length) :
    Meets False (parseAt B levels b pos) fun p => p.2 ≤ b.length := by
  induction levels generalizing pos with
  | zero => exact Fallible.meets_fail
  | succ levels ih =>
    unfold parseAt
    refine (byteAt_meets hfits).bind fun byte hbyte => ?_
    refine (lineAt_meets hfits hbyte).bind fun line hline => ?_
    cases kindOf byte.1 with
    | none => exact Fallible.meets_fail
    | some kind => exact parseKind_meets (fun pos hpos => ih hpos) hfits hline

/-! ## Asking again -/

lemma parse_parsed_iff : parse B b = .ok (.parsed v n) ↔ parseAt B (maxDepth + 1) b 0 = .ok (v, n) := by
  unfold parse
  split <;> simp_all

lemma parse_malformed_iff :
    parse B b = .ok (.malformed reason) ↔ parseAt B (maxDepth + 1) b 0 = fail (.bad reason) := by
  unfold parse
  split <;> simp_all [fail]

lemma parse_needMore_iff : parse B b = .ok .needMore ↔ parseAt B (maxDepth + 1) b 0 = fail .more := by
  unfold parse
  split <;> simp_all [fail]

/-- **The RESP parser is a sound incremental parser.** On every byte list it has an answer, without a
crash. A value takes three bytes or more, is found in its own bytes with anything after them, and every
strict prefix of its bytes needs more. What is malformed stays so when more bytes come, and where more is
needed, it is needed for every prefix. -/
theorem resp_parser_incremental (B : Builtins) (b : List UInt8) (hfits : Fits b) : (∃ answer, parse B b = .ok answer) ∧
    (∀ v n, parse B b = .ok (.parsed v n) → 3 ≤ n ∧ n ≤ b.length ∧ (∀ c, parse B (b.take n ++ c) = .ok (.parsed v n)) ∧
      ∀ m, m < n → parse B (b.take m) = .ok .needMore) ∧ (∀ reason, parse B b = .ok (.malformed reason) →
      ∀ c, parse B (b ++ c) = .ok (.malformed reason)) ∧
    (parse B b = .ok .needMore → ∀ b', b' <+: b → parse B b' = .ok .needMore) := by
  have hlocal : Local 0 3 fun b => parseAt B (maxDepth + 1) b 0 := parseAt_local _ _
  have hcrash : ∀ b', b' <+: b → ∀ c, parseAt B (maxDepth + 1) b' 0 ≠ crash c :=
    fun b' hb' c => (parseAt_meets (hfits.of_isPrefix hb') (Nat.zero_le _)).ne_crash c
  refine ⟨?_, fun v n h => ?_, fun reason h c => ?_, fun h b' hb' => ?_⟩
  · unfold parse
    split
    · exact ⟨_, rfl⟩
    · exact ⟨_, rfl⟩
    · exact ⟨_, rfl⟩
    · next c hc => exact absurd hc (hcrash b (prefix_refl b) c)
  · rw [parse_parsed_iff] at h
    obtain ⟨hthree, hlen⟩ := hlocal.range (Nat.zero_le _) h
    refine ⟨by omega, hlen, fun c => parse_parsed_iff.mpr (hlocal.got c (Nat.zero_le _) h), ?_⟩
    intro m hm
    exact parse_needMore_iff.mpr (hlocal.more_of_lt h hm (hcrash _ (List.take_prefix m b)))
  · rw [parse_malformed_iff] at h ⊢
    exact hlocal.bad c (Nat.zero_le _) h
  · rw [parse_needMore_iff] at h ⊢
    exact hlocal.more_of_isPrefix h hb' (hcrash b' hb')

/-- The integer that a decimal text writes. -/
def decimal (s : String) : Int :=
  match s.toList with
  | '-' :: digits => -(Nat.ofDigitChars 10 digits 0 : Int)
  | digits => Nat.ofDigitChars 10 digits 0

/-- Integers in decimal, and one float. -/
def integersOnly : Builtins where
  F64 := Unit
  infinity := ()
  nan := ()
  neg _ := ()
  isNan _ := true
  eq _ _ := true
  f64ToStr _ := "nan"
  f64FromStr _ := none
  i64FromStr s := let n := Int64.ofInt (decimal s)
    if i64ToStr n = s then some n else none

/-- `+OK` and its prefix without the last byte. -/
theorem resp_parser_incremental_ok : parse integersOnly [43, 79, 75, 13, 10] = .ok (.parsed (.simpleString "OK") 5) ∧
      parse integersOnly [43, 79, 75, 13] = .ok .needMore := by
  have hparse : parse integersOnly [43, 79, 75, 13, 10] = .ok (.parsed (.simpleString "OK") 5) := rfl
  exact ⟨hparse, ((resp_parser_incremental integersOnly [43, 79, 75, 13, 10] (by decide)).2.1 _ _
    hparse).2.2.2 4 (by decide)⟩

/-! ## Texts and numbers -/

open Nat UInt32 Int64

/-- Roc's `to_str` and `from_str` are inverse on `I64` and on the texts of floats, which have no `\r`
and are not the names of the special ones. There is one NaN, and one infinity of each sign. -/
structure Builtins.Inverse (B : Builtins) : Prop where
  i64 : ∀ n, B.i64FromStr (i64ToStr n) = some n
  nan : ∀ f, B.isNan f = true → f = B.nan
  infinity : ∀ f, B.eq f B.infinity = true → f = B.infinity
  negInfinity : ∀ f, B.eq f (B.neg B.infinity) = true → f = B.neg B.infinity
  f64 : ∀ f, B.isNan f = false → B.eq f B.infinity = false → B.eq f (B.neg B.infinity) = false → B.f64FromStr
    (B.f64ToStr f) = some f ∧ B.f64ToStr f ≠ "inf" ∧ B.f64ToStr f ≠ "-inf" ∧ B.f64ToStr f ≠ "nan" ∧ 13 ∉ utf8
    (B.f64ToStr f)

lemma utf8_append (s t : String) : utf8 (s ++ t) = utf8 s ++ utf8 t := by
  unfold utf8
  rw [String.toUTF8_eq_toByteArray, String.toByteArray_append]
  simp

lemma textOf_utf8 (s : String) : textOf (utf8 s) = some s := by
  unfold textOf utf8
  rw [Array.toArray_toList]
  exact dif_pos s.isValidUTF8

lemma line_eq (kind text : String) : line kind text = utf8 kind ++ utf8 text ++ [13, 10] := by
  unfold line
  rw [utf8_append, utf8_append]
  rfl

lemma utf8_ofList (cs : List Char) : utf8 (String.ofList cs) = cs.flatMap String.utf8EncodeChar := by
  unfold utf8
  rw [String.toUTF8_eq_toByteArray, String.toByteArray_ofList]
  simp [utf8Encode]

lemma digit_of_mem (h : x ∈ utf8 (u64ToStr n)) : 48 ≤ x ∧ x ≤ 57 := by
  have hrepr : u64ToStr n = String.ofList (toDigits 10 n) := rfl
  rw [hrepr, utf8_ofList, mem_flatMap] at h
  obtain ⟨c, hc, hx⟩ := h
  have hdigit := isDigit_of_mem_toDigits (by decide) (by decide) hc
  simp only [Char.isDigit, Bool.and_eq_true, decide_eq_true_eq] at hdigit
  have hlow : 48 ≤ c.val.toNat := le_iff_toNat_le.mp hdigit.1
  have hhigh : c.val.toNat ≤ 57 := UInt32.le_iff_toNat_le.mp hdigit.2
  have hsize : c.utf8Size = 1 :=
    Char.utf8Size_eq_one_iff.mpr (UInt32.le_iff_toNat_le.mpr (Nat.le_trans hhigh (by decide)))
  rw [String.utf8EncodeChar_eq_singleton hsize, mem_singleton] at hx
  have hbyte : x.toNat = c.val.toNat := by
    rw [hx, toNat_toUInt8]
    omega
  rw [UInt8.le_iff_toNat_le, UInt8.le_iff_toNat_le, hbyte]
  exact ⟨hlow, hhigh⟩

lemma cr_notMem_u64ToStr (n : ℕ) : 13 ∉ utf8 (u64ToStr n) :=
  fun h => absurd (digit_of_mem h).1 (by decide)

lemma i64ToStr_eq (n : Int64) : (∃ m, i64ToStr n = u64ToStr m) ∨ ∃ m, i64ToStr n = "-" ++ u64ToStr m := by
  unfold i64ToStr
  cases n.toInt with
  | ofNat m => exact .inl ⟨m, rfl⟩
  | negSucc m => exact .inr ⟨m.succ, rfl⟩

lemma cr_notMem_i64ToStr (n : Int64) : 13 ∉ utf8 (i64ToStr n) := by
  rcases i64ToStr_eq n with ⟨m, hm⟩ | ⟨m, hm⟩
  · rw [hm]
    exact cr_notMem_u64ToStr m
  · rw [hm, utf8_append]
    intro h
    rcases mem_append.mp h with h | h
    · exact absurd h (by decide)
    · exact cr_notMem_u64ToStr m h

lemma cr_notMem_of_isIntegerText (h : isIntegerText s) : 13 ∉ utf8 s := by
  unfold isIntegerText at h
  rw [Bool.and_eq_true, List.all_eq_true] at h
  have hdigits := h.2
  intro hmem
  split at hdigits
  · next rest heq =>
    rw [heq] at hmem
    rcases mem_cons.mp hmem with hcr | hcr
    · cases hcr
    · exact absurd (hdigits 13 hcr) (by decide)
  · exact absurd (hdigits 13 hmem) (by decide)

lemma count_u64ToStr (hB : B.Inverse) (hn : n < 2 ^ 63) : count B (utf8 (u64ToStr n)) = .ok n := by
  have hint : (Int64.ofNat n).toInt = n := Int64.toInt_ofNat_of_lt hn
  have htext : u64ToStr n = i64ToStr (Int64.ofNat n) := by
    unfold i64ToStr
    rw [hint]
    rfl
  have hpos : Int64.ofNat n ≥ 0 := by
    apply Int64.le_iff_toInt_le.mpr
    rw [hint]
    exact Int.natCast_nonneg n
  have hnat := toNat_toUInt64 hpos
  rw [hint] at hnat
  unfold count number
  rw [htext, textOf_utf8]
  simp only [hB.i64, if_pos hpos]
  exact congrArg Except.ok (by exact_mod_cast hnat)

lemma u64ToStr_ne_minusOne (n : ℕ) : (utf8 (u64ToStr n) == [45, 49]) = false := by
  rw [beq_eq_false_iff_ne]
  intro h
  have hmem : (45 : UInt8) ∈ utf8 (u64ToStr n) := h ▸ mem_cons_self
  exact absurd (digit_of_mem hmem).1 (by decide)

lemma double_doubleText (hB : B.Inverse) (f : B.F64) : double B (utf8 (doubleText f)) = .ok f := by
  unfold double doubleText
  rw [textOf_utf8]
  cases hnan : B.isNan f with
  | true => simp [hB.nan f hnan]
  | false =>
    cases hinf : B.eq f B.infinity with
    | true => simp [hB.infinity f hinf]
    | false =>
      cases hneg : B.eq f (B.neg B.infinity) with
      | true => simp [hB.negInfinity f hneg]
      | false =>
        obtain ⟨hback, h₁, h₂, h₃, -⟩ := hB.f64 f hnan hinf hneg
        simp [h₁, h₂, h₃, hback]

lemma cr_notMem_doubleText (hB : B.Inverse) (f : B.F64) : 13 ∉ utf8 (doubleText f) := by
  unfold doubleText
  cases hnan : B.isNan f with
  | true => exact (by decide : 13 ∉ utf8 "nan")
  | false =>
    cases hinf : B.eq f B.infinity with
    | true => exact (by decide : 13 ∉ utf8 "inf")
    | false =>
      cases hneg : B.eq f (B.neg B.infinity) with
      | true => exact (by decide : 13 ∉ utf8 "-inf")
      | false => exact (hB.f64 f hnan hinf hneg).2.2.2.2

lemma decimal_repr (n : Int) : decimal n.repr = n := by
  cases n with
  | ofNat m =>
    have hlist : (Int.ofNat m).repr.toList = toDigits 10 m := toList_repr
    unfold decimal
    rw [hlist]
    split
    · next digits heq =>
      have hminus : '-' ∈ toDigits 10 m := heq ▸ mem_cons_self
      exact absurd (isDigit_of_mem_toDigits (by decide) (by decide) hminus) (by decide)
    · rw [ofDigitChars_toDigits (by decide) (by decide)]
      rfl
  | negSucc m =>
    have hlist : (Int.negSucc m).repr.toList = '-' :: toDigits 10 (m + 1) := by
      change ("-" ++ (m + 1).repr).toList = _
      rw [String.toList_append, toList_repr]
      rfl
    unfold decimal
    rw [hlist]
    simp only [ofDigitChars_toDigits (show 1 < 10 by decide) (show 10 ≤ 10 by decide)]
    rfl

lemma integersOnly_inverse : integersOnly.Inverse where
  i64 n := by
    have hback : Int64.ofInt (decimal (i64ToStr n)) = n := by
      change Int64.ofInt (decimal n.toInt.repr) = n
      rw [decimal_repr, Int64.ofInt_toInt]
    simp only [integersOnly, hback, if_true]
  nan _ _ := rfl
  infinity _ _ := rfl
  negInfinity _ _ := rfl
  f64 f h := by cases h

end RocNet.Resp
