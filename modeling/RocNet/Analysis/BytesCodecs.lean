import Mathlib.Data.List.Basic
import RocNet.Model.Bytes

/-!
# Words, hexadecimal digits and their bytes

A word of 64 bits is two of 32, a little-endian one is a big-endian one reversed, and a word at an offset is what
would be taken there.
-/

namespace RocNet.Bytes

open Fallible List

variable {α : Type} {width : ℕ} {enc : α → List UInt8} {dec : Taking α}

/-- Bytes that encode and decode words: every `width` bytes are one word's. -/
structure Codec (width : ℕ) (enc : α → List UInt8) (dec : Taking α) : Prop where
  length n : (enc n).length = width
  dec_enc n rest : dec (enc n ++ rest) = .ok (n, rest)
  exists_enc (field : List UInt8) : field.length = width → ∃ n, enc n = field
  short (bytes : List UInt8) : bytes.length < width → dec bytes = fail .tooShort

/-- Decoding inverts encoding, and encoding decoding; only too few bytes are refused, at the front and at an
offset. -/
structure Inverse (width : ℕ) (enc : α → List UInt8) (dec : Taking α) (decAt : List UInt8 → UInt64 → Decoded α) :
    Prop where
  dec_enc n rest : dec (enc n ++ rest) = .ok (n, rest)
  enc_dec bytes n rest : dec bytes = .ok (n, rest) → enc n ++ rest = bytes
  short_iff bytes : dec bytes = fail .tooShort ↔ bytes.length < width
  no_overflow bytes c : dec bytes ≠ crash c
  at_eq bytes offset : decAt bytes offset = (dec (bytes.drop offset.toNat)).map Prod.fst
  at_short_iff bytes offset : decAt bytes offset = fail .tooShort ↔ bytes.length < offset.toNat + width

namespace Codec

section

variable (h : Codec width enc dec)

include h

lemma split (bytes : List UInt8) : bytes.length < width ∧ dec bytes = fail .tooShort ∨
    ∃ n rest, bytes = enc n ++ rest ∧ dec bytes = .ok (n, rest) := by
  rcases Nat.lt_or_ge bytes.length width with hlt | hle
  · exact .inl ⟨hlt, h.short bytes hlt⟩
  · obtain ⟨n, hn⟩ := h.exists_enc (bytes.take width) (length_take_of_le hle)
    have hbytes : bytes = enc n ++ bytes.drop width := by rw [hn, take_append_drop]
    exact .inr ⟨n, bytes.drop width, hbytes, by rw [hbytes, h.dec_enc, ← hbytes]⟩

lemma length_lt_iff (bytes : List UInt8) : dec bytes = fail .tooShort ↔ bytes.length < width := by
  obtain ⟨hlt, hdec⟩ | ⟨n, rest, rfl, hdec⟩ := h.split bytes
  · exact iff_of_true hdec hlt
  · rw [hdec, length_append, h.length]
    exact iff_of_false nofun (by omega)

lemma takeAt_eq (bytes : List UInt8) (offset : UInt64) :
    takeAt width dec bytes offset = (dec (bytes.drop offset.toNat)).map Prod.fst := by
  unfold takeAt bytesAt
  obtain ⟨hlt, hdec⟩ | ⟨n, rest, hdrop, hdec⟩ := h.split (bytes.drop offset.toNat)
  · rw [hdec, if_neg (by rw [length_take]; omega)]
    rfl
  · have hpart : (bytes.drop offset.toNat).take width = enc n := by
      rw [hdrop, ← h.length n, take_left]
    have hone := h.dec_enc n []
    rw [append_nil] at hone
    simp only [hpart, h.length, if_true, hdec, pure_bind, hone]
    rfl

lemma inverse (hwidth : 0 < width) : Inverse width enc dec (takeAt width dec) where
  dec_enc := h.dec_enc
  enc_dec bytes n rest hdec := by
    obtain ⟨-, hshort⟩ | ⟨m, rest', rfl, hm⟩ := h.split bytes
    · cases hshort.symm.trans hdec
    · cases hm.symm.trans hdec
      rfl
  short_iff := h.length_lt_iff
  no_overflow bytes c := by
    obtain ⟨-, hdec⟩ | ⟨n, rest, -, hdec⟩ := h.split bytes
    all_goals
      rw [hdec]
      nofun
  at_eq := h.takeAt_eq
  at_short_iff bytes offset := by
    have hshort := h.length_lt_iff (bytes.drop offset.toNat)
    rw [length_drop] at hshort
    have hiff : bytes.length < offset.toNat + width ↔ bytes.length - offset.toNat < width := by omega
    rw [h.takeAt_eq, hiff, ← hshort]
    obtain ⟨-, hdec⟩ | ⟨n, rest, -, hdec⟩ := h.split (bytes.drop offset.toNat)
    · rw [hdec]
      exact iff_of_true rfl rfl
    · rw [hdec]
      exact iff_of_false nofun nofun

/-- A codec of the other byte order. -/
theorem reversed : Codec width (fun n => (enc n).reverse) (takeReversed width dec) where
  length n := by rw [length_reverse, h.length]
  dec_enc n rest := by
    have hone := h.dec_enc n []
    rw [append_nil] at hone
    have hlen : (enc n).reverse.length = width := by rw [length_reverse, h.length]
    have htake : take ((enc n).reverse ++ rest) width = .ok ((enc n).reverse, rest) := by
      rw [take, if_neg (by rw [length_append]; omega), ← hlen, take_left, drop_left]
      rfl
    simp only [takeReversed, htake, ok_bind, reverse_reverse, hone]
    rfl
  exists_enc field hfield := by
    obtain ⟨n, hn⟩ := h.exists_enc field.reverse (by rw [length_reverse, hfield])
    exact ⟨n, by rw [hn, reverse_reverse]⟩
  short bytes hlt := by
    rw [takeReversed, take, if_pos hlt]
    rfl

end

end Codec

/-! ## The widths -/

lemma u16Be_codec : Codec 2 u16Be takeU16Be where
  length n := rfl
  dec_enc n rest := by
    have hlt := n.toNat_lt
    have hvalue : (n / 256).toUInt8.toNat * 256 + (n % 256).toUInt8.toNat = n.toNat := by
      simp only [UInt16.toNat_toUInt8, UInt16.toNat_div, UInt16.toNat_mod, UInt16.reduceToNat]
      omega
    simp only [u16Be, cons_append, nil_append, takeU16Be]
    rw [checked_of_lt (by omega), ok_bind, hvalue, checked_of_lt hlt, ok_bind, UInt16.ofNat_toNat]
    rfl
  exists_enc field hfield := by
    match field, hfield with
    | [a, b], _ =>
      have ha := a.toNat_lt
      have hb := b.toNat_lt
      refine ⟨.ofNat (a.toNat * 256 + b.toNat), ?_⟩
      simp only [u16Be, cons.injEq, ← UInt8.toNat_inj, UInt16.toNat_toUInt8, UInt16.toNat_div,
        UInt16.toNat_mod, UInt16.reduceToNat, UInt16.toNat_ofNat', and_true]
      omega
  short bytes hlt := by
    match bytes, hlt with
    | [], _ | [_], _ => rfl

lemma u32Be_codec : Codec 4 u32Be takeU32Be where
  length n := rfl
  dec_enc n rest := by
    have hlt := n.toNat_lt
    have hvalue : (n / 16777216).toUInt8.toNat * 16777216 + (n / 65536 % 256).toUInt8.toNat * 65536 +
        (n / 256 % 256).toUInt8.toNat * 256 + (n % 256).toUInt8.toNat = n.toNat := by
      simp only [UInt32.toNat_toUInt8, UInt32.toNat_div, UInt32.toNat_mod, UInt32.reduceToNat]
      omega
    simp only [u32Be, cons_append, nil_append, takeU32Be]
    rw [checked_of_lt (by omega), ok_bind, checked_of_lt (by omega), ok_bind, checked_of_lt (by omega), ok_bind,
      checked_of_lt (by omega), ok_bind, checked_of_lt (by omega), ok_bind, hvalue, checked_of_lt hlt, ok_bind,
      UInt32.ofNat_toNat]
    rfl
  exists_enc field hfield := by
    match field, hfield with
    | [a, b, c, d], _ =>
      have ha := a.toNat_lt
      have hb := b.toNat_lt
      have hc := c.toNat_lt
      have hd := d.toNat_lt
      refine ⟨.ofNat (a.toNat * 16777216 + b.toNat * 65536 + c.toNat * 256 + d.toNat), ?_⟩
      simp only [u32Be, cons.injEq, ← UInt8.toNat_inj, UInt32.toNat_toUInt8, UInt32.toNat_div,
        UInt32.toNat_mod, UInt32.reduceToNat, UInt32.toNat_ofNat', and_true]
      omega
  short bytes hlt := by
    match bytes, hlt with
    | [], _ | [_], _ | [_, _], _ | [_, _, _], _ => rfl

lemma u64Be_codec : Codec 8 u64Be takeU64Be where
  length n := by rw [u64Be, length_append, u32Be_codec.length, u32Be_codec.length]
  dec_enc n rest := by
    have hlt := n.toNat_lt
    have hvalue : (n / 4294967296).toUInt32.toNat * 4294967296 + (n % 4294967296).toUInt32.toNat = n.toNat := by
      simp only [UInt64.toNat_toUInt32, UInt64.toNat_div, UInt64.toNat_mod, UInt64.reduceToNat]
      omega
    rw [u64Be, append_assoc, takeU64Be, u32Be_codec.dec_enc, ok_bind]
    dsimp only
    rw [u32Be_codec.dec_enc, ok_bind]
    dsimp only
    rw [checked_of_lt (by omega), ok_bind, hvalue, checked_of_lt hlt, ok_bind, UInt64.ofNat_toNat]
    rfl
  exists_enc field hfield := by
    obtain ⟨high, hhigh⟩ := u32Be_codec.exists_enc (field.take 4) (by rw [length_take]; omega)
    obtain ⟨low, hlow⟩ := u32Be_codec.exists_enc (field.drop 4) (by rw [length_drop]; omega)
    have hh := high.toNat_lt
    have hl := low.toNat_lt
    have hhalves : ((UInt64.ofNat (high.toNat * 4294967296 + low.toNat)) / 4294967296).toUInt32 = high ∧
        ((UInt64.ofNat (high.toNat * 4294967296 + low.toNat)) % 4294967296).toUInt32 = low := by
      simp only [← UInt32.toNat_inj, UInt64.toNat_toUInt32, UInt64.toNat_div, UInt64.toNat_mod, UInt64.reduceToNat,
        UInt64.toNat_ofNat']
      omega
    refine ⟨.ofNat (high.toNat * 4294967296 + low.toNat), ?_⟩
    rw [u64Be, hhalves.1, hhalves.2, hhigh, hlow, take_append_drop]
  short bytes hlt := by
    unfold takeU64Be
    obtain ⟨-, hdec⟩ | ⟨n, rest, rfl, hdec⟩ := u32Be_codec.split bytes
    · rw [hdec]
      rfl
    · rw [length_append, u32Be_codec.length] at hlt
      rw [hdec, ok_bind]
      dsimp only
      rw [u32Be_codec.short rest (by omega)]
      rfl

/-- **The byte codecs are inverse to each other.** For every width and byte order: a word is taken from the bytes
it was encoded as, and encoding a word that was taken gives the bytes; the `take_` function fails only where
bytes are missing, the `_at` function does what it would do at the offset, and nothing overflows. -/
theorem codecs_inverse :
    (Inverse 2 u16Be takeU16Be u16BeAt ∧ Inverse 4 u32Be takeU32Be u32BeAt ∧ Inverse 8 u64Be takeU64Be u64BeAt) ∧
    Inverse 2 u16Le takeU16Le u16LeAt ∧ Inverse 4 u32Le takeU32Le u32LeAt ∧ Inverse 8 u64Le takeU64Le u64LeAt :=
  ⟨⟨u16Be_codec.inverse (by decide), u32Be_codec.inverse (by decide), u64Be_codec.inverse (by decide)⟩,
    u16Be_codec.reversed.inverse (by decide), u32Be_codec.reversed.inverse (by decide),
    u64Be_codec.reversed.inverse (by decide)⟩

/-! ## Hexadecimal digits -/

variable {repair : List UInt8 → List UInt8}

/-- A letter in lower case. -/
def lower (c : UInt8) : UInt8 := if 65 ≤ c ∧ c ≤ 90 then c + 32 else c

/-- A hexadecimal digit, in either case. -/
def IsHex (c : UInt8) : Prop := lower c ∈ digits

instance (c : UInt8) : Decidable (IsHex c) := inferInstanceAs (Decidable (_ ∈ _))

def value (c : UInt8) : ℕ := digits.idxOf (lower c)

/-- The bytes that a string of digits stands for. -/
def pairs : List UInt8 → List UInt8
  | high :: low :: rest => .ofNat (value high * 16 + value low) :: pairs rest
  | _ => []

lemma forall_byte {P : UInt8 → Prop} (h : ∀ k : Fin 256, P (.ofNat k)) (c : UInt8) : P c := by
  have hc := h ⟨c.toNat, c.toNat_lt⟩
  rwa [UInt8.ofNat_toNat] at hc

lemma digit_eq : ∀ c, digit c = if IsHex c then .ok (value c) else fail () :=
  forall_byte (by decide +kernel)

lemma hexByte_eq : ∀ b, (hexByte b).all (fun c => c < 128 ∧ IsHex c) ∧ pairs (hexByte b) = [b] :=
  forall_byte (by decide +kernel)

lemma all_isHex {s : List UInt8} : s.all (IsHex ·) ↔ ∀ c ∈ s, IsHex c := by simp

lemma mem_hexByte {b c : UInt8} (h : c ∈ hexByte b) : c < 128 ∧ IsHex c := by
  simpa using all_eq_true.mp (hexByte_eq b).1 c h

lemma digitAt_eq (h : chars[i]? = some c) : digitAt chars i = if IsHex c then .ok (value c) else fail ⟨i⟩ := by
  rw [digitAt, h, Option.getD_some, digit_eq]
  by_cases hc : IsHex c
  · rw [if_pos hc, if_pos hc]
    rfl
  · rw [if_neg hc, if_neg hc]
    rfl

lemma value_lt (h : IsHex c) : value c < 16 := idxOf_lt_length_of_mem h

lemma hexByte_pair (ha : IsHex a) (hb : IsHex b) :
    hexByte (.ofNat (value a * 16 + value b)) = [lower a, lower b] := by
  have hlow := value_lt ha
  have hhigh := value_lt hb
  have hdiv : (UInt8.ofNat (value a * 16 + value b) / 16).toNat = value a := by
    rw [UInt8.toNat_div, UInt8.toNat_ofNat']
    exact (by omega : (value a * 16 + value b) % 2 ^ 8 / 16 = value a)
  have hmod : (UInt8.ofNat (value a * 16 + value b) % 16).toNat = value b := by
    rw [UInt8.toNat_mod, UInt8.toNat_ofNat']
    exact (by omega : (value a * 16 + value b) % 2 ^ 8 % 16 = value b)
  rw [hexByte, hdiv, hmod, value, value, getElem?_idxOf ha, getElem?_idxOf hb]
  rfl

/-- ASCII is UTF-8, and kept. -/
theorem fromUtf8Lossy_ascii (bytes : List UInt8) (h : ∀ b ∈ bytes, b < 128) : fromUtf8Lossy repair bytes = bytes := by
  refine if_pos (.intro (bytes.map Char.ofUInt8) ?_)
  have hencode : (bytes.map Char.ofUInt8).flatMap String.utf8EncodeChar = bytes := by
    induction bytes with
    | nil => rfl
    | cons b bytes ih =>
      have hb : b.toNat ≤ 127 := Nat.le_of_lt_succ (UInt8.lt_iff_toNat_lt.mp (h b mem_cons_self))
      rw [map_cons, flatMap_cons, ih fun c hc => h c (mem_cons_of_mem b hc)]
      have hval : (Char.ofUInt8 b).val = b.toUInt32 := rfl
      simp [String.utf8EncodeChar, hval, hb]
  rw [utf8Encode, hencode]
  exact ByteArray.ext (by simp)

/-- The digits of some bytes are those of each byte. -/
theorem toHex_eq (bytes : List UInt8) : toHex repair bytes = bytes.flatMap hexByte := by
  refine fromUtf8Lossy_ascii _ fun c hc => ?_
  obtain ⟨b, -, hb⟩ := mem_flatMap.mp hc
  exact (mem_hexByte hb).1

/-! ## The loop -/

lemma eq_nil_of_even {s : List UInt8} (h : ∀ high low rest, s ≠ high :: low :: rest) (heven : s.length % 2 = 0) :
    s = [] := by
  rcases s with _ | ⟨a, _ | ⟨b, s⟩⟩
  · rfl
  · cases heven
  · exact absurd rfl (h a b s)

lemma fromHexLoop_eq (rest front out : List UInt8) (heven : rest.length % 2 = 0) :
    fromHexLoop (front ++ rest) front.length out = if rest.all (IsHex ·) then .ok (out ++ pairs rest)
      else fail ⟨front.length + rest.findIdx (fun c => !IsHex c)⟩ := by
  fun_induction pairs rest generalizing front out with
  | case1 high low rest ih =>
    have hhigh : (front ++ high :: low :: rest)[front.length]? = some high := by simp
    have hlow : (front ++ high :: low :: rest)[front.length + 1]? = some low := by simp
    rw [fromHexLoop, if_pos (by simp), digitAt_eq hhigh, digitAt_eq hlow]
    by_cases ha : IsHex high
    · by_cases hb : IsHex low
      · have hle := value_lt ha
        have hlt := value_lt hb
        have hindex : (high :: low :: rest).findIdx (fun c => !IsHex c) = 2 + rest.findIdx (fun c => !IsHex c) := by
          simp [findIdx_cons, ha, hb]
          omega
        have hnext := ih (front ++ [high, low]) (out ++ [.ofNat (value high * 16 + value low)])
          (by rw [length_cons, length_cons] at heven; omega)
        rw [append_assoc, append_assoc, length_append] at hnext
        rw [if_pos ha, if_pos hb, ok_bind, ok_bind, checked_of_lt (by omega), ok_bind, checked_of_lt (by omega),
          ok_bind, hindex, ← Nat.add_assoc]
        simpa [ha, hb] using hnext
      · rw [if_pos ha, if_neg hb]
        simp [ha, hb, findIdx_cons]
        rfl
    · rw [if_neg ha]
      simp [ha, findIdx_cons]
      rfl
  | case2 rest hrest =>
    obtain rfl := eq_nil_of_even hrest heven
    rw [fromHexLoop, if_neg (by simp)]
    simp [pure, Except.pure]

lemma fromHex_eq (s : List UInt8) : fromHex s = if s.length % 2 ≠ 0 then fail ⟨s.length⟩
    else if s.all (IsHex ·) then .ok (pairs s) else fail ⟨s.findIdx (fun c => !IsHex c)⟩ := by
  unfold fromHex
  split
  · rfl
  · next heven =>
    have hloop := fromHexLoop_eq s [] [] (not_not.mp heven)
    rwa [length_nil, Nat.zero_add] at hloop

/-! ## Both ways -/

lemma pairs_flatMap (bytes : List UInt8) : pairs (bytes.flatMap hexByte) = bytes := by
  induction bytes with
  | nil => rfl
  | cons b bytes ih =>
    have hb := (hexByte_eq b).2
    simp only [hexByte, pairs, cons.injEq, and_true] at hb
    simp only [flatMap_cons, hexByte, cons_append, nil_append, pairs, hb]
    rw [ih]

lemma flatMap_pairs (s : List UInt8) (heven : s.length % 2 = 0) (h : ∀ c ∈ s, IsHex c) :
    (pairs s).flatMap hexByte = s.map lower := by
  fun_induction pairs s with
  | case1 high low rest ih =>
    obtain ⟨ha, hb, hrest⟩ := (forall_mem_cons.trans (and_congr_right fun _ => forall_mem_cons)).mp h
    rw [length_cons, length_cons] at heven
    rw [flatMap_cons, hexByte_pair ha hb, ih (by omega) hrest]
    rfl
  | case2 rest hrest =>
    obtain rfl := eq_nil_of_even hrest heven
    rfl

lemma fromHex_toHex (bytes : List UInt8) : fromHex (toHex repair bytes) = .ok bytes := by
  have hlen : (bytes.flatMap hexByte).length % 2 = 0 := by simp [length_flatMap, hexByte]
  have hhex : ∀ c ∈ bytes.flatMap hexByte, IsHex c := by
    intro c hc
    obtain ⟨b, -, hb⟩ := mem_flatMap.mp hc
    exact (mem_hexByte hb).2
  rw [toHex_eq, fromHex_eq, if_neg (not_not.mpr hlen), if_pos (all_isHex.mpr hhex), pairs_flatMap]

lemma fromHex_ok_iff (s b : List UInt8) :
    fromHex s = .ok b ↔ (s.length % 2 = 0 ∧ ∀ c ∈ s, IsHex c) ∧ b = pairs s := by
  rw [fromHex_eq]
  split
  · next hodd => exact iff_of_false nofun fun h => hodd h.1.1
  · next heven =>
    split
    · next hhex =>
      rw [Except.ok.injEq, and_iff_right ⟨not_not.mp heven, all_isHex.mp hhex⟩]
      exact eq_comm
    · next hhex => exact iff_of_false nofun fun h => hhex (all_isHex.mpr h.1.2)

lemma fromHex_fail_iff (s : List UInt8) (i : ℕ) : fromHex s = fail ⟨i⟩ ↔ s.length % 2 ≠ 0 ∧ i = s.length ∨
    s.length % 2 = 0 ∧ ∃ h : i < s.length, ¬IsHex s[i] ∧ ∀ j (hj : j < i), IsHex s[j] := by
  have hfail (k : ℕ) : (fail ⟨k⟩ : Result InvalidHex Overflow (List UInt8)) = fail ⟨i⟩ ↔ i = k := by
    simp [fail, eq_comm]
  rw [fromHex_eq]
  split
  · next hodd => simp [hfail, hodd]
  · next heven =>
    have heven := not_not.mp heven
    split
    · next hhex =>
      refine iff_of_false nofun ?_
      rintro (⟨hodd, -⟩ | ⟨-, hi, hbad, -⟩)
      · exact hodd heven
      · exact hbad (all_isHex.mp hhex _ (getElem_mem hi))
    · next hhex =>
      have hlt : s.findIdx (fun c => !IsHex c) < s.length := findIdx_lt_length_of_exists (by simpa using hhex)
      rw [hfail]
      constructor
      · rintro rfl
        have hfirst := (findIdx_eq hlt).mp rfl
        exact .inr ⟨heven, hlt, by simpa using hfirst⟩
      · rintro (⟨hodd, -⟩ | ⟨-, hi, hfirst⟩)
        · exact absurd heven hodd
        · exact ((findIdx_eq hi).mpr (by simpa using hfirst)).symm

/-- **Hexadecimal conversion is a bijection up to the case of letters.** Every byte list is read back from its
digits. A string is accepted if it has an even number of digits and nothing else, and its bytes have its digits
in lower case. Otherwise the index is its length, if that is odd, or that of the first byte that is no digit;
and nothing overflows. -/
theorem hex_bijection (repair : List UInt8 → List UInt8) : (∀ b, fromHex (toHex repair b) = .ok b) ∧
    (∀ s, (∃ b, fromHex s = .ok b) ↔ s.length % 2 = 0 ∧ ∀ c ∈ s, IsHex c) ∧
    (∀ s b, fromHex s = .ok b → toHex repair b = s.map lower) ∧
    (∀ s i, fromHex s = fail ⟨i⟩ ↔ s.length % 2 ≠ 0 ∧ i = s.length ∨
      s.length % 2 = 0 ∧ ∃ h : i < s.length, ¬IsHex s[i] ∧ ∀ j (hj : j < i), IsHex s[j]) ∧
    ∀ s c, fromHex s ≠ crash c := by
  refine ⟨fromHex_toHex, fun s => ?_, fun s b h => ?_, fromHex_fail_iff, fun s c => ?_⟩
  · simp only [fromHex_ok_iff, exists_and_left, exists_eq, and_true]
  · obtain ⟨⟨heven, hhex⟩, rfl⟩ := (fromHex_ok_iff s b).mp h
    rw [toHex_eq, flatMap_pairs s heven hhex]
  · rw [fromHex_eq]
    split
    · nofun
    · split <;> nofun

/-- The bytes of `0aff`, which are also read from `0AFF`. -/
theorem hex_bijection_twoBytes : toHex id [10, 255] = [48, 97, 102, 102] ∧
    fromHex (toHex id [10, 255]) = .ok [10, 255] ∧ ∃ b, fromHex [48, 65, 70, 70] = .ok b ∧
      toHex id b = [48, 97, 102, 102] := by
  obtain ⟨hback, haccepts, hlower, -⟩ := hex_bijection id
  have hhex : IsHex 48 ∧ IsHex 65 ∧ IsHex 70 := by decide
  obtain ⟨b, hb⟩ := (haccepts [48, 65, 70, 70]).mpr ⟨rfl, by simpa⟩
  exact ⟨by rw [toHex_eq]; decide, hback _, b, hb, hlower _ b hb⟩

end RocNet.Bytes
