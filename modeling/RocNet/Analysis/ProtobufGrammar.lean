import RocNet.Library.Grammar
import RocNet.Library.Varint
import RocNet.Model.Protobuf

/-!
# The wire grammar

The grammar of messages (`MessageOf`) says nothing about how they are decoded: a message is fields one after the
other, a field is a key and a value, and numbers are sums of digits.
-/

namespace RocNet.Protobuf

open List Fallible Grammar Varint Nat UInt64 UInt8

variable {a : Access} {data : List UInt8} {pos : ℕ}

/-! ## The grammar -/

/-- A number, as a varint. -/
def VarintOf (bs : List UInt8) (n : UInt64) : Prop := Varint64 bs ∧ base128 bs = n.toNat

/-- A number of a fixed width. -/
def FixedOf (count : ℕ) (bs : List UInt8) (n : ℕ) : Prop := bs.length = count ∧ base256 bs = n

def wireType : Value → ℕ
  | .varint _ => 0
  | .fixed64 _ => 1
  | .bytes _ => 2
  | .fixed32 _ => 5

inductive ValueOf : List UInt8 → Value → Prop
  | varint (h : VarintOf bs n) : ValueOf bs (.varint n)
  | fixed64 (h : FixedOf 8 bs n.toNat) : ValueOf bs (.fixed64 n)
  | bytes (h : Varint64 len) (hlen : base128 len = payload.length) : ValueOf (len ++ payload) (.bytes payload)
  | fixed32 (h : FixedOf 4 bs n.toNat) : ValueOf bs (.fixed32 n)

/-- A key, which carries the field number and the wire type of the value, and then the value. -/
inductive FieldOf : List UInt8 → Field → Prop
  | mk {number : UInt64} {value : Value} (hkey : Varint64 key) (hnumber : number ≠ 0)
      (h : base128 key = number.toNat * 8 + wireType value) (hvalue : ValueOf bs value) :
      FieldOf (key ++ bs) (number, value)

/-- Fields, one after the other. -/
def MessageOf : List UInt8 → List Field → Prop := Many FieldOf

/-- A list that fits into memory: an allocation has at most 2^63 - 1 bytes. -/
def Fits (b : List UInt8) : Prop := b.length < 2 ^ 63

instance (b : List UInt8) : Decidable (Fits b) := inferInstanceAs (Decidable (_ < _))

/-! ## Varints -/

variable {start k count : ℕ} {rest bs : List UInt8} {value scale : UInt64}

lemma readVarintLoop_cons (hfits : start + k + 1 < 2 ^ 64) :
    readVarintLoop start (b :: rest) (start + k) value scale = if k = 9 ∧ 1 < b then fail .overlong
      else if b < 128 then pure (value + (b % 128).toUInt64 * scale, start + k + 1)
      else readVarintLoop start rest (start + (k + 1)) (value + (b % 128).toUInt64 * scale)
        (scale * 128) := by
  rw [readVarintLoop, sub64_of_le (Nat.le_add_right start k), ok_bind, Nat.add_sub_cancel_left]
  split
  · rfl
  · rw [add64_of_lt hfits, ok_bind, add_assoc]

lemma toNat_add_digit {b : UInt8} (hk : k ≤ 9) (hscale : scale.toNat = 128 ^ k) (hvalue : value.toNat < 128 ^ k)
    (hb : ¬(k = 9 ∧ 1 < b)) : (value + (b % 128).toUInt64 * scale).toNat = value.toNat + 128 ^ k * (b.toNat % 128) := by
  have hdigit : ((b % 128).toUInt64 * scale).toNat = 128 ^ k * (b.toNat % 128) % 2 ^ 64 := by
    have h128 : (128 : UInt8).toNat = 128 := rfl
    rw [UInt64.toNat_mul, hscale, UInt8.toNat_toUInt64, UInt8.toNat_mod, h128, Nat.mul_comm]
  have hsum : 128 ^ k + 128 ^ k * (b.toNat % 128) ≤ 2 ^ 64 := by
    by_cases hk9 : k = 9
    · have hle : b ≤ 1 := UInt8.not_lt.mp fun h => hb ⟨hk9, h⟩
      rw [UInt8.le_iff_toNat_le] at hle
      have hone : (1 : UInt8).toNat = 1 := rfl
      subst hk9
      omega
    · have hpow : 128 ^ k ≤ 128 ^ 8 := Nat.pow_le_pow_right (by decide) (by omega)
      have hmul : 128 ^ k * (b.toNat % 128) ≤ 128 ^ 8 * 127 := Nat.mul_le_mul hpow (by omega)
      omega
  rw [UInt64.toNat_add, hdigit]
  omega

/-- The loop, when `k` bytes have been read: it takes what may follow them in a varint, and adds the
digits in their places. -/
theorem readVarintLoop_ok_iff {next : ℕ} {n : UInt64} (hfits : start + k + rest.length < 2 ^ 64) (hk : k ≤ 9)
    (hscale : scale.toNat = 128 ^ k) (hvalue : value.toNat < 128 ^ k) :
    readVarintLoop start rest (start + k) value scale = .ok (n, next) ↔ ∃ bs, From k bs ∧ bs <+: rest ∧
        next = start + k + bs.length ∧ value.toNat + 128 ^ k * base128 bs = n.toNat := by
  induction rest generalizing k value scale with
  | nil =>
    constructor
    · nofun
    · rintro ⟨bs, hbs, hrest, -⟩
      exact absurd (prefix_nil.mp hrest) hbs.continued.ne_nil
  | cons b rest ih =>
    rw [length_cons] at hfits
    rw [readVarintLoop_cons (by omega)]
    have hcons : ∀ bs, From k bs → bs <+: b :: rest → ∃ bs', bs = b :: bs' ∧ bs' <+: rest :=
      fun bs hbs hrest => (prefix_cons_iff.mp hrest).resolve_left hbs.continued.ne_nil
    split
    · next hover =>
      constructor
      · nofun
      · rintro ⟨bs, hbs, hrest, -⟩
        obtain ⟨bs, rfl, -⟩ := hcons bs hbs hrest
        exact absurd hover ((from_cons_iff hk).mp hbs).1
    · next hover =>
      have hsum := toNat_add_digit hk hscale hvalue hover
      split
      · next hlast =>
        constructor
        · intro h
          cases h
          refine ⟨[b], (from_cons_iff hk).mpr ⟨hover, .inl ⟨hlast, rfl⟩⟩, ?_, rfl, ?_⟩
          · exact (prefix_cons_inj b).mpr nil_prefix
          · rw [hsum, base128_cons, base128_nil]
            rfl
        · rintro ⟨bs, hbs, hrest, rfl, hn⟩
          obtain ⟨bs, rfl, -⟩ := hcons bs hbs hrest
          obtain ⟨-, rfl⟩ | ⟨hmore, -⟩ := ((from_cons_iff hk).mp hbs).2
          · rw [base128_cons, base128_nil] at hn
            rw [← UInt64.toNat_inj.mp (hsum.trans hn)]
            rfl
          · exact absurd hlast (UInt8.not_lt.mpr hmore)
      · next hlast =>
        have hmore : 128 ≤ b := UInt8.not_lt.mp hlast
        have hk8 : k ≤ 8 := by
          by_contra hk9
          exact hover ⟨by omega, UInt8.lt_of_lt_of_le (by decide) hmore⟩
        have hpow : 128 ^ k ≤ 128 ^ 8 := Nat.pow_le_pow_right (by decide) hk8
        have hscale' : (scale * 128).toNat = 128 ^ (k + 1) := by
          have h128 : (128 : UInt64).toNat = 128 := rfl
          rw [UInt64.toNat_mul, hscale, h128, pow_succ]
          exact Nat.mod_eq_of_lt (by omega)
        have hvalue' : value.toNat + 128 ^ k * (b.toNat % 128) < 128 ^ (k + 1) := by
          have hmul : 128 ^ k * (b.toNat % 128) ≤ 128 ^ k * 127 := mul_le_mul_left _ (by omega)
          rw [pow_succ]
          omega
        have hplace : ∀ bs, value.toNat + 128 ^ k * (b.toNat % 128) + 128 ^ (k + 1) * base128 bs =
            value.toNat + 128 ^ k * base128 (b :: bs) := fun bs => by
          rw [base128_cons, pow_succ]
          ring
        rw [ih (k := k + 1) (by omega) (by omega) hscale' (hsum ▸ hvalue'), hsum]
        simp only [hplace]
        constructor
        · rintro ⟨bs, hbs, hrest, rfl, hn⟩
          refine ⟨b :: bs, (from_cons_iff hk).mpr ⟨hover, .inr ⟨hmore, hbs⟩⟩, ?_, ?_, hn⟩
          · exact (prefix_cons_inj b).mpr hrest
          · rw [length_cons]
            omega
        · rintro ⟨bs, hbs, hrest, rfl, hn⟩
          obtain ⟨bs, rfl, hrest'⟩ := hcons bs hbs hrest
          obtain ⟨hb, -⟩ | ⟨-, hbs⟩ := ((from_cons_iff hk).mp hbs).2
          · exact absurd hb hlast
          · refine ⟨bs, hbs, hrest', ?_, hn⟩
            rw [length_cons]
            omega

lemma readVarintLoop_no_crash (c : Overflow) (hfits : start + k + rest.length < 2 ^ 64) :
    readVarintLoop start rest (start + k) value scale ≠ crash c := by
  induction rest generalizing k value scale with
  | nil => nofun
  | cons b rest ih =>
    rw [length_cons] at hfits
    rw [readVarintLoop_cons (by omega)]
    split
    · nofun
    · split
      · nofun
      · exact ih (by omega)

lemma readVarint_reads (hfits : Fits data) : Reads data VarintOf (readVarint data) where
  ok_iff {pos next n} hpos := by
    have hlen : pos + 0 + (data.drop pos).length < 2 ^ 64 := by
      unfold Fits at hfits
      rw [length_drop]
      omega
    refine (readVarintLoop_ok_iff hlen (by decide) rfl (by decide)).trans ?_
    have hzero : (0 : UInt64).toNat = 0 := rfl
    simp only [from_zero_iff, VarintOf, hzero, pow_zero, Nat.one_mul, Nat.zero_add, Nat.add_zero]
    grind
  no_crash {pos} c hpos := by
    have hlen : pos + 0 + (data.drop pos).length < 2 ^ 64 := by
      unfold Fits at hfits
      rw [length_drop]
      omega
    exact readVarintLoop_no_crash c hlen

/-! ## Numbers of a fixed width -/

lemma readLittleEndianLoop_eq (hfits : Fits data) (hcount : count ≤ 8) (hpos : pos + count ≤ data.length)
    (hi : i ≤ count) (hvalue : value.toNat = base256 (((data.drop pos).take count).drop i)) :
    ∃ n, readLittleEndianLoop a data pos i value = .ok n ∧ n.toNat = base256 ((data.drop pos).take count) := by
  unfold Fits at hfits
  induction i generalizing value with
  | zero => exact ⟨value, rfl, hvalue⟩
  | succ i ih =>
    generalize hbs : (data.drop pos).take count = bs at hvalue ih ⊢
    have hlen : bs.length = count := by
      rw [← hbs, length_take, length_drop]
      omega
    have hbyte : a.byte data (pos + i) = bs[i] := by
      rw [a.byte_of_lt data (pos + i) (by omega)]
      subst hbs
      rw [getElem_take, getElem_drop]
    have hdrop : bs.drop i = bs[i] :: bs.drop (i + 1) := drop_eq_getElem_cons (by omega)
    -- what has been read is too small for the multiplication to wrap around
    have hsmall : value.toNat < 256 ^ 7 := by
      have hlt := base256_lt (bs.drop (i + 1))
      rw [length_drop, hlen] at hlt
      have hpow : 256 ^ (count - (i + 1)) ≤ 256 ^ 7 := Nat.pow_le_pow_right (by decide) (by omega)
      omega
    have hbyteLt := bs[i].toNat_lt
    have hshift : (value * 256).toNat = value.toNat * 256 := by
      have h256 : (256 : UInt64).toNat = 256 := rfl
      rw [UInt64.toNat_mul, h256]
      omega
    have hadd : (value * 256).toNat + bs[i].toUInt64.toNat < 2 ^ 64 := by
      rw [hshift, toNat_toUInt64]
      omega
    rw [readLittleEndianLoop, add64_of_lt (by omega), ok_bind, hbyte, addU64_of_lt hadd, ok_bind]
    apply ih (by omega)
    rw [hdrop, base256_cons, ← hvalue, UInt64.toNat_add, Nat.mod_eq_of_lt hadd, hshift, UInt8.toNat_toUInt64]
    omega

lemma readLittleEndian_eq (hfits : Fits data) (hcount : count ≤ 8)
    (hpos : pos ≤ data.length) :
    readLittleEndian a data pos count = if data.length < pos + count then fail .truncated
      else .ok (UInt64.ofNat (base256 ((data.drop pos).take count))) := by
  have hadd : pos + count < 2 ^ 64 := by
    unfold Fits at hfits
    omega
  rw [readLittleEndian, add64_of_lt hadd, ok_bind]
  split
  · rfl
  · next hle =>
    have hstart : (0 : UInt64).toNat = base256 (((data.drop pos).take count).drop count) := by
      rw [drop_eq_nil_of_le (length_take_le _ _)]
      rfl
    obtain ⟨n, hread, hn⟩ :=
      readLittleEndianLoop_eq (a := a) hfits hcount (not_lt.mp hle) le_rfl hstart
    rw [hread, ← hn, UInt64.ofNat_toNat]

lemma fixed_reads {β : Type} (hfits : Fits data) (hcount : count ≤ 8) (f : UInt64 → β) :
    Reads data (fun bs value => bs.length = count ∧ value = f (ofNat (base256 bs))) (fun pos => do
      let n ← readLittleEndian a data pos count
      let next ← add64 pos count
      pure (f n, next)) := by
  apply Reads.take (f := fun bs => f (ofNat (base256 bs)))
  · intro pos hpos hlt
    refine ⟨.truncated, ?_⟩
    rw [readLittleEndian_eq hfits hcount hpos, if_pos hlt]
    rfl
  · intro pos hle
    have hadd : pos + count < 2 ^ 64 := by
      unfold Fits at hfits
      omega
    rw [readLittleEndian_eq hfits hcount (by omega), if_neg (not_lt.mpr hle), ok_bind, add64_of_lt hadd]
    rfl

/-! ## Values and fields -/

lemma payload_reads (hfits : Fits data) (len : UInt64) :
    Reads data (fun bs value => bs.length = len.toNat ∧ value = Value.bytes bs) (fun after => do
      let left ← sub64 data.length after
      if left < len.toNat then (fail .truncated : Result DecodeError Overflow (Value × ℕ))
      else
        let next ← add64 after len.toNat
        pure (.bytes (a.sublist data after len.toNat), next)) := by
  unfold Fits at hfits
  apply Reads.take
  · intro pos hpos hlt
    refine ⟨.truncated, ?_⟩
    rw [sub64_of_le hpos, ok_bind, if_pos (by omega)]
  · intro pos hle
    rw [sub64_of_le (by omega), ok_bind, if_neg (by omega), add64_of_lt (by omega), a.sublist_of_le _ _ _ hle]
    rfl

lemma fixedOf_eight_iff : FixedOf 8 bs n.toNat ↔ bs.length = 8 ∧ n = UInt64.ofNat (base256 bs) := by
  refine and_congr_right fun hlen => ?_
  have hlt := base256_lt bs
  rw [hlen] at hlt
  rw [← UInt64.toNat_inj, UInt64.toNat_ofNat_of_lt' hlt]
  exact eq_comm

lemma fixedOf_four_iff : FixedOf 4 bs n.toNat ↔ bs.length = 4 ∧ n = (UInt64.ofNat (base256 bs)).toUInt32 := by
  refine and_congr_right fun hlen => ?_
  have hlt := base256_lt bs
  rw [hlen] at hlt
  have heq : (UInt64.ofNat (base256 bs)).toUInt32.toNat = base256 bs := by
    rw [UInt64.toNat_toUInt32, UInt64.toNat_ofNat']
    omega
  rw [← UInt32.toNat_inj, heq]
  exact eq_comm

lemma decodeValue_reads (hfits : Fits data) (w : UInt64) :
    Reads data (fun bs value => ValueOf bs value ∧ wireType value = w.toNat) (decodeValue a data w) := by
  unfold decodeValue
  generalize w.toNat = k
  match k with
  | 0 =>
    refine ((readVarint_reads hfits).bind fun n => Reads.pure (Value.varint n)).congr fun bs value => ?_
    constructor
    · rintro ⟨n, front, back, rfl, hn, rfl, rfl⟩
      rw [append_nil]
      exact ⟨.varint hn, rfl⟩
    · rintro ⟨hvalue, hw⟩
      cases hvalue with
      | varint hn => exact ⟨_, bs, [], (append_nil bs).symm, hn, rfl, rfl⟩
      | _ => cases hw
  | 1 =>
    refine (fixed_reads hfits (by decide) Value.fixed64).congr fun bs value => ?_
    constructor
    · rintro ⟨hlen, rfl⟩
      exact ⟨.fixed64 (fixedOf_eight_iff.mpr ⟨hlen, rfl⟩), rfl⟩
    · rintro ⟨hvalue, hw⟩
      cases hvalue with
      | fixed64 hn => exact (fixedOf_eight_iff.mp hn).imp_right (congrArg _)
      | _ => cases hw
  | 2 =>
    refine ((readVarint_reads hfits).bind fun len => payload_reads hfits len).congr fun bs value => ?_
    constructor
    · rintro ⟨len, front, back, rfl, ⟨hfront, hlen⟩, hback, rfl⟩
      exact ⟨.bytes hfront (hlen.trans hback.symm), rfl⟩
    · rintro ⟨hvalue, hw⟩
      cases hvalue with
      | @bytes len payload hlen hpayload =>
        have heq : (UInt64.ofNat payload.length).toNat = payload.length :=
          UInt64.toNat_ofNat_of_lt' (hpayload ▸ hlen.lt)
        exact ⟨.ofNat payload.length, len, payload, rfl, ⟨hlen, hpayload.trans heq.symm⟩, heq.symm, rfl⟩
      | _ => cases hw
  | 5 =>
    refine (fixed_reads hfits (by decide) fun n => Value.fixed32 n.toUInt32).congr fun bs value => ?_
    constructor
    · rintro ⟨hlen, rfl⟩
      exact ⟨.fixed32 (fixedOf_four_iff.mpr ⟨hlen, rfl⟩), rfl⟩
    · rintro ⟨hvalue, hw⟩
      cases hvalue with
      | fixed32 hn => exact (fixedOf_four_iff.mp hn).imp_right (congrArg _)
      | _ => cases hw
  | 3 | 4 | k + 6 =>
    refine (Reads.fail _).congr fun bs value => ⟨False.elim, ?_⟩
    rintro ⟨-, hw⟩
    cases value <;> cases hw

lemma key_iff {key number : UInt64} {w : ℕ} (hw : w < 8) :
    key.toNat = number.toNat * 8 + w ↔ number = key / 8 ∧ w = (key % 8).toNat := by
  have height : (8 : UInt64).toNat = 8 := rfl
  rw [← UInt64.toNat_inj, UInt64.toNat_div, UInt64.toNat_mod, height]
  omega

lemma wireType_lt (value : Value) : wireType value < 8 := by
  cases value <;> simp [wireType]

lemma decodeField_reads (hfits : Fits data) : Reads data FieldOf (decodeField a data) := by
  have hafter : ∀ key : UInt64, Reads data
      (fun bs field => field.1 = key / 8 ∧ field.1 ≠ 0 ∧ ValueOf bs field.2 ∧ wireType field.2 = (key % 8).toNat)
      (fun afterKey => if key / 8 = 0 then fail (.badFieldNumber (key / 8)) else
        decodeValue a data (key % 8) afterKey >>= fun r =>
          (pure ((key / 8, r.1), r.2) : Result DecodeError Overflow (Field × ℕ))) := fun key => by
    by_cases hzero : key / 8 = 0
    · simp only [if_pos hzero]
      refine (Reads.fail _).congr fun bs field => ⟨False.elim, ?_⟩
      rintro ⟨hnumber, hne, -⟩
      exact hne (hnumber.trans hzero)
    · simp only [if_neg hzero]
      refine ((decodeValue_reads hfits _).bind fun value => Reads.pure (key / 8, value)).congr fun bs field => ?_
      constructor
      · rintro ⟨value, front, back, rfl, hvalue, rfl, rfl⟩
        rw [append_nil]
        exact ⟨rfl, hzero, hvalue⟩
      · rintro ⟨hnumber, -, hvalue⟩
        exact ⟨field.2, bs, [], (append_nil bs).symm, hvalue, rfl, Prod.ext hnumber rfl⟩
  refine ((readVarint_reads hfits).bind hafter).congr fun bs field => ?_
  constructor
  · rintro ⟨key, front, back, rfl, ⟨hkey, hsum⟩, hnumber, hne, hvalue, hw⟩
    exact .mk hkey hne (hsum.trans ((key_iff (wireType_lt _)).mpr ⟨hnumber, hw⟩)) hvalue
  · intro hfield
    cases hfield with
    | @mk key bs number value hkey hne hsum hvalue =>
      have heq : (UInt64.ofNat (base128 key)).toNat = base128 key := UInt64.toNat_ofNat_of_lt' hkey.lt
      obtain ⟨hnumber, hw⟩ := (key_iff (wireType_lt value)).mp (heq.trans hsum)
      exact ⟨.ofNat (base128 key), key, bs, rfl, ⟨hkey, heq.symm⟩, hnumber, hne, hvalue, hw⟩

/-! ## Messages -/

lemma FieldOf.ne_nil (h : FieldOf bs field) : bs ≠ [] := by
  cases h with
  | mk hkey =>
    intro hnil
    exact hkey.continued.ne_nil (append_eq_nil_iff.mp hnil).1

lemma decodeLoop_repeats (a : Access) (data : List UInt8) :
    Repeats data (decodeField a data) (decodeLoop a data) := by
  intro pos fields
  rw [decodeLoop]
  split
  · split
    · next field next h => simp only [h, ok_bind]
    · next failure h => rw [h]; rfl
  · rfl

lemma decodeWith_ok_iff (hfits : Fits data) : decodeWith a data = .ok fields ↔ MessageOf data fields := by
  unfold decodeWith
  rw [(decodeField_reads hfits).loop_ok_iff (fun _ _ => FieldOf.ne_nil) (decodeLoop_repeats a data)
    (zero_le _), drop_zero]
  constructor
  · rintro ⟨_, h, rfl⟩
    exact h
  · intro h
    exact ⟨fields, h, rfl⟩

lemma decodeValue_congr (a' : Access) (hfits : Fits data) (w : UInt64) (hpos : pos ≤ data.length) :
    decodeValue a' data w pos = decodeValue a data w pos := by
  unfold decodeValue
  split
  · rfl
  · simp only [readLittleEndian_eq hfits (by decide : 8 ≤ 8) hpos]
  · match hlen : readVarint data pos with
    | .ok (len, after) =>
      have hafter := (readVarint_reads hfits).next_le hpos hlen
      simp only [ok_bind, sub64_of_le hafter]
      split
      · rfl
      · rw [a'.sublist_of_le _ _ _ (by omega), a.sublist_of_le _ _ _ (by omega)]
    | .error failure => simp only [error_bind]
  · simp only [readLittleEndian_eq hfits (by decide : 4 ≤ 8) hpos]
  · rfl

lemma decodeField_congr (a' : Access) (hfits : Fits data) (hpos : pos ≤ data.length) :
    decodeField a' data pos = decodeField a data pos := by
  unfold decodeField
  match hkey : readVarint data pos with
  | .ok (key, afterKey) =>
    have hafter := (readVarint_reads hfits).next_le hpos hkey
    simp only [ok_bind, decodeValue_congr (a := a) a' hfits (key % 8) hafter]
  | .error failure => simp only [error_bind]

/-- What taking bytes outside of the list gives does not matter: no such bytes are taken. -/
theorem decodeWith_congr (a' : Access) (hfits : Fits data) : decodeWith a' data = decodeWith a data :=
  (decodeField_reads hfits).loop_congr (fun _ _ => FieldOf.ne_nil) (decodeLoop_repeats a data)
    (decodeLoop_repeats a' data) (decodeField_congr a' hfits) (zero_le _) []

lemma decodeWith_no_crash (hfits : Fits data) (c : Overflow) : decodeWith a data ≠ crash c :=
  (decodeField_reads hfits).loop_no_crash (fun _ _ => FieldOf.ne_nil) (decodeLoop_repeats a data) c
    (zero_le _) []

/-- **Decoding accepts exactly the wire grammar.** It returns the fields that a message of the grammar
denotes, and nothing else; the varints of the grammar denote numbers of 64 bits. On any bytes, it returns
or fails without a crash, and bytes outside of the list, whatever taking them would give, have no part in
it. -/
theorem decode_exactly_grammar (b : List UInt8) (hfits : Fits b) :
    (∀ fields, decode b = .ok fields ↔ MessageOf b fields) ∧ (∀ bs, Varint64 bs → base128 bs < 2 ^ 64) ∧
    (∀ c, decode b ≠ crash c) ∧ ∀ access, decodeWith access b = decode b :=
  ⟨fun _ => decodeWith_ok_iff hfits, fun _ h => h.lt, decodeWith_no_crash hfits, fun a => decodeWith_congr a hfits⟩

/-- A varint with a superfluous digit. -/
theorem decode_exactly_grammar_notMinimal : decode [8, 129, 0] = .ok [(1, .varint 1)] := by
  rw [(decode_exactly_grammar [8, 129, 0] (by decide)).1]
  have hkey : Varint64 [8] := ⟨.last (by decide), by decide, nofun⟩
  have hone : VarintOf [129, 0] 1 := ⟨⟨.more (by decide) (.last (by decide)), by decide, nofun⟩, by simp⟩
  have hfield : FieldOf ([8] ++ [129, 0]) (1, .varint 1) := .mk hkey (by decide) (by simp [wireType]) (.varint hone)
  exact .cons hfield .nil

end RocNet.Protobuf
