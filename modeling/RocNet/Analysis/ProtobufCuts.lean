import RocNet.Analysis.ProtobufRoundTrip

/-!
# Messages after one another, and messages that are cut off

Where the bytes end within a field, the readers of keys, numbers and payloads all fail with `Truncated`.
-/

namespace RocNet.Protobuf

open List Fallible Grammar Varint Nat UInt64

variable {a : Access} {data front back : List UInt8} {pos : ℕ}

/-! ## After a message -/

lemma Fits.of_append (hfits : Fits (front ++ back)) : Fits front ∧ Fits back := by
  unfold Fits at *
  rw [length_append] at hfits
  omega

lemma drop_front (pos : ℕ) : (front ++ back).drop (front.length + pos) = back.drop pos := by
  rw [← drop_drop, drop_left]

variable {start k count : ℕ} {rest bs : List UInt8} {value scale : UInt64} {fields : List Field}

lemma readVarintLoop_shift (hfits : d + start + k + rest.length < 2 ^ 64) :
    readVarintLoop (d + start) rest (d + start + k) value scale =
      readVarintLoop start rest (start + k) value scale >>= fun r => pure (r.1, d + r.2) := by
  induction rest generalizing k value scale with
  | nil => rfl
  | cons b rest ih =>
    rw [length_cons] at hfits
    rw [readVarintLoop_cons (by omega), readVarintLoop_cons (by omega)]
    split
    · rfl
    · split
      · simp only [add_assoc]
        rfl
      · apply ih
        omega

section

variable (hfits : Fits (front ++ back))

include hfits

lemma readVarint_shifts : Shifts front back readVarint := by
  intro pos hpos
  unfold readVarint
  rw [drop_front]
  apply readVarintLoop_shift (k := 0)
  unfold Fits at hfits
  rw [length_append] at hfits
  rw [length_drop]
  omega

lemma fixed_shifts (hcount : count ≤ 8) (f : UInt64 → Value) :
    Shifts front back (fun data pos => do
      let n ← readLittleEndian a data pos count
      let next ← add64 pos count
      pure (f n, next)) := by
  intro pos hpos
  have hle : front.length + pos ≤ (front ++ back).length := by
    rw [length_append]
    omega
  simp only [readLittleEndian_eq hfits hcount hle, drop_front, readLittleEndian_eq hfits.of_append.2 hcount hpos]
  unfold Fits at hfits
  rw [length_append] at hfits ⊢
  by_cases hlt : back.length < pos + count
  · rw [if_pos hlt, if_pos (by omega)]
    rfl
  · rw [if_neg hlt, if_neg (by omega), ok_bind, ok_bind, add64_of_lt (by omega), add64_of_lt (by omega), add_assoc]
    rfl

lemma payload_shifts (len : UInt64) :
    Shifts front back (fun data after => do
      let left ← sub64 data.length after
      if left < len.toNat then (fail .truncated : Result DecodeError Overflow (Value × ℕ))
      else
        let next ← add64 after len.toNat
        pure (.bytes (a.sublist data after len.toNat), next)) := by
  intro pos hpos
  unfold Fits at hfits
  rw [length_append] at hfits
  simp only [length_append]
  rw [sub64_of_le (by omega), sub64_of_le hpos, ok_bind, ok_bind, Nat.add_sub_add_left]
  split
  · rfl
  · have hlen : front.length + pos + len.toNat ≤ (front ++ back).length := by
      rw [length_append]
      omega
    rw [add64_of_lt (by omega), add64_of_lt (by omega), a.sublist_of_le _ _ _ hlen,
      a.sublist_of_le _ _ _ (by omega), drop_front, add_assoc]
    rfl

lemma decodeValue_shifts (w : UInt64) : Shifts front back (fun data => decodeValue a data w) := by
  have hvarint := readVarint_reads hfits.of_append.2
  unfold decodeValue
  generalize w.toNat = k
  match k with
  | 0 => exact Shifts.bind hvarint (readVarint_shifts hfits) fun n => Shifts.pure (Value.varint n)
  | 1 => exact fixed_shifts hfits (by decide) .fixed64
  | 2 => exact Shifts.bind hvarint (readVarint_shifts hfits) fun len => payload_shifts hfits len
  | 5 => exact fixed_shifts hfits (by decide) fun n => .fixed32 n.toUInt32
  | 3 | 4 | k + 6 => exact Shifts.fail _

lemma decodeField_shifts : Shifts front back (decodeField a) := by
  apply Shifts.bind (readVarint_reads hfits.of_append.2) (readVarint_shifts hfits)
    (q := fun key data afterKey => if key / 8 = 0 then fail (.badFieldNumber (key / 8)) else
      decodeValue a data (key % 8) afterKey >>= fun r => pure ((key / 8, r.1), r.2))
  intro key
  by_cases hzero : key / 8 = 0
  · simp only [if_pos hzero]
    exact Shifts.fail _
  · simp only [if_neg hzero]
    exact Shifts.bind (decodeValue_reads hfits.of_append.2 (key % 8)) (decodeValue_shifts hfits (key % 8))
      fun value => Shifts.pure (key / 8, value)

lemma decode_append (h : decode front = .ok fields) :
    decode (front ++ back) = decode back >>= fun more => pure (fields ++ more) := by
  have hmessage : MessageOf front fields := (decodeWith_ok_iff hfits.of_append.1).mp h
  have hskip : decodeLoop access (front ++ back) 0 [] =
      decodeLoop access (front ++ back) (0 + front.length) ([] ++ fields) :=
    (decodeField_reads hfits).loop_skip (fun _ _ => FieldOf.ne_nil) (decodeLoop_repeats access _) hmessage
      (zero_le _) (prefix_append front back)
  have hgo := Shifts.loop (decodeField_reads hfits.of_append.2) (fun _ _ => FieldOf.ne_nil)
    (decodeField_shifts (a := access) hfits) (decodeLoop_repeats access) (zero_le _) fields []
  rw [append_nil, add_zero] at hgo
  rw [zero_add, nil_append] at hskip
  exact hskip.trans hgo

end

/-! ## Cut off within a field -/

lemma readVarintLoop_cut (hfits : start + k + rest.length < 2 ^ 64) (hk : k ≤ 9) (hbs : From k bs)
    (hcut : rest <+: bs) (hne : rest ≠ bs) : readVarintLoop start rest (start + k) value scale = fail .truncated := by
  induction rest generalizing k bs value scale with
  | nil => rfl
  | cons b rest ih =>
    rw [length_cons] at hfits
    obtain ⟨more, rfl⟩ := hcut
    rw [cons_append] at hbs hne
    obtain ⟨hover, hlast | ⟨hmore, hrest⟩⟩ := (from_cons_iff hk).mp hbs
    · obtain ⟨rfl, rfl⟩ := append_eq_nil_iff.mp hlast.2
      exact absurd rfl hne
    · have hlen := hrest.length_le
      have hpos := length_pos_iff.mpr hrest.continued.ne_nil
      rw [readVarintLoop_cons (by omega), if_neg hover, if_neg (UInt8.not_lt.mpr hmore)]
      apply ih (by omega) (by omega) hrest (prefix_append rest more)
      intro heq
      exact hne (congrArg (b :: ·) heq)

lemma readVarint_cuts (hfits : Fits data) : Cuts data VarintOf (readVarint data) .truncated := by
  intro pos bs n hpos hbs hcut hne
  apply readVarintLoop_cut (k := 0) _ (by decide) (from_zero_iff.mpr hbs.1) hcut hne
  unfold Fits at hfits
  rw [length_drop]
  omega

lemma fixed_cuts (hfits : Fits data) (hcount : count ≤ 8) (f : UInt64 → Value) :
    Cuts data (fun bs (_ : Value) => bs.length = count) (fun pos => do
      let n ← readLittleEndian a data pos count
      let next ← add64 pos count
      pure (f n, next)) .truncated := by
  apply Cuts.of_length
  intro pos hpos hlt
  rw [readLittleEndian_eq hfits hcount hpos, if_pos hlt]
  rfl

lemma payload_cuts (len : UInt64) :
    Cuts data (fun bs (_ : Value) => bs.length = len.toNat) (fun after => do
      let left ← sub64 data.length after
      if left < len.toNat then (fail .truncated : Result DecodeError Overflow (Value × ℕ))
      else
        let next ← add64 after len.toNat
        pure (.bytes (a.sublist data after len.toNat), next)) .truncated := by
  apply Cuts.of_length
  intro pos hpos hlt
  rw [sub64_of_le hpos, ok_bind, if_pos (by omega)]

lemma decodeValue_cuts (hfits : Fits data) (w : UInt64) :
    Cuts data (fun bs value => ValueOf bs value ∧ wireType value = w.toNat) (decodeValue a data w) .truncated := by
  have hvarint := readVarint_reads hfits
  unfold decodeValue
  generalize w.toNat = k
  match k with
  | 0 =>
    refine (Cuts.bind hvarint (readVarint_cuts hfits) fun n => Cuts.pure (Value.varint n)).congr ?_
    rintro bs value ⟨hvalue, hw⟩
    cases hvalue with
    | varint hn => exact ⟨_, bs, [], (append_nil bs).symm, hn, rfl, rfl⟩
    | _ => cases hw
  | 1 =>
    refine (fixed_cuts hfits (by decide) .fixed64).congr ?_
    rintro bs value ⟨hvalue, hw⟩
    cases hvalue with
    | fixed64 hn => exact hn.1
    | _ => cases hw
  | 2 =>
    refine (Cuts.bind hvarint (readVarint_cuts hfits) fun len => payload_cuts len).congr ?_
    rintro bs value ⟨hvalue, hw⟩
    cases hvalue with
    | @bytes len payload hlen hpayload =>
      have heq : (ofNat payload.length).toNat = payload.length := toNat_ofNat_of_lt' (hpayload ▸ hlen.lt)
      exact ⟨.ofNat payload.length, len, payload, rfl, ⟨hlen, hpayload.trans heq.symm⟩, heq.symm⟩
    | _ => cases hw
  | 5 =>
    refine (fixed_cuts hfits (by decide) fun n => .fixed32 n.toUInt32).congr ?_
    rintro bs value ⟨hvalue, hw⟩
    cases hvalue with
    | fixed32 hn => exact hn.1
    | _ => cases hw
  | 3 | 4 | k + 6 =>
    rintro pos bs value hpos ⟨-, hw⟩
    cases value <;> cases hw

lemma decodeField_cuts (hfits : Fits data) : Cuts data FieldOf (decodeField a data) .truncated := by
  have hafter : ∀ key : UInt64, Cuts data
      (fun bs field => field.1 = key / 8 ∧ field.1 ≠ 0 ∧ ValueOf bs field.2 ∧ wireType field.2 = (key % 8).toNat)
      (fun afterKey => if key / 8 = 0 then fail (.badFieldNumber (key / 8)) else
        decodeValue a data (key % 8) afterKey >>= fun r =>
          (pure ((key / 8, r.1), r.2) : Result DecodeError Overflow (Field × ℕ))) .truncated := by
    rintro key pos bs field hpos ⟨hnumber, hne, hvalue⟩ hcut hshort
    have hzero : key / 8 ≠ 0 := hnumber ▸ hne
    simp only [if_neg hzero, decodeValue_cuts hfits _ hpos hvalue hcut hshort]
    rfl
  refine (Cuts.bind (readVarint_reads hfits) (readVarint_cuts hfits) hafter).congr ?_
  intro bs field hfield
  cases hfield with
  | @mk key bs number value hkey hne hsum hvalue =>
    have heq : (ofNat (base128 key)).toNat = base128 key := toNat_ofNat_of_lt' hkey.lt
    obtain ⟨hnumber, hw⟩ := (key_iff (wireType_lt value)).mp (heq.trans hsum)
    exact ⟨.ofNat (base128 key), key, bs, rfl, ⟨hkey, heq.symm⟩, hnumber, hne, hvalue, hw⟩

lemma decode_cut (hfits : Fits data) (h : FieldOf bs field) (hcut : data <+: bs) (hne : data ≠ bs)
    (hnil : data ≠ []) : decode data = fail .truncated := by
  have hfield : decodeField access data 0 = fail .truncated :=
    decodeField_cuts hfits (zero_le _) h (by rwa [drop_zero]) (by rwa [drop_zero])
  unfold decode decodeWith
  rw [decodeLoop_repeats access data, if_pos (length_pos_iff.mpr hnil), hfield]
  rfl

/-! ## Cut off anywhere -/

section

variable (h : ∀ field ∈ fields, InRange field.1)

include h

/-- A part of an encoding from its start on: whole fields, or cut off within one. -/
theorem decode_part (hfits : Fits (messageBytes fields)) (hpart : data <+: messageBytes fields) :
    (∃ j ≤ fields.length, data = messageBytes (fields.take j)) ∨ decode data = fail .truncated := by
  induction fields generalizing data with
  | nil => exact .inl ⟨0, le_refl 0, prefix_nil.mp hpart⟩
  | cons field fields ih =>
    obtain ⟨hfield, hrest⟩ := forall_mem_cons.mp h
    have hcons : messageBytes (field :: fields) = fieldBytes field ++ messageBytes fields := flatMap_cons
    rw [hcons] at hpart hfits
    by_cases hwhole : fieldBytes field <+: data
    · -- the first field is whole, and the rest is a part of the encoding of the others
      obtain ⟨rest, rfl⟩ := hwhole
      have hrestPart := (prefix_append_right_inj _).mp hpart
      rcases ih hrest hfits.of_append.2 hrestPart with ⟨j, hj, rfl⟩ | hcut
      · exact .inl ⟨j + 1, succ_le_succ hj, flatMap_cons.symm⟩
      · have hsingle : messageBytes [field] = fieldBytes field := flatMap_singleton _ _
        have hfirst : decode (fieldBytes field) = .ok [field] := by
          rw [← hsingle] at hfits ⊢
          exact decode_messageBytes (forall_mem_singleton.mpr hfield) hfits.of_append.1
        have hfitsPart : Fits (fieldBytes field ++ rest) := hpart.length_le.trans_lt hfits
        right
        rw [decode_append hfitsPart hfirst, hcut]
        rfl
    · have hshort : data <+: fieldBytes field :=
        (List.prefix_or_prefix_of_prefix hpart (prefix_append _ _)).resolve_right hwhole
      by_cases hnil : data = []
      · exact .inl ⟨0, zero_le _, hnil⟩
      · have hlt : (fieldBytes field).length < 2 ^ 64 := hfits.of_append.1.trans (by decide)
        right
        apply decode_cut _ (fieldBytes_fieldOf hfield hlt) hshort _ hnil
        · exact hshort.length_le.trans_lt hfits.of_append.1
        · rintro rfl
          exact hwhole (prefix_refl _)

/-- The encoding of the first `j` fields ends after `k` bytes. -/
def EndsAt (fields : List Field) (j k : ℕ) : Prop :=
  ∃ bytes, encode (fields.take j) = .ok bytes ∧ k = bytes.length

lemma take_inRange (j : ℕ) : ∀ field ∈ fields.take j, InRange field.1 :=
  fun field hfield => h field (mem_of_mem_take hfield)

lemma endsAt_iff : EndsAt fields j k ↔ k = (messageBytes (fields.take j)).length := by
  unfold EndsAt
  rw [encode_eq (take_inRange h j)]
  constructor
  · rintro ⟨bytes, hbytes, rfl⟩
    cases hbytes
    rfl
  · rintro rfl
    exact ⟨_, rfl, rfl⟩

end

lemma messageBytes_take_prefix (fields : List Field) (j : ℕ) :
    messageBytes (fields.take j) <+: messageBytes fields := by
  refine ⟨messageBytes (fields.drop j), ?_⟩
  unfold messageBytes
  rw [← flatMap_append, take_append_drop]

/-- **Messages concatenate and are cut off cleanly.** What follows a message is decoded after it, to its
fields or to its error. The first bytes of an encoding are decoded to the first fields where they end with
one of them, and are truncated everywhere else. -/
theorem protobuf_concatenates_and_truncates : (∀ a b fa, Fits (a ++ b) → decode a = .ok fa →
      (∀ fb, decode b = .ok fb → decode (a ++ b) = .ok (fa ++ fb)) ∧
      (∀ e, decode b = fail e → decode (a ++ b) = fail e)) ∧
    ∀ fields : List Field, (∀ field ∈ fields, InRange field.1) →
      ∃ bytes, encode fields = .ok bytes ∧ (Fits bytes → ∀ k ≤ bytes.length,
        (∀ j ≤ fields.length, EndsAt fields j k → decode (bytes.take k) = .ok (fields.take j)) ∧
        ((∀ j ≤ fields.length, ¬EndsAt fields j k) → decode (bytes.take k) = fail .truncated)) := by
  constructor
  · intro a b fa hfits ha
    constructor
    · intro fb hb
      rw [decode_append hfits ha, hb]
      rfl
    · intro e hb
      rw [decode_append hfits ha, hb]
      rfl
  · intro fields h
    refine ⟨messageBytes fields, encode_eq h, fun hfits k hk => ⟨fun j hj hend => ?_, fun hnone => ?_⟩⟩
    · rw [endsAt_iff h] at hend
      have hprefix := messageBytes_take_prefix fields j
      rw [hend, ← prefix_iff_eq_take.mp hprefix]
      exact decode_messageBytes (take_inRange h j) (lt_of_le_of_lt hprefix.length_le hfits)
    · rcases decode_part h hfits (List.take_prefix k (messageBytes fields)) with ⟨j, hj, heq⟩ | hcut
      · apply absurd ((endsAt_iff h).mpr _) (hnone j hj)
        rw [← heq, length_take, min_eq_left hk]
      · exact hcut

/-- Two fields that were encoded apart, and the first of them without its last byte. -/
theorem protobuf_concatenates_and_truncates_twoFields :
    decode ([8, 1] ++ [16, 2]) = .ok [(1, .varint 1), (2, .varint 2)] ∧ decode [8] = fail .truncated := by
  have hrange : ∀ number : UInt64, number.toNat = 1 ∨ number.toNat = 2 → ∀ value : Value,
      ∀ field ∈ [(number, value)], InRange field.1 := by
    intro number hnumber value
    simp only [forall_mem_singleton, InRange]
    omega
  have hone : messageBytes [(1, .varint 1)] = [8, 1] := by
    simp [messageBytes, fieldBytes, valueBytes, wireType, canonical]
  have htwo : messageBytes [(2, .varint 2)] = [16, 2] := by
    simp [messageBytes, fieldBytes, valueBytes, wireType, canonical]
  have hdecodeOne : decode [8, 1] = .ok [(1, .varint 1)] :=
    hone ▸ decode_messageBytes (hrange 1 (.inl rfl) _) (hone ▸ by decide)
  have hdecodeTwo : decode [16, 2] = .ok [(2, .varint 2)] :=
    htwo ▸ decode_messageBytes (hrange 2 (.inr rfl) _) (htwo ▸ by decide)
  constructor
  · exact (protobuf_concatenates_and_truncates.1 [8, 1] [16, 2] _ (by decide) hdecodeOne).1 _ hdecodeTwo
  · obtain ⟨bytes, hencode, hcut⟩ := protobuf_concatenates_and_truncates.2 [(1, .varint 1)] (hrange 1 (.inl rfl) _)
    obtain rfl : [8, 1] = bytes := Except.ok.inj ((hone ▸ encode_eq (hrange 1 (.inl rfl) _)).symm.trans hencode)
    apply (hcut (by decide) 1 (by decide)).2
    intro j hj hend
    rw [endsAt_iff (hrange 1 (.inl rfl) _)] at hend
    rcases j with _ | _ | j
    · cases hend
    · rw [take_succ_cons, take_zero, hone] at hend
      cases hend
    · simp at hj

end RocNet.Protobuf
