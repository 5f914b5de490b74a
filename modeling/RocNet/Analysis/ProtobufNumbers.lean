import RocNet.Analysis.ProtobufRoundTrip

/-!
# Repeated numbers and scalars

A list of numbers is sent in parts, each packed in one field or with a field for every number, and other fields
between them. Zigzag and its inverse are described by the words they compute with.
-/

namespace RocNet.Protobuf

open Fallible Grammar Varint List

variable {α : Type} {number : UInt64}

/-! ## Unpacking -/

lemma unpackLoop_eq {G : List UInt8 → UInt64 → Prop} {p : ℕ → Result DecodeError Overflow (UInt64 × ℕ)}
    {f : α → UInt64} {bytes : α → List UInt8} {run : List α}
    (advances : ∀ {pos next n}, p pos = .ok (n, next) → pos < next) (hread : Reads (run.flatMap bytes) G p)
    (hne : ∀ bs n, G bs n → bs ≠ []) (hG : ∀ b, G (bytes b) (f b)) :
    unpackLoop (run.flatMap bytes) p advances 0 [] = .ok (run.map f) := by
  have hrepeats : Repeats (run.flatMap bytes) p (unpackLoop (run.flatMap bytes) p advances) := by
    intro pos out
    rw [unpackLoop]
    split
    · split
      · next n next h => simp only [h, ok_bind]
      · next failure h => rw [h]; rfl
    · rfl
  have hmany : Many G (run.flatMap bytes) (run.map f) := by
    clear hread hrepeats
    induction run with
    | nil => exact .nil
    | cons b run ih => exact .cons (hG b) ih
  exact (hread.loop_ok_iff hne hrepeats (Nat.zero_le _)).mpr ⟨_, hmany, rfl⟩

lemma unpackVarints_eq (hfits : Fits (run.flatMap fun n => valueBytes (.varint n))) :
    unpackVarints (run.flatMap fun n => valueBytes (.varint n)) = .ok run := by
  have hloop := unpackLoop_eq (f := id) readVarintLoop_advances (readVarint_reads hfits)
    (fun _ _ h => h.1.continued.ne_nil) fun n => ⟨canonical_varint64 n.toNat_lt, base128_canonical _⟩
  rwa [List.map_id] at hloop

lemma unpackFixed_eq {k : ℕ} {f : α → UInt64} {run : List α} (hk : 0 < k) (hle : k ≤ 8)
    (hf : ∀ b, (f b).toNat < 256 ^ k) (hfits : Fits (run.flatMap fun b => littleEndian (f b) k)) :
    unpackFixed (run.flatMap fun b => littleEndian (f b) k) k hk = .ok (run.map f) := by
  have hlen : (run.flatMap fun b => littleEndian (f b) k).length % k = 0 := by
    simp [length_flatMap, littleEndian_length]
  rw [unpackFixed, if_neg (not_not.mpr hlen)]
  refine unpackLoop_eq (readFixed_advances hk) (fixed_reads (a := access) hfits hle fun n => n) ?_
    fun b => ⟨littleEndian_length _ _, ?_⟩
  · rintro bs n ⟨hbs, -⟩ rfl
    exact hk.ne hbs
  · rw [base256_littleEndian, Nat.mod_eq_of_lt (hf b), UInt64.ofNat_toNat]

/-! ## Sending -/

/-- A part of what is sent: a field with another number; numbers packed; numbers in a field each. -/
inductive Part (α : Type)
  | other (field : Field)
  | packed (run : List α)
  | single (run : List α)

def Part.run : Part α → List α
  | .other _ => []
  | .packed run | .single run => run

/-- The other fields have other numbers, in range. -/
def Part.Beside (number : UInt64) : Part α → Prop
  | .other field => field.1 ≠ number ∧ InRange field.1
  | _ => True

def Part.fields (wrap : α → Value) (number : UInt64) : Part α → Checked (List Field)
  | .other field => pure [field]
  | .packed run => do return [(number, ← Protobuf.packed (run.map wrap))]
  | .single run => pure (run.map fun n => (number, wrap n))

/-- The fields of all parts. -/
def sent (wrap : α → Value) (number : UInt64) : List (Part α) → Checked (List Field)
  | [] => pure []
  | part :: parts => do return (← part.fields wrap number) ++ (← sent wrap number parts)

/-- Numbers wrapped in values are taken out again, one by one and packed. -/
structure Packs (wrap : α → Value) (single : Value → Option α)
    (unpack : List UInt8 → Result DecodeError Overflow (List α)) : Prop where
  single_wrap (n : α) : single (wrap n) = some n
  asBytes_wrap (n : α) : asBytes (wrap n) = none
  unpack_eq (run : List α) : Fits (run.flatMap fun n => valueBytes (wrap n)) →
    unpack (run.flatMap fun n => valueBytes (wrap n)) = .ok run

lemma packed_eq (values : List Value) (h : ∀ value ∈ values, asBytes value = none) :
    packed values = .ok (.bytes (values.flatMap valueBytes)) := by
  have hfold : ∀ out, values.foldlM packValue out = .ok (out ++ values.flatMap valueBytes) := by
    induction values with
    | nil => simp [pure, Except.pure]
    | cons value values ih =>
      obtain ⟨hvalue, hvalues⟩ := forall_mem_cons.mp h
      intro out
      cases value <;> simp_all [asBytes, packValue, varint_eq, valueBytes, pure, Except.pure]
  rw [packed, hfold]
  rfl

lemma repeated_append (front back : List Field) :
    repeated (front ++ back) number = repeated front number ++ repeated back number := by
  have hfold : ∀ (fields : List Field) found, fields.foldl
      (fun found field => if field.1 = number then found ++ [field.2] else found) found =
        found ++ repeated fields number := by
    intro fields
    induction fields with
    | nil => simp [repeated]
    | cons field fields ih =>
      intro found
      rw [repeated, foldl_cons, foldl_cons, ih, ih]
      split <;> simp
  rw [repeated, foldl_append, hfold]
  rfl

variable {wrap : α → Value} {single : Value → Option α} {unpack : List UInt8 → Result DecodeError Overflow (List α)}
  {parts : List (Part α)}

section

variable (h : Packs wrap single unpack)

include h

lemma addNumbers_wrap (out : List α) (n : α) : addNumbers single unpack out (wrap n) = .ok (out ++ [n]) := by
  have hsingle := h.single_wrap n
  have hbytes := h.asBytes_wrap n
  cases hwrap : wrap n <;> simp_all [addNumbers, asBytes, pure, Except.pure]

lemma Packs.run (run out : List α) :
    (repeated (run.map fun n => (number, wrap n)) number).foldlM (addNumbers single unpack) out = .ok (out ++ run) := by
  induction run generalizing out with
  | nil => simp [repeated, pure, Except.pure]
  | cons n run ih =>
    have hone : repeated [(number, wrap n)] number = [wrap n] := by simp [repeated]
    rw [map_cons, ← singleton_append, repeated_append, hone, singleton_append, foldlM_cons,
      addNumbers_wrap h, ok_bind, ih, append_assoc]
    rfl

/-- Fields can be encoded, and the numbers in them are `numbers`. -/
def Carries (single : Value → Option α) (unpack : List UInt8 → Result DecodeError Overflow (List α)) (number : UInt64)
    (fields : List Field) (numbers : List α) : Prop :=
  (∀ field ∈ fields, InRange field.1) ∧ ((∀ field ∈ fields, field.2.Fits) →
    ∀ out, (repeated fields number).foldlM (addNumbers single unpack) out = .ok (out ++ numbers))

lemma Packs.part (hnumber : InRange number) {part : Part α} (hpart : part.Beside number) :
    ∃ fields, part.fields wrap number = .ok fields ∧ Carries single unpack number fields part.run := by
  cases part with
  | other field =>
    exact ⟨[field], rfl, by simpa using hpart.2, by simp [repeated, hpart.1, Part.run, pure, Except.pure]⟩
  | packed run =>
    have hpacked := packed_eq (run.map wrap) (by simpa using fun n _ => h.asBytes_wrap n)
    rw [flatMap_map] at hpacked
    refine ⟨_, by rw [Part.fields, hpacked]; rfl, by simpa using hnumber, fun hfits out => ?_⟩
    have hunpack := h.unpack_eq run (hfits _ mem_cons_self _ rfl)
    simp [repeated, addNumbers, hunpack, Part.run, pure, Except.pure]
  | single run => exact ⟨_, rfl, by simpa using fun _ _ => hnumber, fun _ => h.run run⟩

lemma Packs.sent (hnumber : InRange number)
    (hparts : ∀ part ∈ parts, part.Beside number) : ∃ fields, Protobuf.sent wrap number parts = .ok fields ∧
      Carries single unpack number fields (parts.flatMap Part.run) := by
  induction parts with
  | nil => exact ⟨[], rfl, by simp, fun _ out => by simp [repeated, pure, Except.pure]⟩
  | cons part parts ih =>
    obtain ⟨hpart, hparts⟩ := forall_mem_cons.mp hparts
    obtain ⟨front, hfront, hrange, hread⟩ := h.part hnumber hpart
    obtain ⟨back, hback, hranges, hreads⟩ := ih hparts
    refine ⟨front ++ back, by rw [Protobuf.sent, hfront, ok_bind, hback]; rfl,
      forall_mem_append.mpr ⟨hrange, hranges⟩, fun hfits out => ?_⟩
    obtain ⟨hfits, hfitsBack⟩ := forall_mem_append.mp hfits
    rw [repeated_append, foldlM_append, hread hfits, ok_bind, hreads hfitsBack, flatMap_cons, append_assoc]

/-! ## Reading back -/

/-- However a list of numbers is sent, `read` returns it. -/
def ReadsBack (wrap : α → Value) (read : List Field → UInt64 → Result MessageError Overflow (List α)) : Prop :=
  ∀ number (parts : List (Part α)), InRange number → (∀ part ∈ parts, part.Beside number) →
    ∃ fields bytes, sent wrap number parts = .ok fields ∧ encode fields = .ok bytes ∧
      (Fits bytes → ∃ decoded, decode bytes = .ok decoded ∧ read decoded number = .ok (parts.flatMap Part.run))

lemma Packs.readsBack :
    ReadsBack wrap fun fields number => (repeated fields number).foldlM (addNumbers single unpack) [] := by
  intro number parts hnumber hparts
  obtain ⟨fields, hsent, hrange, hread⟩ := h.sent hnumber hparts
  exact ⟨fields, _, hsent, encode_eq hrange, fun hfits =>
    ⟨fields, decode_messageBytes hrange hfits, hread (fun _ => fits_of_mem hfits) []⟩⟩

end

/-- **Packed and unpacked numbers read the same.** A list is sent in any parts, each packed or with a field for
every number, among any fields with other numbers; what is decoded has the list. -/
theorem repeated_reads_back : ReadsBack .varint repeatedVarints ∧ ReadsBack .fixed64 repeatedFixed64 ∧
    ReadsBack .fixed32 repeatedFixed32 := by
  refine ⟨Packs.readsBack ⟨fun _ => rfl, fun _ => rfl, fun _ => unpackVarints_eq⟩,
    Packs.readsBack ⟨fun _ => rfl, fun _ => rfl, fun run hfits => ?_⟩,
    Packs.readsBack ⟨fun _ => rfl, fun _ => rfl, fun run hfits => ?_⟩⟩
  · have hunpack := unpackFixed_eq (k := 8) (f := id) (by decide) (by decide) UInt64.toNat_lt hfits
    rwa [List.map_id] at hunpack
  · have hunpack := unpackFixed_eq (k := 4) (f := UInt32.toUInt64) (by decide) (by decide) UInt32.toNat_lt hfits
    simp only [valueBytes, hunpack, ok_bind, List.map_map]
    exact congrArg Except.ok (map_id'' (fun n => UInt32.toUInt32_toUInt64 n) run)

/-- Numbers in three parts, with another field between them. -/
theorem repeated_reads_back_parts : ∃ fields bytes,
    sent .varint 1 [.packed [1, 300], .other (2, .bytes [7]), .single [3], .packed []] = .ok fields ∧
    encode fields = .ok bytes ∧
    (Fits bytes → ∃ decoded, decode bytes = .ok decoded ∧ repeatedVarints decoded 1 = .ok [1, 300, 3]) :=
  repeated_reads_back.1 1 _ (by simp [InRange]) (by simp [Part.Beside, InRange])

open Nat UInt64 Except Int64 Int32

/-! ## Zigzag -/

lemma toInt_eq (n : Int64) :
    n.toInt = if n.toUInt64.toNat < 2 ^ 63 then (n.toUInt64.toNat : ℤ) else n.toUInt64.toNat - 2 ^ 64 := by
  have h := BitVec.toInt_eq_toNat_cond n.toBitVec
  change n.toInt = _ at h
  rw [h]
  change (if 2 * n.toUInt64.toNat < 2 ^ 64 then (n.toUInt64.toNat : ℤ) else n.toUInt64.toNat - (2 ^ 64 : ℕ)) = _
  split <;> split <;> omega

lemma toNat_ofInt (x : ℤ) : (Int64.ofInt x).toUInt64.toNat = (x % 2 ^ 64).toNat := BitVec.toNat_ofInt x

lemma twice (h : n.toNat < 2 ^ 63) : (mulU64 n 2 : Checked UInt64) = .ok (n * 2) ∧ (n * 2).toNat = 2 * n.toNat := by
  have htwo : (2 : UInt64).toNat = 2 := rfl
  have hlt : n.toNat * (2 : UInt64).toNat < 2 ^ 64 := by
    rw [htwo]
    omega
  exact ⟨mulU64_of_lt hlt, by rw [UInt64.toNat_mul, Nat.mod_eq_of_lt hlt, htwo, Nat.mul_comm]⟩

lemma zigzag_eq (n : Int64) : ∃ m, zigzag n = .ok m ∧ m.toNat =
    if n.toUInt64.toNat < 2 ^ 63 then 2 * n.toUInt64.toNat else 2 * (2 ^ 64 - n.toUInt64.toNat) - 1 := by
  have hint := toInt_eq n
  have hlt := n.toUInt64.toNat_lt
  have hsign : 0 ≤ n ↔ 0 ≤ n.toInt := le_iff_toInt_le
  unfold zigzag
  by_cases hn : n.toUInt64.toNat < 2 ^ 63
  · rw [if_pos hn] at hint
    rw [if_pos (hsign.mpr (by omega)), (twice hn).1, if_pos hn]
    exact ⟨_, rfl, (twice hn).2⟩
  · rw [if_neg hn] at hint
    have hrest : (Int64.ofInt (0 - (n.toInt + 1))).toUInt64.toNat = 2 ^ 64 - n.toUInt64.toNat - 1 := by
      rw [toNat_ofInt]
      omega
    obtain ⟨hmul, htwice⟩ := twice (n := (Int64.ofInt (0 - (n.toInt + 1))).toUInt64) (by omega)
    have hone : (1 : UInt64).toNat = 1 := rfl
    have hadd : ((Int64.ofInt (0 - (n.toInt + 1))).toUInt64 * 2).toNat + (1 : UInt64).toNat < 2 ^ 64 := by omega
    rw [if_neg (fun h => by have := hsign.mp h; omega), int64_of_mem (by omega) (by omega), ok_bind,
      int64_of_mem (by omega) (by omega), ok_bind, hmul, ok_bind, addU64_of_lt hadd, if_neg hn]
    refine ⟨_, rfl, ?_⟩
    rw [UInt64.toNat_add, Nat.mod_eq_of_lt hadd]
    omega

lemma unzigzag_eq {ε : Type} (m : UInt64) : ∃ n, (unzigzag m : Result ε Overflow Int64) = .ok n ∧
    n.toUInt64.toNat = if m.toNat % 2 = 0 then m.toNat / 2 else 2 ^ 64 - m.toNat / 2 - 1 := by
  have htwo : (2 : UInt64).toNat = 2 := rfl
  have hlt := m.toNat_lt
  have heven : m % 2 = 0 ↔ m.toNat % 2 = 0 := by
    rw [← UInt64.toNat_inj, UInt64.toNat_mod, htwo]
    rfl
  have hhalf : (m / 2).toInt64.toUInt64.toNat = m.toNat / 2 := by
    change (m / 2).toNat = _
    rw [UInt64.toNat_div, htwo]
  unfold unzigzag
  by_cases hm : m.toNat % 2 = 0
  · rw [if_pos (heven.mpr hm), if_pos hm]
    exact ⟨_, rfl, hhalf⟩
  · have hint := toInt_eq (m / 2).toInt64
    rw [hhalf, if_pos (by omega)] at hint
    rw [if_neg (mt heven.mp hm), int64_of_mem (by omega) (by omega), ok_bind, int64_of_mem (by omega) (by omega),
      ok_bind, if_neg hm]
    refine ⟨_, rfl, ?_⟩
    rw [toNat_ofInt]
    omega

variable {ε : Type}

lemma zigzag_iff (n : Int64) (m : UInt64) : zigzag n = .ok m ↔ (unzigzag m : Result ε Overflow Int64) = .ok n := by
  obtain ⟨m', hm', hm⟩ := zigzag_eq n
  obtain ⟨n', hn', hn⟩ := unzigzag_eq (ε := ε) m
  have hlt := n.toUInt64.toNat_lt
  have hmlt := m.toNat_lt
  rw [hm', hn', ok.injEq, ok.injEq]
  constructor
  · rintro rfl
    have hword : n'.toUInt64 = n.toUInt64 := UInt64.toNat_inj.mp (by rw [hn]; split at hm <;> split <;> omega)
    exact congrArg UInt64.toInt64 hword
  · rintro rfl
    refine UInt64.toNat_inj.mp ?_
    rw [hm]
    split at hn <;> split <;> omega

lemma exists_zigzag (n : Int64) : ∃ m, zigzag n = .ok m ∧ (unzigzag m : Result ε Overflow Int64) = .ok n := by
  obtain ⟨m, hm, -⟩ := zigzag_eq n
  exact ⟨m, hm, (zigzag_iff n m).mp hm⟩

/-! ## In a message -/

/-- A value that is built, sent as the last field with its number and read back. -/
def RoundTrips {α β : Type} (build : α → Checked Value) (read : Value → Result WrongType Overflow β) (f : α → β) :
    Prop :=
  ∀ n number front back, InRange number → (∀ field ∈ front ++ back, InRange field.1) →
    (∀ field ∈ back, field.1 ≠ number) →
    ∃ value bytes, build n = .ok value ∧ encode (front ++ (number, value) :: back) = .ok bytes ∧
      (Fits bytes → ∃ fields, decode bytes = .ok fields ∧ get fields number read = .ok (f n))

lemma last_eq (h : ∀ field ∈ back, field.1 ≠ number) :
    last (front ++ (number, value) :: back) number = some value := by
  have hback : ∀ found : Option Value,
      back.foldl (fun found field => if field.1 = number then some field.2 else found) found = found := by
    induction back with
    | nil => exact fun _ => rfl
    | cons field back ih =>
      obtain ⟨hfield, hback⟩ := forall_mem_cons.mp h
      intro found
      rw [foldl_cons, if_neg hfield, ih hback]
  rw [last, foldl_append, foldl_cons, hback, if_pos rfl]

lemma roundTrips {α β : Type} {build : α → Checked Value} {read : Value → Result WrongType Overflow β} {f : α → β}
    (h : ∀ n, ∃ value, build n = .ok value ∧ read value = .ok (f n)) : RoundTrips build read f := by
  intro n number front back hnumber hrange hback
  obtain ⟨value, hbuild, hread⟩ := h n
  have hall : ∀ field ∈ front ++ (number, value) :: back, InRange field.1 := by
    simp only [forall_mem_append, forall_mem_cons] at hrange ⊢
    exact ⟨hrange.1, hnumber, hrange.2⟩
  refine ⟨value, _, hbuild, encode_eq hall, fun hfits => ⟨_, decode_messageBytes hall hfits, ?_⟩⟩
  simp only [get, last_eq hback, hread]
  rfl

lemma toInt32_eq (n : Int64) : n.toUInt64.toUInt32.toInt32 = n.toInt32 := by
  refine toBitVec_inj.mp ?_
  rw [toBitVec_toInt32, BitVec.signExtend_eq_setWidth_of_le _ (by decide)]
  rfl

lemma base128_lt (bs : List UInt8) : base128 bs < 128 ^ bs.length := by
  have h := ofDigits_lt_base_pow_length (b := 128) (l := bs.map fun b => b.toNat % 128) (by decide)
    fun d hd => by
      obtain ⟨b, -, rfl⟩ := mem_map.mp hd
      exact mod_lt _ (by decide)
  rwa [length_map] at h

/-- A negative number takes ten bytes. -/
theorem varint_negative (n : Int64) (h : n < 0) : ∃ bytes, varint n.toUInt64 = .ok bytes ∧ bytes.length = 10 := by
  have hint := toInt_eq n
  have hneg : n.toInt < 0 := lt_iff_toInt_lt.mp h
  have hle : 2 ^ 63 ≤ n.toUInt64.toNat := by
    by_contra hlt
    rw [if_pos (by omega)] at hint
    omega
  refine ⟨_, varint_eq _, le_antisymm (canonical_varint64 n.toUInt64.toNat_lt).length_le ?_⟩
  by_contra hshort
  have hlt := base128_lt (canonical n.toUInt64.toNat)
  have hpow : 128 ^ (canonical n.toUInt64.toNat).length ≤ 128 ^ 9 := Nat.pow_le_pow_right (by decide) (by omega)
  rw [base128_canonical] at hlt
  omega

/-- **Scalars round-trip over their whole range.** A value of any scalar type, built, sent as the last field with
its number and read with `get`, comes back. A negative `int32` takes ten bytes, and is read by `as_int64` as well.
Zigzag is a bijection, and nothing overflows. -/
theorem scalars_round_trip : (RoundTrips (pure <| int32 ·) asInt32 id ∧ RoundTrips (pure <| int64 ·) asInt64 id ∧
      RoundTrips (pure <| uint32 ·) asUint32 id ∧ RoundTrips (pure <| uint64 ·) asUint64 id ∧
      RoundTrips sint32 asSint32 id ∧ RoundTrips sint64 asSint64 id ∧ RoundTrips (pure <| bool ·) asBool id ∧
      RoundTrips (pure <| enum ·) asInt32 id ∧ RoundTrips (pure <| sfixed32 ·) asSfixed32 id ∧
      RoundTrips (pure <| sfixed64 ·) asSfixed64 id) ∧ RoundTrips (pure <| int32 ·) asInt64 Int32.toInt64 ∧
    (∀ n : Int32, n < 0 → ∃ v bytes, int32 n = .varint v ∧ varint v = .ok bytes ∧ bytes.length = 10) ∧
    (∀ n, ∃ m, zigzag n = .ok m) ∧ (∀ m, ∃ n, (unzigzag m : Checked Int64) = .ok n) ∧
    ∀ n m, zigzag n = .ok m ↔ (unzigzag m : Checked Int64) = .ok n := by
  have hint32 (n : Int32) : asInt32 (int32 n) = .ok n := by
    rw [int32, asInt32, readAs, asVarint]
    exact congrArg ok ((toInt32_eq n.toInt64).trans (toInt32_toInt64 n))
  refine ⟨⟨?_, ?_, ?_, ?_, ?_, ?_, ?_, ?_, ?_, ?_⟩, ?_, ?_, ?_, ?_, zigzag_iff⟩
  · exact roundTrips fun n => ⟨_, rfl, hint32 n⟩
  · exact roundTrips fun n => ⟨_, rfl, rfl⟩
  · exact roundTrips fun n => ⟨_, rfl, congrArg ok (UInt32.toUInt32_toUInt64 n)⟩
  · exact roundTrips fun n => ⟨_, rfl, rfl⟩
  · refine roundTrips fun n => ?_
    obtain ⟨m, hm, hn⟩ := exists_zigzag (ε := WrongType) n.toInt64
    refine ⟨.varint m, by rw [sint32, hm]; rfl, ?_⟩
    simp only [asSint32, readAs, asVarint, hn, ok_bind, toInt32_toInt64]
    rfl
  · refine roundTrips fun n => ?_
    obtain ⟨m, hm, hn⟩ := exists_zigzag (ε := WrongType) n
    exact ⟨.varint m, by rw [sint64, hm]; rfl, hn⟩
  · exact roundTrips fun b => ⟨_, rfl, by cases b <;> rfl⟩
  · exact roundTrips fun n => ⟨_, rfl, hint32 n⟩
  · exact roundTrips fun n => ⟨_, rfl, rfl⟩
  · exact roundTrips fun n => ⟨_, rfl, rfl⟩
  · exact roundTrips fun n => ⟨_, rfl, rfl⟩
  · intro n hn
    have hneg : n.toInt64 < 0 := by
      rw [Int64.lt_iff_toInt_lt, Int32.toInt_toInt64]
      exact Int32.lt_iff_toInt_lt.mp hn
    obtain ⟨bytes, hbytes, hlen⟩ := varint_negative n.toInt64 hneg
    exact ⟨_, bytes, rfl, hbytes, hlen⟩
  · exact fun n => (zigzag_eq n).imp fun _ => And.left
  · exact fun m => (unzigzag_eq m).imp fun _ => And.left

end RocNet.Protobuf
