import RocNet.Analysis.ProtobufGrammar

/-!
# Decoding what was encoded

Encoding writes the shortest bytes of every field (`encode_eq`), which are a message of the wire grammar, so they are
decoded to the fields again.
-/

namespace RocNet.Protobuf

open Fallible Grammar Varint List Nat UInt64

variable {number : UInt64} {value : Value} {fields : List Field} {bs : List UInt8}

/-! ## The bytes of fields -/

def valueBytes : Value → List UInt8
  | .varint n => canonical n.toNat
  | .fixed64 n => littleEndian n 8
  | .bytes payload => canonical (payload.length % 2 ^ 64) ++ payload
  | .fixed32 n => littleEndian n.toUInt64 4

def fieldBytes (field : Field) : List UInt8 :=
  canonical (field.1.toNat * 8 + wireType field.2) ++ valueBytes field.2

def messageBytes (fields : List Field) : List UInt8 := fields.flatMap fieldBytes

/-- A field number that fits into a key. -/
def InRange (number : UInt64) : Prop := 1 ≤ number.toNat ∧ number.toNat ≤ 2 ^ 61 - 1

lemma varintLoop_eq (rest : UInt64) (out : List UInt8) : varintLoop rest out = .ok (out ++ canonical rest.toNat) := by
  induction hn : rest.toNat using Nat.strongRecOn generalizing rest out with
  | ind n ih =>
    subst hn
    have h128 : (128 : UInt64).toNat = 128 := rfl
    rw [varintLoop]
    split
    · next h =>
      rw [UInt64.le_iff_toNat_le, h128] at h
      have hdigit : (rest % 128).toUInt8.toNat = rest.toNat % 128 := by
        rw [UInt64.toNat_toUInt8, UInt64.toNat_mod, h128]
        omega
      have hbyte : (rest % 128).toUInt8 + 128 = UInt8.ofNat (rest.toNat % 128 + 128) := by
        rw [UInt8.ofNat_add, ← hdigit, UInt8.ofNat_toNat]
        rfl
      have hdiv : (rest / 128).toNat = rest.toNat / 128 := by rw [UInt64.toNat_div, h128]
      rw [addU8_of_lt (by rw [hdigit]; exact Nat.add_lt_add_right (by omega) 128), ok_bind,
        ih _ (by omega) (rest / 128) _ hdiv, canonical_of_le h, hbyte, append_assoc]
      rfl
    · next h =>
      rw [UInt64.not_le, UInt64.lt_iff_toNat_lt, h128] at h
      rw [canonical_of_lt h]
      rfl

lemma varint_eq (n : UInt64) : varint n = .ok (canonical n.toNat) := varintLoop_eq n []

lemma littleEndian_length (n : UInt64) (count : ℕ) : (littleEndian n count).length = count := by
  induction count generalizing n with
  | zero => rfl
  | succ count ih => rw [littleEndian, length_cons, ih]

lemma base256_littleEndian (n : UInt64) (count : ℕ) : base256 (littleEndian n count) = n.toNat % 256 ^ count := by
  induction count generalizing n with
  | zero =>
    rw [pow_zero, mod_one]
    rfl
  | succ count ih =>
    have h256 : (256 : UInt64).toNat = 256 := rfl
    have hpow : 256 ^ (count + 1) = 256 * 256 ^ count := Nat.pow_succ'
    rw [littleEndian, base256_cons, ih, UInt64.toNat_toUInt8, UInt64.toNat_mod, UInt64.toNat_div, h256,
      hpow, Nat.mod_mul]
    omega

lemma mul_eight (h : InRange number) :
    (mulU64 number 8 : Checked UInt64) = .ok (number * 8) ∧ (number * 8).toNat = number.toNat * 8 := by
  unfold InRange at h
  have height : (8 : UInt64).toNat = 8 := rfl
  have hlt : number.toNat * (8 : UInt64).toNat < 2 ^ 64 := by
    rw [height]
    omega
  exact ⟨mulU64_of_lt hlt, by rw [UInt64.toNat_mul, Nat.mod_eq_of_lt hlt, height]⟩

lemma add_wireType (hkey : key.toNat = number.toNat * 8) (h : InRange number) (hw : w.toNat < 8) :
    (addU64 key w : Checked UInt64) = .ok (key + w) ∧ (key + w).toNat = number.toNat * 8 + w.toNat := by
  unfold InRange at h
  have hlt : key.toNat + w.toNat < 2 ^ 64 := by omega
  exact ⟨addU64_of_lt hlt, by rw [UInt64.toNat_add, Nat.mod_eq_of_lt hlt, hkey]⟩

lemma encodeField_eq (out : List UInt8) (h : InRange number) :
    encodeField out (number, value) = .ok (out ++ fieldBytes (number, value)) := by
  obtain ⟨hmul, hkey⟩ := mul_eight h
  cases value with
  | varint n =>
    simp only [encodeField, hmul, ok_bind, varint_eq, hkey, append_assoc]
    rfl
  | fixed64 n =>
    obtain ⟨hadd, hkey⟩ := add_wireType (w := 1) hkey h (by decide)
    simp only [encodeField, hmul, ok_bind, hadd, varint_eq, hkey, append_assoc]
    rfl
  | bytes payload =>
    obtain ⟨hadd, hkey⟩ := add_wireType (w := 2) hkey h (by decide)
    simp only [encodeField, hmul, ok_bind, hadd, varint_eq, hkey, append_assoc, toNat_ofNat']
    rfl
  | fixed32 n =>
    obtain ⟨hadd, hkey⟩ := add_wireType (w := 5) hkey h (by decide)
    simp only [encodeField, hmul, ok_bind, hadd, varint_eq, hkey, append_assoc]
    rfl

lemma encode_eq (h : ∀ field ∈ fields, InRange field.1) : encode fields = .ok (messageBytes fields) := by
  have hfold : ∀ out, fields.foldlM encodeField out = .ok (out ++ messageBytes fields) := by
    induction fields with
    | nil =>
      intro out
      rw [messageBytes, flatMap_nil, append_nil]
      rfl
    | cons field fields ih =>
      intro out
      rw [foldlM_cons, encodeField_eq out (h field mem_cons_self), ok_bind, ih
        (fun f hf => h f (mem_cons_of_mem _ hf)), messageBytes, messageBytes, flatMap_cons, append_assoc]
  exact hfold []

/-! ## The bytes are a message, the shortest one -/

lemma valueBytes_valueOf (hfits : (valueBytes value).length < 2 ^ 64) : ValueOf (valueBytes value) value := by
  cases value with
  | varint n => exact .varint ⟨canonical_varint64 n.toNat_lt, base128_canonical _⟩
  | fixed64 n =>
    refine .fixed64 ⟨littleEndian_length n 8, ?_⟩
    rw [valueBytes, base256_littleEndian]
    exact mod_eq_of_lt n.toNat_lt
  | bytes payload =>
    rw [valueBytes, length_append] at hfits
    have hmod : payload.length % 2 ^ 64 = payload.length := mod_eq_of_lt (by omega)
    rw [valueBytes, hmod]
    exact .bytes (canonical_varint64 (by omega)) (base128_canonical _)
  | fixed32 n =>
    refine .fixed32 ⟨littleEndian_length _ 4, ?_⟩
    rw [valueBytes, base256_littleEndian, UInt32.toNat_toUInt64]
    exact mod_eq_of_lt n.toNat_lt

variable {field : Field} {b : List UInt8}

lemma fieldBytes_fieldOf (h : InRange field.1)
    (hfits : (fieldBytes field).length < 2 ^ 64) : FieldOf (fieldBytes field) field := by
  rw [fieldBytes, length_append] at hfits
  have hw := wireType_lt field.2
  obtain ⟨hpos, hle⟩ := h
  refine .mk (canonical_varint64 (by omega)) ?_ (base128_canonical _) (valueBytes_valueOf (by omega))
  intro hzero
  rw [hzero] at hpos
  exact absurd hpos (by decide)

lemma messageBytes_messageOf (h : ∀ field ∈ fields, InRange field.1)
    (hfits : (messageBytes fields).length < 2 ^ 64) : MessageOf (messageBytes fields) fields := by
  induction fields with
  | nil => exact .nil
  | cons field fields ih =>
    rw [messageBytes, flatMap_cons, length_append] at hfits
    have hrest := ih (fun f hf => h f (mem_cons_of_mem _ hf)) (by unfold messageBytes; omega)
    exact .cons (fieldBytes_fieldOf (h field mem_cons_self) (by omega)) hrest

lemma FieldOf.inRange (h : FieldOf bs field) : InRange field.1 := by
  cases h with
  | @mk key bs number value hkey hne hsum hvalue =>
    have hlt := hkey.lt
    have hpos : number.toNat ≠ 0 := fun h => hne (UInt64.toNat_inj.mp h)
    exact ⟨by dsimp only; omega, by dsimp only; omega⟩

lemma FieldOf.fieldBytes_length_le (h : FieldOf bs field) : (fieldBytes field).length ≤ bs.length := by
  cases h with
  | @mk key bs number value hkey hne hsum hvalue =>
    have hkeyLen := hkey.continued.canonical_length_le
    rw [hsum] at hkeyLen
    have hvalueLen : (valueBytes value).length ≤ bs.length := by
      cases hvalue with
      | varint h =>
        have hlen := h.1.continued.canonical_length_le
        rwa [h.2] at hlen
      | fixed64 h => exact (littleEndian_length _ 8).trans_le h.1.ge
      | @bytes len payload h hlen =>
        have hle := h.continued.canonical_length_le
        rw [hlen] at hle
        have hmod : payload.length % 2 ^ 64 = payload.length := mod_eq_of_lt (hlen ▸ h.lt)
        rw [valueBytes, hmod, length_append, length_append]
        omega
      | fixed32 h => exact (littleEndian_length _ 4).trans_le h.1.ge
    rw [fieldBytes, length_append, length_append]
    exact Nat.add_le_add hkeyLen hvalueLen

/-- Encoding fields takes no more bytes than any message with these fields has. -/
theorem MessageOf.messageBytes_length_le (h : MessageOf b fields) :
    (∀ field ∈ fields, InRange field.1) ∧ (messageBytes fields).length ≤ b.length := by
  induction h with
  | nil => exact ⟨nofun, le_refl 0⟩
  | @cons front back field fields hfield hrest ih =>
    refine ⟨forall_mem_cons.mpr ⟨hfield.inRange, ih.1⟩, ?_⟩
    rw [messageBytes, flatMap_cons, length_append, length_append]
    exact Nat.add_le_add hfield.fieldBytes_length_le ih.2

lemma decode_messageBytes (h : ∀ field ∈ fields, InRange field.1) (hfits : Fits (messageBytes fields)) :
    decode (messageBytes fields) = .ok fields :=
  (decodeWith_ok_iff hfits).mpr (messageBytes_messageOf h (hfits.trans (by decide)))

lemma decode_encode_of_decode (hfits : Fits b) (h : decode b = .ok fields) :
    ∃ bytes, encode fields = .ok bytes ∧ decode bytes = .ok fields := by
  obtain ⟨hrange, hle⟩ := ((decodeWith_ok_iff hfits).mp h).messageBytes_length_le
  exact ⟨_, encode_eq hrange, decode_messageBytes hrange (hle.trans_lt hfits)⟩

/-! ## Messages in messages -/

/-- A value, or a message of fields that may be messages again. -/
inductive Tree
  | value (v : Value)
  | message (fields : List (UInt64 × Tree))

mutual

/-- The value built for a tree, with `message` for every message in it. -/
def Tree.build : Tree → Checked Value
  | .value v => pure v
  | .message fields => do message (← buildFields fields)

def buildFields : List (UInt64 × Tree) → Checked (List Field)
  | [] => pure []
  | (number, tree) :: rest => do
    let value ← tree.build
    let fields ← buildFields rest
    pure ((number, value) :: fields)

end

mutual

/-- All field numbers in a tree are in range. -/
def Tree.Numbered : Tree → Prop
  | .value _ => True
  | .message fields => fieldsNumbered fields

def fieldsNumbered : List (UInt64 × Tree) → Prop
  | [] => True
  | (number, tree) :: rest => InRange number ∧ tree.Numbered ∧ fieldsNumbered rest

end

mutual

/-- A tree is found in a value, with `as_message` for every message in it. -/
def Tree.FoundIn : Tree → Value → Prop
  | .value v, value => value = v
  | .message children, value => ∃ fields, asMessage value = .ok fields ∧ fieldsFoundIn children fields

def fieldsFoundIn : List (UInt64 × Tree) → List Field → Prop
  | [], fields => fields = []
  | (number, tree) :: rest, fields =>
    ∃ value fields', fields = (number, value) :: fields' ∧ tree.FoundIn value ∧ fieldsFoundIn rest fields'

end

/-- The payload of a value fits into memory. -/
def Value.Fits (value : Value) : Prop := ∀ payload, value = .bytes payload → Protobuf.Fits payload

lemma fits_of_mem (hfits : Fits (messageBytes fields)) (h : field ∈ fields) : field.2.Fits := by
  intro payload hpayload
  have hmem := (infix_of_mem_flatten (List.mem_map_of_mem (f := fieldBytes) h)).length_le
  rw [← flatMap_def, fieldBytes, hpayload, valueBytes, length_append, length_append] at hmem
  unfold Fits messageBytes at *
  omega

lemma message_eq (h : ∀ field ∈ fields, InRange field.1) : message fields = .ok (.bytes (messageBytes fields)) := by
  rw [message, encode_eq h]
  rfl

lemma asMessage_message (h : ∀ field ∈ fields, InRange field.1) (hfits : Fits (messageBytes fields)) :
    asMessage (.bytes (messageBytes fields)) = .ok fields := by
  simp only [asMessage, asBytes, decode_messageBytes h hfits]
  rfl

mutual

/-- A tree with its numbers in range is built, and found in what was built. -/
theorem Tree.build_found : ∀ tree : Tree, tree.Numbered →
    ∃ value, tree.build = .ok value ∧ (value.Fits → tree.FoundIn value)
  | .value v, _ => ⟨v, rfl, fun _ => rfl⟩
  | .message children, h => by
    obtain ⟨fields, hbuild, hrange, hfound⟩ := buildFields_found children h
    refine ⟨.bytes (messageBytes fields), ?_, fun hfits => ?_⟩
    · rw [Tree.build, hbuild, ok_bind, message_eq hrange]
    · have hmessage := hfits _ rfl
      exact ⟨fields, asMessage_message hrange hmessage, hfound fun f hf => fits_of_mem hmessage hf⟩

/-- The same of a message's fields. -/
theorem buildFields_found : ∀ children : List (UInt64 × Tree), fieldsNumbered children →
    ∃ fields, buildFields children = .ok fields ∧ (∀ field ∈ fields, InRange field.1) ∧
      ((∀ field ∈ fields, field.2.Fits) → fieldsFoundIn children fields)
  | [], _ => ⟨[], rfl, nofun, fun _ => rfl⟩
  | (number, tree) :: rest, ⟨hnumber, htree, hrest⟩ => by
    obtain ⟨value, hvalue, hfound⟩ := tree.build_found htree
    obtain ⟨fields, hfields, hrange, hfoundRest⟩ := buildFields_found rest hrest
    refine ⟨(number, value) :: fields, ?_, forall_mem_cons.mpr ⟨hnumber, hrange⟩, fun hfits => ?_⟩
    · rw [buildFields, hvalue, ok_bind, hfields]
      rfl
    · obtain ⟨hfits, hfitsRest⟩ := forall_mem_cons.mp hfits
      exact ⟨value, fields, rfl, hfound hfits, hfoundRest hfitsRest⟩

end

/-- **Decoding inverts encoding.** Fields with numbers in range are encoded without overflow, and decoded to
the same fields. So are fields that were decoded from any bytes; and messages built within messages are read
back at every depth. -/
theorem protobuf_round_trip : (∀ fields : List Field, (∀ field ∈ fields, InRange field.1) →
      ∃ bytes, encode fields = .ok bytes ∧ (Fits bytes → decode bytes = .ok fields)) ∧
    (∀ b fields, Fits b → decode b = .ok fields → ∃ bytes, encode fields = .ok bytes ∧ decode bytes = .ok fields) ∧
    ∀ tree : Tree, tree.Numbered → ∃ value, tree.build = .ok value ∧ (value.Fits → tree.FoundIn value) :=
  ⟨fun _ h => ⟨_, encode_eq h, decode_messageBytes h⟩, fun _ _ => decode_encode_of_decode, Tree.build_found⟩

/-- The largest field number with the largest value. -/
theorem protobuf_round_trip_largest :
    ∃ bytes, encode [(2305843009213693951, .varint 18446744073709551615)] = .ok bytes ∧
      decode bytes = .ok [(2305843009213693951, .varint 18446744073709551615)] := by
  have hnumber : (2305843009213693951 : UInt64).toNat = 2 ^ 61 - 1 := rfl
  have hrange : ∀ field ∈ [((2305843009213693951 : UInt64), Value.varint 18446744073709551615)], InRange field.1 :=
    forall_mem_singleton.mpr (by simp [InRange, hnumber])
  obtain ⟨bytes, hencode, hdecode⟩ := protobuf_round_trip.1 _ hrange
  refine ⟨bytes, hencode, hdecode ?_⟩
  obtain rfl : messageBytes _ = bytes := Except.ok.inj ((encode_eq hrange).symm.trans hencode)
  have hkey := (canonical_varint64 (n := (2 ^ 61 - 1) * 8 + 0) (by decide)).length_le
  have hvalue := (canonical_varint64 (toNat_lt 18446744073709551615)).length_le
  simp only [Fits, messageBytes, flatMap_singleton, fieldBytes, valueBytes, wireType, hnumber, length_append]
  omega

end RocNet.Protobuf
