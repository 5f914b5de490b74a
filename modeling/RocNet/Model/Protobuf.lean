import RocNet.Library.Fallible

/-!
# Protocol Buffers

`packages/protobuf/Protobuf.roc`: a message is a list of fields, each a field number and a value. Arithmetic on words
is checked where the package writes `+`, `-` and `*`, and wraps where it says so. Positions and lengths are natural
numbers, with 64-bit checked arithmetic.

What `List.get(data, i) ?? 0` and `List.sublist` give outside of the list is a parameter (`Access`), so that it can be
said that it does not matter.
-/

namespace RocNet.Protobuf

open Fallible

/-! ## Fields -/

/-- `Protobuf.Value`. -/
inductive Value
  | varint (n : UInt64)
  | fixed64 (n : UInt64)
  | fixed32 (n : UInt32)
  | bytes (payload : List UInt8)
  deriving DecidableEq, Repr

abbrev Field := UInt64 × Value

/-- The errors of `decode`. -/
inductive DecodeError
  | truncated
  | overlong
  | badWireType (wireType : UInt64)
  | badFieldNumber (number : UInt64)
  deriving DecidableEq, Repr

/-- A computation that can only crash. -/
abbrev Checked (α : Type) := Result Empty Overflow α

/-! ## Encoding -/

/-- The loop of `varint`. -/
def varintLoop (rest : UInt64) (out : List UInt8) : Checked (List UInt8) :=
  if 128 ≤ rest then do
    let b ← addU8 (rest % 128).toUInt8 128
    varintLoop (rest / 128) (out ++ [b])
  else pure (out ++ [rest.toUInt8])
termination_by rest.toNat
decreasing_by
  rename_i h
  rw [UInt64.le_iff_toNat_le] at h
  rw [UInt64.toNat_div]
  exact Nat.div_lt_self (Nat.lt_of_lt_of_le (by decide) h) (by decide)

def varint (n : UInt64) : Checked (List UInt8) := varintLoop n []

/-- `little_endian(value, count)`. -/
def littleEndian (value : UInt64) : ℕ → List UInt8
  | 0 => []
  | count + 1 => (value % 256).toUInt8 :: littleEndian (value / 256) count

/-- What `encode` appends for a field. -/
def encodeField (out : List UInt8) : Field → Checked (List UInt8)
  | (number, .varint n) => do
    let key ← mulU64 number 8
    return out ++ (← varint key) ++ (← varint n)
  | (number, .fixed64 n) => do
    let key ← addU64 (← mulU64 number 8) 1
    return out ++ (← varint key) ++ littleEndian n 8
  | (number, .bytes payload) => do
    let key ← addU64 (← mulU64 number 8) 2
    return out ++ (← varint key) ++ (← varint (UInt64.ofNat payload.length)) ++ payload
  | (number, .fixed32 n) => do
    let key ← addU64 (← mulU64 number 8) 5
    return out ++ (← varint key) ++ littleEndian n.toUInt64 4

def encode (fields : List Field) : Checked (List UInt8) := fields.foldlM encodeField []

/-! ## Decoding -/

/-- How bytes of a list are taken. -/
structure Access where
  byte : List UInt8 → ℕ → UInt8
  sublist : List UInt8 → ℕ → ℕ → List UInt8
  byte_of_lt (data : List UInt8) (i : ℕ) (h : i < data.length) : byte data i = data[i]
  sublist_of_le (data : List UInt8) (start len : ℕ) (h : start + len ≤ data.length) :
    sublist data start len = (data.drop start).take len

/-- As the package takes them: a missing byte is 0, and `List.sublist` ends with the list. -/
def access : Access where
  byte data i := data[i]?.getD 0
  sublist data start len := (data.drop start).take len
  byte_of_lt data i h := by rw [List.getElem?_eq_getElem h, Option.getD_some]
  sublist_of_le _ _ _ _ := rfl

/-- The loop of `read_varint`, over the bytes from `pos` on. -/
def readVarintLoop (start : ℕ) :
    List UInt8 → ℕ → UInt64 → UInt64 → Result DecodeError Overflow (UInt64 × ℕ)
  | [], _, _, _ => fail .truncated
  | b :: rest, pos, value, scale => do
    let read ← sub64 pos start
    -- ten bytes at most, the tenth with room for one more bit
    if read = 9 ∧ 1 < b then fail .overlong
    else
      let value := value + (b % 128).toUInt64 * scale
      let next ← add64 pos 1
      if b < 128 then pure (value, next)
      else readVarintLoop start rest next value (scale * 128)

/-- The varint at `start`, and where the next byte is. -/
def readVarint (data : List UInt8) (start : ℕ) : Result DecodeError Overflow (UInt64 × ℕ) :=
  readVarintLoop start (data.drop start) start 0 1

/-- The loop of `read_little_endian`, with `i` bytes to come. -/
def readLittleEndianLoop (access : Access) (data : List UInt8) (pos : ℕ) :
    ℕ → UInt64 → Result DecodeError Overflow UInt64
  | 0, value => pure value
  | i + 1, value => do
    let index ← add64 pos i
    let value ← addU64 (value * 256) (access.byte data index).toUInt64
    readLittleEndianLoop access data pos i value

def readLittleEndian (access : Access) (data : List UInt8) (pos count : ℕ) :
    Result DecodeError Overflow UInt64 := do
  let last ← add64 pos count
  if data.length < last then fail .truncated
  else readLittleEndianLoop access data pos count 0

/-- The value of wire type `wireType` at `afterKey`, and where the next field is. -/
def decodeValue (access : Access) (data : List UInt8) (wireType : UInt64) (afterKey : ℕ) :
    Result DecodeError Overflow (Value × ℕ) :=
  match wireType.toNat with
  | 0 => do
    let (n, after) ← readVarint data afterKey
    pure (.varint n, after)
  | 1 => do
    let n ← readLittleEndian access data afterKey 8
    let next ← add64 afterKey 8
    pure (.fixed64 n, next)
  | 2 => do
    let (len, after) ← readVarint data afterKey
    let left ← sub64 data.length after
    if left < len.toNat then fail .truncated
    else
      let next ← add64 after len.toNat
      pure (.bytes (access.sublist data after len.toNat), next)
  | 5 => do
    let n ← readLittleEndian access data afterKey 4
    let next ← add64 afterKey 4
    pure (.fixed32 n.toUInt32, next)
  | _ => fail (.badWireType wireType)

/-- A turn of the loop of `decode`: the field at `pos`, and where the next one is. -/
def decodeField (access : Access) (data : List UInt8) (pos : ℕ) :
    Result DecodeError Overflow (Field × ℕ) := do
  let (key, afterKey) ← readVarint data pos
  let number := key / 8
  if number = 0 then fail (.badFieldNumber number)
  else
    let (value, next) ← decodeValue access data (key % 8) afterKey
    pure ((number, value), next)

variable {pos next : ℕ} {data : List UInt8}

lemma readVarintLoop_advances (h : readVarintLoop start rest pos value scale = .ok (n, next)) : pos < next := by
  induction rest generalizing pos value scale with
  | nil => cases h
  | cons b rest ih =>
    obtain ⟨read, -, h⟩ := bind_eq_ok h
    split at h
    · cases h
    · obtain ⟨after, hafter, h⟩ := bind_eq_ok h
      have heq := add64_ok hafter
      split at h
      · cases h
        omega
      · have hrest := ih h
        omega

variable {a : Access}

lemma decodeValue_advances {wireType : UInt64} (h : decodeValue a data wireType afterKey = .ok (value, next)) :
    afterKey ≤ next := by
  unfold decodeValue at h
  split at h
  · obtain ⟨⟨n, after⟩, hread, h⟩ := bind_eq_ok h
    cases h
    exact Nat.le_of_lt (readVarintLoop_advances hread)
  · obtain ⟨n, -, h⟩ := bind_eq_ok h
    obtain ⟨after, hafter, h⟩ := bind_eq_ok h
    cases h
    have heq := add64_ok hafter
    omega
  · obtain ⟨⟨len, after⟩, hread, h⟩ := bind_eq_ok h
    have hlt := readVarintLoop_advances hread
    obtain ⟨left, -, h⟩ := bind_eq_ok h
    split at h
    · cases h
    · obtain ⟨next, hnext, h⟩ := bind_eq_ok h
      cases h
      have heq := add64_ok hnext
      omega
  · obtain ⟨n, -, h⟩ := bind_eq_ok h
    obtain ⟨after, hafter, h⟩ := bind_eq_ok h
    cases h
    have heq := add64_ok hafter
    omega
  · cases h

/-- Every turn of the loop of `decode` goes on. -/
theorem decodeField_advances (h : decodeField a data pos = .ok (field, next)) : pos < next := by
  obtain ⟨⟨key, afterKey⟩, hkey, h⟩ := bind_eq_ok h
  have hlt := readVarintLoop_advances hkey
  dsimp only at h
  split at h
  · cases h
  · obtain ⟨⟨value, next⟩, hvalue, h⟩ := bind_eq_ok h
    cases h
    exact Nat.lt_of_lt_of_le hlt (decodeValue_advances hvalue)

def decodeLoop (access : Access) (data : List UInt8) (pos : ℕ) (fields : List Field) :
    Result DecodeError Overflow (List Field) :=
  if pos < data.length then
    match hfield : decodeField access data pos with
    | .ok (field, next) =>
      have := decodeField_advances hfield
      decodeLoop access data next (fields ++ [field])
    | .error failure => .error failure
  else pure fields
termination_by data.length - pos

/-- `decode`, with bytes taken as `access` says. -/
def decodeWith (access : Access) (data : List UInt8) : Result DecodeError Overflow (List Field) :=
  decodeLoop access data 0 []

def decode (data : List UInt8) : Result DecodeError Overflow (List Field) := decodeWith access data

/-! ## Messages in messages -/

/-- The errors of `as_message`, `repeated_varints` and the like. -/
inductive MessageError
  | wrongType
  | decoding (e : DecodeError)
  deriving DecidableEq, Repr

def message (fields : List Field) : Checked Value := do
  return .bytes (← encode fields)

/-- `as_bytes`: only the payload of `Bytes` is one. -/
def asBytes : Value → Option (List UInt8)
  | .bytes payload => some payload
  | _ => none

def asMessage (value : Value) : Result MessageError Overflow (List Field) :=
  match asBytes value with
  | none => fail .wrongType
  | some payload =>
    match decode payload with
    | .ok fields => pure fields
    | .error (.err e) => fail (.decoding e)
    | .error (.crash c) => crash c

/-! ## Repeated fields -/

/-- What `packed` appends for a value. -/
def packValue (out : List UInt8) : Value → Checked (List UInt8)
  | .varint n => do return out ++ (← varint n)
  | .fixed64 n => pure (out ++ littleEndian n 8)
  | .fixed32 n => pure (out ++ littleEndian n.toUInt64 4)
  | .bytes b => pure (out ++ b)

def packed (values : List Value) : Checked Value := do
  return .bytes (← values.foldlM packValue [])

def repeated (fields : List Field) (number : UInt64) : List Value :=
  fields.foldl (fun found field => if field.1 = number then found ++ [field.2] else found) []

/-- The loop of `unpack_varints` and of `unpack_fixed`, which differ in how a number is read. -/
def unpackLoop (data : List UInt8) (read : ℕ → Result DecodeError Overflow (UInt64 × ℕ))
    (advances : ∀ {pos next n}, read pos = .ok (n, next) → pos < next) (pos : ℕ) (out : List UInt64) :
    Result DecodeError Overflow (List UInt64) :=
  if pos < data.length then
    match hread : read pos with
    | .ok (n, next) =>
      have := advances hread
      unpackLoop data read advances next (out ++ [n])
    | .error failure => .error failure
  else pure out
termination_by data.length - pos

def unpackVarints (data : List UInt8) : Result DecodeError Overflow (List UInt64) :=
  unpackLoop data (readVarint data) readVarintLoop_advances 0 []

/-- A turn of the loop of `unpack_fixed`. -/
def readFixed (data : List UInt8) (size pos : ℕ) : Result DecodeError Overflow (UInt64 × ℕ) := do
  let n ← readLittleEndian access data pos size
  let next ← add64 pos size
  pure (n, next)

lemma readFixed_advances (hsize : 0 < size) (h : readFixed data size pos = .ok (n, next)) : pos < next := by
  obtain ⟨n, -, h⟩ := bind_eq_ok h
  obtain ⟨after, hafter, h⟩ := bind_eq_ok h
  cases h
  have heq := add64_ok hafter
  omega

def unpackFixed (data : List UInt8) (size : ℕ) (hsize : 0 < size) : Result DecodeError Overflow (List UInt64) :=
  if data.length % size ≠ 0 then fail .truncated
  else unpackLoop data (readFixed data size) (readFixed_advances hsize) 0 []

/-- A turn of the loops of `repeated_varints` and the like: the value is one number, or numbers packed. -/
def addNumbers {α : Type} (single : Value → Option α) (unpack : List UInt8 → Result DecodeError Overflow (List α))
    (out : List α) : Value → Result MessageError Overflow (List α)
  | .bytes packed =>
    match unpack packed with
    | .ok numbers => pure (out ++ numbers)
    | .error (.err e) => fail (.decoding e)
    | .error (.crash c) => crash c
  | value =>
    match single value with
    | some n => pure (out ++ [n])
    | none => fail .wrongType

def asVarint : Value → Option UInt64
  | .varint n => some n
  | _ => none

def asFixed64 : Value → Option UInt64
  | .fixed64 n => some n
  | _ => none

def asFixed32 : Value → Option UInt32
  | .fixed32 n => some n
  | _ => none

def repeatedVarints (fields : List Field) (number : UInt64) : Result MessageError Overflow (List UInt64) :=
  (repeated fields number).foldlM (addNumbers asVarint unpackVarints) []

def repeatedFixed64 (fields : List Field) (number : UInt64) : Result MessageError Overflow (List UInt64) :=
  (repeated fields number).foldlM (addNumbers asFixed64 fun data => unpackFixed data 8 (by decide)) []

def repeatedFixed32 (fields : List Field) (number : UInt64) : Result MessageError Overflow (List UInt32) :=
  (repeated fields number).foldlM (addNumbers asFixed32 fun data => do
    return (← unpackFixed data 4 (by decide)).map (·.toUInt32)) []

/-! ## Scalars -/

def zigzag (n : Int64) : Checked UInt64 :=
  if 0 ≤ n then mulU64 n.toUInt64 2
  else do
    let next ← int64 (n.toInt + 1)
    let rest ← int64 (0 - next)
    addU64 (← mulU64 (Int64.ofInt rest).toUInt64 2) 1

def unzigzag {ε : Type} (n : UInt64) : Result ε Overflow Int64 :=
  if n % 2 = 0 then pure (n / 2).toInt64
  else do
    let rest ← int64 (0 - (n / 2).toInt64.toInt)
    return .ofInt (← int64 (rest - 1))

def int32 (n : Int32) : Value := .varint n.toInt64.toUInt64

def int64 (n : Int64) : Value := .varint n.toUInt64

def uint32 (n : UInt32) : Value := .varint n.toUInt64

def uint64 (n : UInt64) : Value := .varint n

def sint32 (n : Int32) : Checked Value := do
  return .varint (← zigzag n.toInt64)

def sint64 (n : Int64) : Checked Value := do
  return .varint (← zigzag n)

def bool (b : Bool) : Value := .varint (if b then 1 else 0)

def enum (n : Int32) : Value := int32 n

def sfixed32 (n : Int32) : Value := .fixed32 n.toUInt32

def sfixed64 (n : Int64) : Value := .fixed64 n.toUInt64

inductive WrongType
  | wrongType
  deriving DecidableEq, Repr

/-- The `as_` functions: a number of one wire type, and what is made of it. -/
def readAs {α β : Type} (number : Value → Option β) (f : β → Result WrongType Overflow α) (value : Value) :
    Result WrongType Overflow α :=
  match number value with
  | some n => f n
  | none => fail .wrongType

def asInt32 : Value → Result WrongType Overflow Int32 := readAs asVarint fun n => pure n.toUInt32.toInt32

def asInt64 : Value → Result WrongType Overflow Int64 := readAs asVarint fun n => pure n.toInt64

def asUint32 : Value → Result WrongType Overflow UInt32 := readAs asVarint fun n => pure n.toUInt32

def asUint64 : Value → Result WrongType Overflow UInt64 := readAs asVarint pure

def asSint32 : Value → Result WrongType Overflow Int32 := readAs asVarint fun n => do
  return (← unzigzag n).toInt32

def asSint64 : Value → Result WrongType Overflow Int64 := readAs asVarint unzigzag

def asBool : Value → Result WrongType Overflow Bool := readAs asVarint fun n => pure (n != 0)

def asSfixed32 : Value → Result WrongType Overflow Int32 := readAs asFixed32 fun n => pure n.toInt32

def asSfixed64 : Value → Result WrongType Overflow Int64 := readAs asFixed64 fun n => pure n.toInt64

def last (fields : List Field) (number : UInt64) : Option Value :=
  fields.foldl (fun found field => if field.1 = number then some field.2 else found) none

/-- The errors of `get`. -/
inductive GetError (ε : Type)
  | missing
  | unreadable (e : ε)
  deriving DecidableEq, Repr

def get {ε α : Type} (fields : List Field) (number : UInt64) (read : Value → Result ε Overflow α) :
    Result (GetError ε) Overflow α :=
  match last fields number with
  | none => fail .missing
  | some value =>
    match read value with
    | .ok a => pure a
    | .error (.err e) => fail (.unreadable e)
    | .error (.crash c) => crash c

end RocNet.Protobuf
