import RocNet.Library.Fallible

/-!
# Integers and hexadecimal digits as bytes

`platform/Bytes.roc`. Words are machine words; `*` and `+` on them are checked at their width, and
conversions that wrap are as in the source. Positions and lengths are natural numbers.

A string is given by its UTF-8 bytes. What `Str.from_utf8_lossy` makes of bytes that are not UTF-8 is a
parameter.
-/

namespace RocNet.Bytes

open Fallible

/-! ## Words -/

inductive TooShort
  | tooShort
  deriving DecidableEq, Repr

abbrev Decoded (α : Type) := Result TooShort Overflow α

/-- What takes a word from the front of bytes. -/
abbrev Taking (α : Type) := List UInt8 → Decoded (α × List UInt8)

def u16Be (n : UInt16) : List UInt8 := [(n / 256).toUInt8, (n % 256).toUInt8]

def u32Be (n : UInt32) : List UInt8 :=
  [(n / 16777216).toUInt8, (n / 65536 % 256).toUInt8, (n / 256 % 256).toUInt8, (n % 256).toUInt8]

def u64Be (n : UInt64) : List UInt8 := u32Be (n / 4294967296).toUInt32 ++ u32Be (n % 4294967296).toUInt32

def u16Le (n : UInt16) : List UInt8 := (u16Be n).reverse

def u32Le (n : UInt32) : List UInt8 := (u32Be n).reverse

def u64Le (n : UInt64) : List UInt8 := (u64Be n).reverse

def take (bytes : List UInt8) (count : ℕ) : Decoded (List UInt8 × List UInt8) :=
  if bytes.length < count then fail .tooShort else pure (bytes.take count, bytes.drop count)

def takeU16Be : Taking UInt16
  | a :: b :: rest => do
    let high ← checked 16 (a.toNat * 256)
    let n ← checked 16 (high + b.toNat)
    pure (.ofNat n, rest)
  | _ => fail .tooShort

def takeU32Be : Taking UInt32
  | a :: b :: c :: d :: rest => do
    let high ← checked 32 (a.toNat * 16777216)
    let next ← checked 32 (b.toNat * 65536)
    let high ← checked 32 (high + next)
    let next ← checked 32 (c.toNat * 256)
    let high ← checked 32 (high + next)
    let n ← checked 32 (high + d.toNat)
    pure (.ofNat n, rest)
  | _ => fail .tooShort

def takeU64Be : Taking UInt64 := fun bytes => do
  let (high, rest₁) ← takeU32Be bytes
  let (low, rest₂) ← takeU32Be rest₁
  let high ← checked 64 (high.toNat * 4294967296)
  let n ← checked 64 (high + low.toNat)
  pure (.ofNat n, rest₂)

/-- The little-endian `take_` functions: the bytes of the word are taken in reverse. -/
def takeReversed {α : Type} (count : ℕ) (takeBe : Taking α) : Taking α := fun bytes => do
  let (field, rest) ← take bytes count
  let (n, _) ← takeBe field.reverse
  pure (n, rest)

def takeU16Le : Taking UInt16 := takeReversed 2 takeU16Be

def takeU32Le : Taking UInt32 := takeReversed 4 takeU32Be

def takeU64Le : Taking UInt64 := takeReversed 8 takeU64Be

def bytesAt (bytes : List UInt8) (offset : UInt64) (len : ℕ) : Decoded (List UInt8) :=
  let part := (bytes.drop offset.toNat).take len
  if part.length = len then pure part else fail .tooShort

/-- The `_at` functions, with `first`: a word is taken from the bytes at the offset. -/
def takeAt {α : Type} (len : ℕ) (take : Taking α) (bytes : List UInt8) (offset : UInt64) : Decoded α := do
  let part ← bytesAt bytes offset len
  let (n, _) ← take part
  pure n

def u16BeAt : List UInt8 → UInt64 → Decoded UInt16 := takeAt 2 takeU16Be

def u32BeAt : List UInt8 → UInt64 → Decoded UInt32 := takeAt 4 takeU32Be

def u64BeAt : List UInt8 → UInt64 → Decoded UInt64 := takeAt 8 takeU64Be

def u16LeAt : List UInt8 → UInt64 → Decoded UInt16 := takeAt 2 takeU16Le

def u32LeAt : List UInt8 → UInt64 → Decoded UInt32 := takeAt 4 takeU32Le

def u64LeAt : List UInt8 → UInt64 → Decoded UInt64 := takeAt 8 takeU64Le

/-! ## Hexadecimal digits -/

/-- `Str.from_utf8_lossy`, to the bytes of a string: `repair` is for bytes that are not UTF-8. -/
def fromUtf8Lossy (repair : List UInt8 → List UInt8) (bytes : List UInt8) : List UInt8 :=
  if (ByteArray.mk bytes.toArray).IsValidUTF8 then bytes else repair bytes

/-- The bytes of `0123456789abcdef`. -/
def digits : List UInt8 := [48, 49, 50, 51, 52, 53, 54, 55, 56, 57, 97, 98, 99, 100, 101, 102]

/-- The digits of a byte. -/
def hexByte (b : UInt8) : List UInt8 :=
  [digits[(b / 16).toNat]?.getD 48, digits[(b % 16).toNat]?.getD 48]

def toHex (repair : List UInt8 → List UInt8) (bytes : List UInt8) : List UInt8 :=
  fromUtf8Lossy repair (bytes.map hexByte).flatten

/-- The error of `from_hex`. -/
structure InvalidHex where
  index : ℕ
  deriving DecidableEq, Repr

/-- `digit` in `from_hex`. -/
def digit (c : UInt8) : Result Unit Overflow ℕ :=
  if 48 ≤ c ∧ c ≤ 57 then sub64 c.toNat 48
  else if 97 ≤ c ∧ c ≤ 102 then sub64 c.toNat 87
  else if 65 ≤ c ∧ c ≤ 70 then sub64 c.toNat 55
  else fail ()

/-- The digit at an index, or the index of what is none. -/
def digitAt (chars : List UInt8) (i : ℕ) : Result InvalidHex Overflow ℕ :=
  match digit (chars[i]?.getD 0) with
  | .ok d => pure d
  | .error (.err ()) => fail ⟨i⟩
  | .error (.crash c) => crash c

def fromHexLoop (chars : List UInt8) (i : ℕ) (out : List UInt8) : Result InvalidHex Overflow (List UInt8) :=
  if i < chars.length then do
    let high ← digitAt chars i
    let low ← digitAt chars (i + 1)
    let high ← checked 8 (high * 16)
    let b ← checked 8 (high + low)
    fromHexLoop chars (i + 2) (out ++ [.ofNat b])
  else pure out
termination_by chars.length - i

def fromHex (chars : List UInt8) : Result InvalidHex Overflow (List UInt8) :=
  if chars.length % 2 ≠ 0 then fail ⟨chars.length⟩ else fromHexLoop chars 0 []

end RocNet.Bytes
