import RocNet.Library.Scanning
import RocNet.Model.Framing

/-!
# RESP

`packages/resp/Resp.roc`: parsing and encoding the values of the Redis serialization protocol.

Where `parse_at` answers `Got(value, next)`, `More` or `Bad(reason)`, here a value is what a computation returns, and
`More` and `Bad` are how it stops. Positions, lengths and counts are 64-bit: arithmetic that leaves the range crashes.
The counters of the loops stay below a list's length or a count that was read.

`parseAt levels` is `parse_at` at depth 513 - `levels`. Floats are a parameter, and so is reading an `I64` from a
text.
-/

namespace RocNet.Resp

open Fallible Scanning
open Framing (Parse)

/-! ## Values -/

/-- What the package uses of Roc's numbers. -/
structure Builtins where
  F64 : Type
  infinity : F64
  nan : F64
  neg : F64 → F64
  isNan : F64 → Bool
  eq : F64 → F64 → Bool
  f64ToStr : F64 → String
  f64FromStr : String → Option F64
  i64FromStr : String → Option Int64

/-- `Resp.Value`. -/
inductive Value (F : Type)
  | simpleString (s : String)
  | error (s : String)
  | integer (n : Int64)
  | bulkString (bytes : List UInt8)
  | null
  | array (items : List (Value F))
  | boolean (b : Bool)
  | double (f : F)
  | bigNumber (digits : String)
  | bulkError (bytes : List UInt8)
  | verbatim (format : String) (text : List UInt8)
  | map (pairs : List (Value F × Value F))
  | set (items : List (Value F))
  | push (items : List (Value F))

/-- `Str.to_utf8`. -/
def utf8 (s : String) : List UInt8 := s.toUTF8.data.toList

/-- `text_of`. -/
def textOf (bytes : List UInt8) : Option String := String.fromUTF8? ⟨bytes.toArray⟩

/-- `I64.to_str`. -/
def i64ToStr (n : Int64) : String := toString n.toInt

/-- `U64.to_str`. -/
def u64ToStr (n : ℕ) : String := toString n

/-! ## Parsing -/

section Parsing

variable (B : Builtins)

/-- `max_depth`. -/
def maxDepth : ℕ := 512

/-- The loop of `line_at`: the bytes are those from position `i` on. -/
def lineLoop (buffered : List UInt8) (start : ℕ) :
    List UInt8 → ℕ → Result (Stop String) Overflow (List UInt8 × ℕ)
  | [], _ => fail .more
  | byte :: rest, i => do
    let following ← add64 i 1
    if byte = 13 then
      match rest with
      | [] => fail .more
      | after :: _ =>
        if after = 10 then do
          let len ← sub64 i start
          let next ← add64 i 2
          pure ((buffered.drop start).take len, next)
        else fail (.bad "a \\r not followed by \\n")
    else lineLoop buffered start rest following

/-- `line_at`. -/
def lineAt (buffered : List UInt8) (start : ℕ) : Result (Stop String) Overflow (List UInt8 × ℕ) :=
  lineLoop buffered start (buffered.drop start) start

/-- `number`. -/
def number (text : List UInt8) : Except String Int64 :=
  match textOf text with
  | some s =>
    match B.i64FromStr s with
    | some n => .ok n
    | none => .error ("not an integer: " ++ s)
  | none => .error "not an integer"

/-- `count`. -/
def count (text : List UInt8) : Except String ℕ :=
  match number B text with
  | .ok n => if n ≥ 0 then .ok n.toUInt64.toNat else .error "a negative length"
  | .error reason => .error reason

/-- `double`. -/
def double (text : List UInt8) : Except String B.F64 :=
  match textOf text with
  | some s =>
    if s = "inf" then .ok B.infinity
    else if s = "-inf" then .ok (B.neg B.infinity)
    else if s = "nan" then .ok B.nan
    else
      match B.f64FromStr s with
      | some f => .ok f
      | none => .error ("not a double: " ++ s)
  | none => .error "not a double"

/-- `is_integer_text`. -/
def isIntegerText (s : String) : Bool :=
  let digits :=
    match utf8 s with
    | 45 :: rest => rest
    | all => all
  !digits.isEmpty && digits.all fun b => b ≥ 48 && b ≤ 57

/-- An `Err(reason)` that becomes `Bad(reason)`. -/
def orBad {α : Type} (x : Except String α) : Result (Stop String) Overflow α :=
  match x with
  | .ok a => pure a
  | .error reason => fail (.bad reason)

variable {B}

/-- `to_got`. -/
def toGot (text : Option String) (wrap : String → Value B.F64) (after : ℕ) :
    Result (Stop String) Overflow (Value B.F64 × ℕ) :=
  match text with
  | some s => pure (wrap s, after)
  | none => fail (.bad "text that isn't UTF-8")

/-- `bulk_at`. -/
def bulkAt (buffered text : List UInt8) (after : ℕ) (wrap : List UInt8 → Value B.F64)
    (nullAllowed : Bool) : Result (Stop String) Overflow (Value B.F64 × ℕ) :=
  if nullAllowed && text == [45, 49] then pure (.null, after)
  else do
    let len ← orBad (count B text)
    let stop ← add64 after len
    let next ← add64 stop 2
    if buffered.length < next then fail .more
    else if (buffered.drop stop).take 2 ≠ [13, 10] then
      fail (.bad "a bulk string longer than its length says")
    else pure (wrap ((buffered.drop after).take len), next)

/-- The loop of `items_from`, for `n` more items. -/
def itemsFrom {α : Type} (parse : ℕ → Result (Stop String) Overflow (α × ℕ)) :
    ℕ → ℕ → List α → Result (Stop String) Overflow (List α × ℕ)
  | 0, pos, items => pure (items, pos)
  | n + 1, pos, items => do
    let got ← parse pos
    itemsFrom parse n got.2 (items ++ [got.1])

/-- `items_at`. -/
def itemsAt (parse : ℕ → Result (Stop String) Overflow (Value B.F64 × ℕ)) (text : List UInt8)
    (after : ℕ) (wrap : List (Value B.F64) → Value B.F64) (nullAllowed : Bool) :
    Result (Stop String) Overflow (Value B.F64 × ℕ) :=
  if nullAllowed && text == [45, 49] then pure (.null, after)
  else do
    let n ← orBad (count B text)
    let got ← itemsFrom parse n after []
    pure (wrap got.1, got.2)

/-- `pairs`. -/
def pairs {α : Type} : List α → List (α × α)
  | k :: v :: rest => (k, v) :: pairs rest
  | _ => []

/-- The pairs of a map or an attribute, as one list. -/
def pairsAt (parse : ℕ → Result (Stop String) Overflow (Value B.F64 × ℕ)) (text : List UInt8)
    (after : ℕ) : Result (Stop String) Overflow (List (Value B.F64) × ℕ) := do
  let n ← orBad (count B text)
  let twice ← mul64 n 2
  itemsFrom parse twice after []

/-- A verbatim string, from the bulk string that it is sent as. -/
def verbatimOf (bulk : Value B.F64 × ℕ) : Result (Stop String) Overflow (Value B.F64 × ℕ) :=
  match bulk with
  | (.bulkString bytes, next) =>
    if bytes[3]? = some 58 then
      match textOf (bytes.take 3) with
      | some format => pure (.verbatim format (bytes.drop 4), next)
      | none => fail (.bad "a verbatim string's format isn't text")
    else fail (.bad "a verbatim string must start with a format and a colon")
  | _ => fail (.bad "unreachable")

/-- The types of values. -/
inductive Kind
  | simpleString
  | error
  | integer
  | bulkString
  | bulkError
  | verbatim
  | null
  | boolean
  | double
  | bigNumber
  | array
  | set
  | push
  | map
  | attributes
  deriving DecidableEq, Repr

/-- The type of a value, by its first byte. -/
def kindOf (byte : UInt8) : Option Kind :=
  match byte with
  | 43 => some .simpleString
  | 45 => some .error
  | 58 => some .integer
  | 36 => some .bulkString
  | 33 => some .bulkError
  | 61 => some .verbatim
  | 95 => some .null
  | 35 => some .boolean
  | 44 => some .double
  | 40 => some .bigNumber
  | 42 => some .array
  | 126 => some .set
  | 62 => some .push
  | 37 => some .map
  | 124 => some .attributes
  | _ => none

/-- The value of a type and its line, with what comes after the line (Resp.roc:155-222); `parse` parses
what is nested in it. -/
def parseKind (buffered : List UInt8) (parse : ℕ → Result (Stop String) Overflow (Value B.F64 × ℕ))
    (kind : Kind) (text : List UInt8) (after : ℕ) :
    Result (Stop String) Overflow (Value B.F64 × ℕ) :=
  match kind with
  | .simpleString => toGot (textOf text) .simpleString after
  | .error => toGot (textOf text) .error after
  | .integer => do
    let n ← orBad (number B text)
    pure (.integer n, after)
  | .bulkString => bulkAt buffered text after .bulkString true
  | .bulkError => bulkAt buffered text after .bulkError false
  | .verbatim => do
    let bulk ← bulkAt buffered text after .bulkString false
    verbatimOf bulk
  | .null => if text.isEmpty then pure (.null, after) else fail (.bad "null with data after it")
  | .boolean =>
    if text = [116] then pure (.boolean true, after)
    else if text = [102] then pure (.boolean false, after)
    else fail (.bad "a boolean must be t or f")
  | .double => do
    let f ← orBad (double B text)
    pure (.double f, after)
  | .bigNumber =>
    match textOf text with
    | some digits =>
      if isIntegerText digits then pure (.bigNumber digits, after)
      else fail (.bad "a big number must be digits")
    | none => fail (.bad "a big number must be digits")
  | .array => itemsAt parse text after .array true
  | .set => itemsAt parse text after .set false
  | .push => itemsAt parse text after .push false
  | .map => do
    let got ← pairsAt parse text after
    pure (.map (pairs got.1), got.2)
  | .attributes => do
    -- its pairs, then the value they describe
    let got ← pairsAt parse text after
    parse got.2

/-- The byte at a position, and the position after it. -/
def byteAt (buffered : List UInt8) (pos : ℕ) : Result (Stop String) Overflow (UInt8 × ℕ) :=
  match buffered[pos]? with
  | none => fail .more
  | some byte => do
    let next ← add64 pos 1
    pure (byte, next)

variable (B)

/-- `parse_at`, at depth 513 - `levels`. -/
def parseAt : ℕ → List UInt8 → ℕ → Result (Stop String) Overflow (Value B.F64 × ℕ)
  | 0, _, _ => fail (.bad ("nested more than " ++ toString maxDepth ++ " levels deep"))
  | levels + 1, buffered, pos => do
    let byte ← byteAt buffered pos
    let line ← lineAt buffered byte.2
    match kindOf byte.1 with
    | some kind => parseKind buffered (parseAt levels buffered) kind line.1 line.2
    | none => fail (.bad ("unknown type byte " ++ toString byte.1.toNat))

/-- `parse`. -/
def parse (buffered : List UInt8) : Except Overflow (Parse (Value B.F64) String) :=
  match parseAt B (maxDepth + 1) buffered 0 with
  | .ok (value, next) => .ok (.parsed value next)
  | .error (.err .more) => .ok .needMore
  | .error (.err (.bad reason)) => .ok (.malformed reason)
  | .error (.crash c) => .error c

end Parsing

/-! ## Encoding -/

section Encoding

variable {B : Builtins}

/-- `line`. -/
def line (kind text : String) : List UInt8 := utf8 (kind ++ text ++ "\r\n")

/-- `bulk`. -/
def bulk (kind : String) (bytes : List UInt8) : List UInt8 :=
  line kind (u64ToStr bytes.length) ++ bytes ++ [13, 10]

/-- `double_text`. -/
def doubleText (f : B.F64) : String :=
  if B.isNan f then "nan"
  else if B.eq f B.infinity then "inf"
  else if B.eq f (B.neg B.infinity) then "-inf"
  else B.f64ToStr f

mutual

/-- `encode`. -/
def encode : Value B.F64 → List UInt8
  | .simpleString s => line "+" s
  | .error s => line "-" s
  | .integer n => line ":" (i64ToStr n)
  | .bulkString bytes => bulk "$" bytes
  | .null => utf8 "_\r\n"
  | .array items => line "*" (u64ToStr items.length) ++ encodeItems items
  | .boolean b => line "#" (if b then "t" else "f")
  | .double f => line "," (doubleText f)
  | .bigNumber digits => line "(" digits
  | .bulkError bytes => bulk "!" bytes
  | .verbatim format text => bulk "=" (utf8 (format ++ ":") ++ text)
  | .map pairs => line "%" (u64ToStr pairs.length) ++ encodePairs pairs
  | .set items => line "~" (u64ToStr items.length) ++ encodeItems items
  | .push items => line ">" (u64ToStr items.length) ++ encodeItems items

/-- What the fold of `aggregate` adds. -/
def encodeItems : List (Value B.F64) → List UInt8
  | [] => []
  | item :: items => encode item ++ encodeItems items

/-- What the fold over the pairs of a map adds. -/
def encodePairs : List (Value B.F64 × Value B.F64) → List UInt8
  | [] => []
  | (k, v) :: pairs => encode k ++ encode v ++ encodePairs pairs

end

/-! ## Commands -/

/-- `command_bytes`. -/
def commandBytes (args : List (List UInt8)) : List UInt8 :=
  encode (.array (args.map .bulkString) : Value B.F64)

/-- `command_args`; `none` is `NotACommand`. -/
def commandArgs (value : Value B.F64) : Option (List (List UInt8)) :=
  match value with
  | .array items =>
    items.foldl (fun acc item =>
      match acc, item with
      | some args, .bulkString arg => some (args ++ [arg])
      | _, _ => none) (some [])
  | _ => none

end Encoding

end RocNet.Resp
