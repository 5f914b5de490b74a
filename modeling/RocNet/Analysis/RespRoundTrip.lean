import RocNet.Analysis.RespParsing

/-!
# Parsing inverts encoding in RESP

A value that can be encoded, and is nested no deeper than the parser allows, is parsed back from its encoding. The
induction is on the levels the parser may still go down.
-/

namespace RocNet.Resp

open Fallible Scanning List Nat

variable {B : Builtins} {b text rest : List UInt8} {pos levels : ℕ}

/-! ## Values that can be encoded -/

mutual

/-- Simple strings and errors have no `\r`, big numbers are integer texts, and the formats of verbatim
strings have three bytes. -/
def Value.Encodable {F : Type} : Value F → Prop
  | .simpleString s => 13 ∉ utf8 s
  | .error s => 13 ∉ utf8 s
  | .bigNumber digits => isIntegerText digits = true
  | .verbatim format _ => (utf8 format).length = 3
  | .array items => itemsEncodable items
  | .set items => itemsEncodable items
  | .push items => itemsEncodable items
  | .map pairs => pairsEncodable pairs
  | _ => True

def itemsEncodable {F : Type} : List (Value F) → Prop
  | [] => True
  | v :: vs => v.Encodable ∧ itemsEncodable vs

def pairsEncodable {F : Type} : List (Value F × Value F) → Prop
  | [] => True
  | (k, v) :: pairs => k.Encodable ∧ v.Encodable ∧ pairsEncodable pairs

end

mutual

/-- How deep a value is nested. -/
def Value.depth {F : Type} : Value F → ℕ
  | .array items => itemsDepth items
  | .set items => itemsDepth items
  | .push items => itemsDepth items
  | .map pairs => pairsDepth pairs
  | _ => 0

def itemsDepth {F : Type} : List (Value F) → ℕ
  | [] => 0
  | v :: vs => max (v.depth + 1) (itemsDepth vs)

def pairsDepth {F : Type} : List (Value F × Value F) → ℕ
  | [] => 0
  | (k, v) :: pairs => max (max (k.depth + 1) (v.depth + 1)) (pairsDepth pairs)

end

/-- The keys and values of some pairs, as one list. -/
def flatten {α : Type} (ps : List (α × α)) : List α := ps.flatMap fun p => [p.1, p.2]

lemma flatten_pair {α : Type} (p : α × α) (ps : List (α × α)) : flatten (p :: ps) = p.1 :: p.2 :: flatten ps := rfl

section Lists

variable {F : Type} {vs : List (Value F)} {ps : List (Value F × Value F)}

lemma encodable_of_mem (h : itemsEncodable vs) (hv : v ∈ vs) : v.Encodable := by
  induction vs with
  | nil => cases hv
  | cons w vs ih =>
    unfold itemsEncodable at h
    rcases mem_cons.mp hv with rfl | hv
    · exact h.1
    · exact ih h.2 hv

lemma depth_of_mem (hv : v ∈ vs) : v.depth < itemsDepth vs := by
  induction vs with
  | nil => cases hv
  | cons w vs ih =>
    unfold itemsDepth
    rcases mem_cons.mp hv with rfl | hv
    · omega
    · have hlt := ih hv
      omega

lemma itemsEncodable_flatten (h : pairsEncodable ps) : itemsEncodable (flatten ps) := by
  induction ps with
  | nil => trivial
  | cons p ps ih =>
    unfold pairsEncodable at h
    exact ⟨h.1, h.2.1, ih h.2.2⟩

lemma itemsDepth_flatten : itemsDepth (flatten ps) = pairsDepth ps := by
  induction ps with
  | nil => rfl
  | cons p ps ih =>
    rw [flatten_pair]
    unfold itemsDepth itemsDepth pairsDepth
    rw [ih]
    omega

lemma pairs_flatten {α : Type} (ps : List (α × α)) : pairs (flatten ps) = ps := by
  induction ps with
  | nil => rfl
  | cons p ps ih =>
    rw [flatten_pair, pairs, ih]

lemma flatten_length {α : Type} (ps : List (α × α)) : (flatten ps).length = ps.length * 2 := by
  induction ps with
  | nil => rfl
  | cons p ps ih =>
    rw [flatten_pair, length_cons, length_cons, length_cons, ih]
    omega

lemma encodePairs_eq (ps : List (Value B.F64 × Value B.F64)) : encodePairs ps = encodeItems (flatten ps) := by
  induction ps with
  | nil => rfl
  | cons p ps ih =>
    rw [flatten_pair]
    unfold encodePairs encodeItems encodeItems
    rw [ih, append_assoc]

end Lists

/-! ## Parsing what was encoded -/

/-- A value that starts with a line: its type byte, a text, and `\r\n`. -/
theorem parseAt_line (levels : ℕ) (kind : Kind) {k text : String} {byte : UInt8} (hfits : Fits b) (hk : utf8 k = [byte])
    (hkind : kindOf byte = some kind) (hmem : 13 ∉ utf8 text) (hb : b.drop pos = line k text ++ rest) :
    parseAt B (levels + 1) b pos = parseKind b (parseAt B levels b) kind (utf8 text) (pos + (line k text).length) ∧
      b.drop (pos + (line k text).length) = rest := by
  have hlen : (line k text).length = (utf8 text).length + 3 := by
    rw [line_eq, hk]
    simp
  have hshape : b.drop pos = byte :: (utf8 text ++ 13 :: 10 :: rest) := by
    rw [hb, line_eq, hk]
    simp
  have hbyte : b[pos]? = some byte := by
    have hget := congrArg (fun l : List UInt8 => l[0]?) hshape
    simpa using hget
  have hnext : b.drop (pos + 1) = utf8 text ++ 13 :: 10 :: rest := by
    rw [← drop_drop, hshape]
    rfl
  have hsize := congrArg length hshape
  simp only [length_drop, length_cons, length_append] at hsize
  unfold Fits at hfits
  constructor
  · have hline := lineAt_of_line hnext hmem (by omega)
    unfold parseAt byteAt
    rw [hbyte]
    simp only [add64_of_lt (show pos + 1 < 2 ^ 64 by omega), ok_bind, pure_bind, hline, hkind]
    congr 1
    omega
  · rw [← drop_drop, hb, drop_left]

lemma bulk_append (k : String) (bytes rest : List UInt8) :
    bulk k bytes ++ rest = line k (u64ToStr bytes.length) ++ (bytes ++ 13 :: 10 :: rest) := by
  simp [bulk]

lemma bulk_length (k : String) (bytes : List UInt8) :
    (bulk k bytes).length = (line k (u64ToStr bytes.length)).length + (bytes.length + 2) := by
  simp [bulk]

lemma bulkAt_of_bytes (hB : B.Inverse) {after : ℕ} {bytes : List UInt8} (hfits : Fits b)
    (wrap : List UInt8 → Value B.F64) (nullAllowed : Bool) (hb : b.drop after = bytes ++ 13 :: 10 :: rest) :
    bulkAt b (utf8 (u64ToStr bytes.length)) after wrap nullAllowed = .ok (wrap bytes, after + bytes.length + 2) := by
  have hsize := congrArg length hb
  simp only [length_drop, length_cons, length_append] at hsize
  unfold Fits at hfits
  have hcrlf : (b.drop (after + bytes.length)).take 2 = [13, 10] := by
    rw [← drop_drop, hb, drop_left]
    rfl
  unfold bulkAt orBad
  rw [u64ToStr_ne_minusOne, Bool.and_false, if_neg Bool.false_ne_true, count_u64ToStr hB (by omega)]
  simp only [pure_bind, add64_of_lt (show after + bytes.length < 2 ^ 64 by omega), ok_bind,
    add64_of_lt (show after + bytes.length + 2 < 2 ^ 64 by omega)]
  rw [if_neg (by omega), if_neg (by simp [hcrlf]), hb, take_left]
  rfl

lemma parseAt_bulk (hB : B.Inverse) (levels : ℕ) (kind : Kind) (hfits : Fits b) (hk : utf8 k = [byte])
    (hkind : kindOf byte = some kind) (hb : b.drop pos = bulk k bytes ++ rest) :
    ∃ after, parseAt B (levels + 1) b pos = parseKind b (parseAt B levels b) kind (utf8 (u64ToStr bytes.length)) after ∧
      ∀ (wrap : List UInt8 → Value B.F64) (nullAllowed : Bool),
        bulkAt b (utf8 (u64ToStr bytes.length)) after wrap nullAllowed =
          .ok (wrap bytes, pos + (bulk k bytes).length) := by
  obtain ⟨hread, hleft⟩ := parseAt_line (B := B) levels kind hfits hk hkind (cr_notMem_u64ToStr _)
    (hb.trans (bulk_append k bytes rest))
  refine ⟨_, hread, fun wrap nullAllowed => ?_⟩
  rw [bulkAt_of_bytes hB hfits wrap nullAllowed hleft, bulk_length]
  congr 2
  omega

lemma encodeItems_cons (v : Value B.F64) (vs : List (Value B.F64)) :
    encodeItems (v :: vs) = encode v ++ encodeItems vs := by
  rw [encodeItems]

/-- A value is parsed wherever it stands encoded. -/
def Parses (b : List UInt8) (item : ℕ → Result (Stop String) Overflow (Value B.F64 × ℕ)) (v : Value B.F64) : Prop :=
  ∀ pos rest, b.drop pos = encode v ++ rest → item pos = .ok (v, pos + (encode v).length)

variable {item : ℕ → Result (Stop String) Overflow (Value B.F64 × ℕ)} {vs : List (Value B.F64)}

lemma itemsFrom_encode (hparse : ∀ v ∈ vs, Parses b item v) (hb : b.drop pos = encodeItems vs ++ rest) :
    itemsFrom item vs.length pos items = .ok (items ++ vs, pos + (encodeItems vs).length) := by
  induction vs generalizing pos items with
  | nil =>
    rw [append_nil]
    rfl
  | cons v vs ih =>
    rw [encodeItems_cons, append_assoc] at hb
    have hv := hparse v mem_cons_self pos _ hb
    have hrest : b.drop (pos + (encode v).length) = encodeItems vs ++ rest := by
      rw [← drop_drop, hb, drop_left]
    rw [length_cons]
    unfold itemsFrom
    simp only [hv, ok_bind]
    rw [ih (fun w hw => hparse w (mem_cons_of_mem _ hw)) hrest, append_assoc,
      encodeItems_cons, length_append, add_assoc]
    rfl

lemma encode_length_pos (v : Value B.F64) : 0 < (encode v).length := by
  have hline : ∀ k text (more : List UInt8), 0 < (line k text ++ more).length := by
    intro k text more
    rw [line_eq]
    simp only [length_append, length_cons]
    omega
  have halone : ∀ k text, 0 < (line k text).length := fun k text => by
    simpa using hline k text []
  cases v with
  | null => exact (by decide : 0 < (utf8 "_\r\n").length)
  | bulkString bytes | bulkError bytes | verbatim format text =>
    unfold encode bulk
    rw [append_assoc]
    exact hline _ _ _
  | array items | map pairs | set items | push items => exact hline _ _ _
  | simpleString s | error s | integer n | boolean b | double f | bigNumber digits => exact halone _ _

lemma length_le_encodeItems (vs : List (Value B.F64)) : vs.length ≤ (encodeItems vs).length := by
  induction vs with
  | nil => exact Nat.le_refl 0
  | cons v vs ih =>
    have hpos := encode_length_pos v
    rw [encodeItems_cons, length_cons, length_append]
    omega

lemma length_lt_of_items (hfits : Fits b)
    (hb : b.drop pos = encodeItems vs ++ rest) : vs.length < 2 ^ 63 - 1 := by
  have hsize := congrArg length hb
  rw [length_drop, length_append] at hsize
  have hle := length_le_encodeItems vs
  unfold Fits at hfits
  omega

lemma itemsAt_encode (hB : B.Inverse) (hfits : Fits b) (hparse : ∀ v ∈ vs, Parses b item v)
    (wrap : List (Value B.F64) → Value B.F64) (nullAllowed : Bool) (hb : b.drop pos = encodeItems vs ++ rest) :
    itemsAt item (utf8 (u64ToStr vs.length)) pos wrap nullAllowed = .ok (wrap vs, pos + (encodeItems vs).length) := by
  have hlen := length_lt_of_items hfits hb
  unfold itemsAt orBad
  rw [u64ToStr_ne_minusOne, Bool.and_false, if_neg Bool.false_ne_true, count_u64ToStr hB (by omega)]
  simp only [pure_bind, itemsFrom_encode hparse hb, ok_bind]
  rfl

lemma parseAt_items (hB : B.Inverse) (levels : ℕ) (kind : Kind) {k : String} {byte : UInt8}
    (hfits : Fits b) (hk : utf8 k = [byte]) (hkind : kindOf byte = some kind)
    (hb : b.drop pos = (line k (u64ToStr vs.length) ++ encodeItems vs) ++ rest)
    (hparse : ∀ v ∈ vs, Parses b (parseAt B levels b) v) : ∃ after, parseAt B (levels + 1) b pos =
        parseKind b (parseAt B levels b) kind (utf8 (u64ToStr vs.length)) after ∧
      ∀ (wrap : List (Value B.F64) → Value B.F64) (nullAllowed : Bool),
        itemsAt (parseAt B levels b) (utf8 (u64ToStr vs.length)) after wrap nullAllowed =
          .ok (wrap vs, pos + (line k (u64ToStr vs.length) ++ encodeItems vs).length) := by
  rw [append_assoc] at hb
  obtain ⟨hread, hleft⟩ := parseAt_line (B := B) levels kind hfits hk hkind (cr_notMem_u64ToStr _) hb
  refine ⟨_, hread, fun wrap nullAllowed => ?_⟩
  rw [itemsAt_encode hB hfits hparse wrap nullAllowed hleft, length_append, add_assoc]

lemma pairsAt_encode (hB : B.Inverse) (hfits : Fits b) {ps : List (Value B.F64 × Value B.F64)}
    (hparse : ∀ v ∈ flatten ps, Parses b item v) (hb : b.drop pos = encodePairs ps ++ rest) :
    pairsAt item (utf8 (u64ToStr ps.length)) pos = .ok (flatten ps, pos + (encodePairs ps).length) := by
  rw [encodePairs_eq] at hb ⊢
  have hlen := length_lt_of_items hfits hb
  rw [flatten_length] at hlen
  unfold pairsAt orBad
  rw [count_u64ToStr hB (by omega)]
  simp only [pure_bind, mul64_of_lt (show ps.length * 2 < 2 ^ 64 by omega), ok_bind]
  rw [← flatten_length, itemsFrom_encode hparse hb]
  rfl

lemma verbatimOf_encode {format : String} {text : List UInt8} {next : ℕ} (h : (utf8 format).length = 3) :
    verbatimOf (.bulkString (utf8 (format ++ ":") ++ text), next) =
      .ok ((.verbatim format text : Value B.F64), next) := by
  have hbytes : utf8 (format ++ ":") ++ text = utf8 format ++ 58 :: text := by
    rw [utf8_append, append_assoc]
    rfl
  have hcolon : (utf8 format ++ 58 :: text)[3]? = some 58 := by
    rw [getElem?_append_right (by omega), h]
    rfl
  have hformat : (utf8 format ++ 58 :: text).take 3 = utf8 format := by
    rw [← h, take_left]
  have htext : (utf8 format ++ 58 :: text).drop 4 = text := by
    rw [show 4 = (utf8 format).length + 1 by omega, drop_length_add_append]
    rfl
  unfold verbatimOf
  rw [hbytes]
  simp only [hcolon, hformat, htext, textOf_utf8, if_true]
  rfl

/-- **An encoded value is parsed back**, at any position and with anything after it. -/
theorem parseAt_encode (hB : B.Inverse) (hfits : Fits b) {v : Value B.F64} (hv : v.Encodable)
    (hdepth : v.depth < levels) (hb : b.drop pos = encode v ++ rest) :
    parseAt B levels b pos = .ok (v, pos + (encode v).length) := by
  induction levels generalizing v pos rest with
  | zero => exact absurd hdepth (not_lt_zero _)
  | succ levels ih =>
    have hnested : ∀ {vs : List (Value B.F64)}, itemsEncodable vs → itemsDepth vs < levels + 1 →
        ∀ v ∈ vs, Parses b (parseAt B levels b) v := by
      intro vs hvs hlevels v hmem pos rest hb
      have hlt := depth_of_mem hmem
      exact ih (encodable_of_mem hvs hmem) (by omega) hb
    cases v with
    | simpleString s | error s =>
      obtain ⟨hread, -⟩ := parseAt_line (B := B) levels _ hfits rfl rfl hv hb
      rw [hread]
      simp only [parseKind, textOf_utf8, toGot]
      rfl
    | integer n =>
      obtain ⟨hread, -⟩ := parseAt_line (B := B) levels .integer hfits rfl rfl (cr_notMem_i64ToStr n) hb
      rw [hread]
      simp only [parseKind, number, textOf_utf8, hB.i64, orBad]
      rfl
    | null =>
      have hline : b.drop pos = line "_" "" ++ rest := hb
      obtain ⟨hread, -⟩ := parseAt_line (B := B) levels .null hfits rfl rfl (by decide) hline
      rw [hread]
      rfl
    | boolean value =>
      have htext : 13 ∉ utf8 (if value then "t" else "f") := by cases value <;> decide
      obtain ⟨hread, -⟩ := parseAt_line (B := B) levels .boolean hfits rfl rfl htext hb
      rw [hread]
      cases value with
      | true | false => rfl
    | double f =>
      obtain ⟨hread, -⟩ := parseAt_line (B := B) levels .double hfits rfl rfl (cr_notMem_doubleText hB f) hb
      rw [hread]
      simp only [parseKind, double_doubleText hB, orBad]
      rfl
    | bigNumber digits =>
      obtain ⟨hread, -⟩ := parseAt_line (B := B) levels .bigNumber hfits rfl rfl (cr_notMem_of_isIntegerText hv) hb
      have hdigits : isIntegerText digits := hv
      rw [hread]
      simp only [parseKind, textOf_utf8, hdigits, if_true]
      rfl
    | bulkString bytes | bulkError bytes =>
      obtain ⟨after, hread, hbulk⟩ := parseAt_bulk hB levels _ hfits rfl rfl hb
      rw [hread, parseKind, hbulk]
      rfl
    | verbatim format text =>
      obtain ⟨after, hread, hbulk⟩ := parseAt_bulk hB levels .verbatim hfits rfl rfl hb
      rw [hread, parseKind, hbulk, ok_bind]
      exact verbatimOf_encode hv
    | array items | set items | push items =>
      obtain ⟨after, hread, hitems⟩ := parseAt_items hB levels _ hfits rfl rfl hb (hnested hv hdepth)
      rw [hread, parseKind, hitems]
      rfl
    | map ps =>
      have hencode : encode (.map ps : Value B.F64) = line "%" (u64ToStr ps.length) ++ encodePairs ps := rfl
      rw [hencode, append_assoc] at hb
      obtain ⟨hread, hleft⟩ := parseAt_line (B := B) levels .map hfits rfl rfl (cr_notMem_u64ToStr _) hb
      have hdepth' : itemsDepth (flatten ps) < levels + 1 := by
        rw [itemsDepth_flatten]
        exact hdepth
      have hpairs := pairsAt_encode hB hfits (hnested (itemsEncodable_flatten hv) hdepth') hleft
      rw [hread, parseKind, hpairs, ok_bind, pairs_flatten, hencode, length_append, add_assoc]
      rfl

lemma parse_encode (hB : B.Inverse) (hv : v.Encodable) (hdepth : v.depth ≤ maxDepth)
    (hfits : Fits (encode v ++ rest)) : parse B (encode v ++ rest) = .ok (.parsed v (encode v).length) := by
  have hfront : (encode v ++ rest).drop 0 = encode v ++ rest := rfl
  have hread := parseAt_encode hB hfits hv (lt_succ_of_le hdepth) hfront
  rw [zero_add] at hread
  exact parse_parsed_iff.mpr hread

/-- **Parsing inverts encoding.** A value that can be encoded, nested to at most 512 levels, is parsed from
its encoding with anything after it, and takes exactly the bytes of the encoding. So different values have
different encodings, and none is a strict prefix of another. -/
theorem resp_parse_encode (B : Builtins) (hB : B.Inverse) :
    (∀ (v : Value B.F64) (rest : List UInt8), v.Encodable → v.depth ≤ 512 → Fits (encode v ++ rest) →
      parse B (encode v ++ rest) = .ok (.parsed v (encode v).length)) ∧
    ∀ v w : Value B.F64, v.Encodable → v.depth ≤ 512 → w.Encodable → w.depth ≤ 512 →
      Fits (encode w) → (encode v = encode w → v = w) ∧ (encode v <+: encode w → encode v = encode w) := by
  refine ⟨fun v rest hv hdepth hfits => parse_encode hB hv hdepth hfits, ?_⟩
  intro v w hv hdepth hw hdepth' hfits
  have hsame : encode v <+: encode w → v = w := by
    rintro ⟨rest, hrest⟩
    have hfits' : Fits (encode w ++ []) := by rwa [append_nil]
    have hparse := parse_encode hB hw hdepth' hfits'
    rw [← hrest] at hfits
    rw [append_nil, ← hrest, parse_encode hB hv hdepth hfits] at hparse
    simp only [Except.ok.injEq, Framing.Parse.parsed.injEq] at hparse
    exact hparse.1
  exact ⟨fun h => hsame (h ▸ prefix_refl _), fun h => congrArg encode (hsame h)⟩

/-- An array of an integer and a bulk string that looks like the end of a line, with a byte after it. -/
theorem resp_parse_encode_array :
    parse integersOnly (encode (.array [.integer 5, .bulkString [13, 10]] : Value integersOnly.F64) ++ [1]) =
      .ok (.parsed (.array [.integer 5, .bulkString [13, 10]])
        (encode (.array [.integer 5, .bulkString [13, 10]] : Value integersOnly.F64)).length) := by
  refine (resp_parse_encode integersOnly integersOnly_inverse).1 _ [1] ?_ (by decide) (by decide)
  exact ⟨trivial, trivial, trivial⟩

end RocNet.Resp
