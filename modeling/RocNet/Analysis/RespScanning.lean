import RocNet.Model.Resp

/-!
# What the RESP parser looks at

The parser looks at nothing but the bytes of the value it returns (`parseAt_local`): it is put together
from scanners of which the same is true.
-/

namespace RocNet.Resp

open List Fallible Scanning

variable {B : Builtins} {b text : List UInt8} {start next : ℕ}

/-! ## Lines -/

variable {rest : List UInt8} {i : ℕ} {parse : List UInt8 → ℕ → Result (Stop String) Overflow (Value B.F64 × ℕ)}

lemma lineLoop_crlf (hi : start ≤ i) :
    lineLoop b start (13 :: 10 :: rest) i =
      if i + 2 < 2 ^ 64 then .ok ((b.drop start).take (i - start), i + 2) else crash .overflow := by
  by_cases hlt : i + 2 < 2 ^ 64
  · rw [if_pos hlt]
    simp only [lineLoop, add64_of_lt (show i + 1 < 2 ^ 64 by omega), sub64_of_le hi, add64_of_lt hlt,
      Fallible.ok_bind, if_true]
    rfl
  · rw [if_neg hlt]
    by_cases hone : i + 1 < 2 ^ 64
    · simp only [lineLoop, add64_of_lt hone, sub64_of_le hi, Fallible.ok_bind, if_true]
      rw [add64, if_neg hlt]
      rfl
    · rw [lineLoop, add64, if_neg hone]
      rfl

variable {x : UInt8} {front suffix line : List UInt8}

lemma lineLoop_cr (hx : x ≠ 10) :
    lineLoop b start (13 :: x :: rest) i =
      if i + 1 < 2 ^ 64 then fail (.bad "a \\r not followed by \\n") else crash .overflow := by
  by_cases hlt : i + 1 < 2 ^ 64
  · rw [if_pos hlt]
    simp only [lineLoop, add64_of_lt hlt, Fallible.ok_bind, if_true, if_neg hx]
  · rw [if_neg hlt, lineLoop, add64, if_neg hlt]
    rfl

lemma lineLoop_cr_nil : lineLoop b start [13] i =
    if i + 1 < 2 ^ 64 then fail .more else crash .overflow := by
  by_cases hlt : i + 1 < 2 ^ 64
  · rw [if_pos hlt]
    simp only [lineLoop, add64_of_lt hlt, Fallible.ok_bind, if_true]
  · rw [if_neg hlt, lineLoop, add64, if_neg hlt]
    rfl

lemma lineLoop_skip (hx : x ≠ 13) :
    lineLoop b start (x :: rest) i = if i + 1 < 2 ^ 64 then lineLoop b start rest (i + 1) else crash .overflow := by
  by_cases hlt : i + 1 < 2 ^ 64
  · conv_lhs => unfold lineLoop
    rw [if_pos hlt, add64_of_lt hlt, Fallible.ok_bind, if_neg hx]
  · conv_lhs => unfold lineLoop
    rw [if_neg hlt, add64, if_neg hlt]
    rfl

/-- Bytes other than `\r` are passed over. -/
theorem lineLoop_skips (hmem : 13 ∉ text) : lineLoop b start (text ++ suffix) i =
    if text = [] ∨ i + text.length < 2 ^ 64 then lineLoop b start suffix (i + text.length) else crash .overflow := by
  induction text generalizing i with
  | nil => exact (if_pos (.inl rfl)).symm
  | cons byte text ih =>
    obtain ⟨hbyte, hmem⟩ := not_or.mp (mt mem_cons.mpr hmem)
    rw [cons_append, lineLoop_skip (Ne.symm hbyte), ih hmem, length_cons, Nat.add_assoc, Nat.add_comm 1]
    by_cases hlt : i + (text.length + 1) < 2 ^ 64
    · rw [if_pos (by omega), if_pos (.inr hlt), if_pos (.inr hlt)]
    · rw [if_neg (not_or.mpr ⟨cons_ne_nil byte text, hlt⟩)]
      split
      · refine if_neg ?_
        rintro (rfl | hlt')
        · contradiction
        · exact hlt hlt'
      · rfl

/-- Where the loop stops. -/
theorem exists_cr (suffix : List UInt8) : ∃ text tail, suffix = text ++ tail ∧ 13 ∉ text ∧ (tail = [] ∨ tail = [13] ∨
    (∃ rest, tail = 13 :: 10 :: rest) ∨ ∃ x rest, x ≠ 10 ∧ tail = 13 :: x :: rest) := by
  by_cases hmem : 13 ∈ suffix
  · obtain ⟨text, tail, rfl, htext⟩ := eq_append_cons_of_mem hmem
    refine ⟨text, _, rfl, htext, .inr ?_⟩
    match tail with
    | [] => exact .inl rfl
    | x :: rest =>
      obtain rfl | hx := eq_or_ne x 10
      · exact .inr (.inl ⟨rest, rfl⟩)
      · exact .inr (.inr ⟨x, rest, hx, rfl⟩)
  · exact ⟨suffix, [], (append_nil _).symm, hmem, .inl rfl⟩

lemma lineAt_of_line (hb : b.drop start = text ++ 13 :: 10 :: rest) (hmem : 13 ∉ text)
    (hlt : start + text.length + 2 < 2 ^ 64) : lineAt b start = .ok (text, start + text.length + 2) := by
  rw [lineAt, hb, lineLoop_skips hmem, if_pos (.inr (by omega)), lineLoop_crlf (Nat.le_add_right _ _), if_pos hlt, hb,
    Nat.add_sub_cancel_left, take_left]

lemma lineAt_ok (h : lineAt b start = .ok (line, next)) :
    ∃ rest, b.drop start = line ++ 13 :: 10 :: rest ∧ 13 ∉ line ∧ next = start + line.length + 2 ∧ next < 2 ^ 64 := by
  obtain ⟨text, tail, hb, hmem, htail⟩ := exists_cr (b.drop start)
  rw [lineAt, hb, lineLoop_skips hmem] at h
  split at h
  · rcases htail with rfl | rfl | ⟨rest, rfl⟩ | ⟨x, rest, hx, rfl⟩
    · cases h
    · rw [lineLoop_cr_nil] at h
      split at h <;> cases h
    · rw [lineLoop_crlf (Nat.le_add_right _ _), hb, Nat.add_sub_cancel_left, take_left] at h
      split at h
      · next hlt =>
        cases h
        exact ⟨rest, hb, hmem, rfl, hlt⟩
      · cases h
    · rw [lineLoop_cr hx] at h
      split at h <;> cases h
  · cases h

lemma lineLoop_bad (c : List UInt8) (hi : start ≤ i) (h : lineLoop b start suffix i = fail (.bad reason)) :
    lineLoop (b ++ c) start (suffix ++ c) i = fail (.bad reason) := by
  obtain ⟨text, tail, rfl, hmem, htail⟩ := exists_cr suffix
  rw [lineLoop_skips hmem] at h
  split at h
  · next hlt =>
    rw [append_assoc, lineLoop_skips hmem, if_pos hlt]
    rcases htail with rfl | rfl | ⟨rest, rfl⟩ | ⟨x, rest, hx, rfl⟩
    · cases h
    · rw [lineLoop_cr_nil] at h
      split at h <;> cases h
    · rw [lineLoop_crlf (by omega)] at h
      split at h <;> cases h
    · rw [lineLoop_cr hx] at h
      rwa [cons_append, cons_append, lineLoop_cr hx]
  · cases h

lemma lineAt_local (start : ℕ) : Local start 2 (fun b => lineAt b start) where
  range := by
    intro b line next hb h
    obtain ⟨rest, hsuffix, -, rfl, -⟩ := lineAt_ok h
    have hlen := congrArg length hsuffix
    simp only [length_drop, length_append, length_cons] at hlen
    omega
  got := by
    intro b line next c hb h
    obtain ⟨rest, hsuffix, hmem, rfl, hlt⟩ := lineAt_ok h
    have hlen := congrArg length hsuffix
    simp only [length_drop, length_append, length_cons] at hlen
    apply lineAt_of_line _ hmem hlt
    · exact c
    · have hcount : start + line.length + 2 - start = line.length + 2 := by omega
      rw [drop_take_append (by omega) (by omega), hsuffix, hcount, take_length_add_append]
      simp
  bad := by
    intro b reason c hb h
    have hbad := lineLoop_bad c (Nat.le_refl start) h
    unfold lineAt
    rwa [drop_append_of_le_length hb]

/-! ## The other parts -/

lemma byteAt_ok (h : byteAt b pos = .ok (byte, next)) : b[pos]? = some byte ∧ pos < b.length ∧ next = pos + 1 := by
  unfold byteAt at h
  split at h
  · cases h
  · next byte' hbyte =>
    obtain ⟨hlt, -⟩ := List.getElem?_eq_some_iff.mp hbyte
    obtain ⟨next', hnext, hrest⟩ := Fallible.bind_eq_ok h
    cases hrest
    exact ⟨hbyte, hlt, add64_ok hnext⟩

lemma byteAt_local (pos : ℕ) : Local pos 1 (fun b => byteAt b pos) where
  range := by
    intro b byte next hb h
    obtain ⟨-, hlt, rfl⟩ := byteAt_ok h
    omega
  got := by
    intro b byte next c hb h
    obtain ⟨hbyte, hlt, rfl⟩ := byteAt_ok h
    have hsame : (b.take (pos + 1) ++ c)[pos]? = some byte := by
      rw [List.getElem?_append_left (by rw [length_take]; omega), List.getElem?_take,
        if_pos (Nat.lt_succ_self pos), hbyte]
    unfold byteAt at h ⊢
    rw [hbyte] at h
    rw [hsame]
    exact h
  bad := by
    intro b reason c hb h
    unfold byteAt at h
    split at h
    · cases h
    · unfold add64 at h
      split at h <;> cases h

lemma bulk_local {wrap : List UInt8 → Value B.F64} {after len stop : ℕ} (hstop : stop = after + len)
    (hnext : next = stop + 2) :
    Local after 0 (fun b : List UInt8 =>
      if b.length < next then (fail .more : Result (Stop String) Overflow (Value B.F64 × ℕ))
      else if (b.drop stop).take 2 ≠ [13, 10] then
        fail (.bad "a bulk string longer than its length says")
      else pure (wrap ((b.drop after).take len), next)) where
  range := by
    intro b v next' hb h
    split at h
    · cases h
    · split at h
      · cases h
      · cases h
        omega
  got := by
    intro b v next' c hb h
    split at h
    · cases h
    · next hlen =>
      split at h
      · cases h
      · next hcrlf =>
        cases h
        have hlong : ¬ (b.take next ++ c).length < next := by
          rw [length_append, length_take]
          omega
        rw [if_neg hlong, take_drop_take_append (by omega) (by omega), if_neg hcrlf,
          take_drop_take_append (by omega) (by omega)]
        rfl
  bad := by
    intro b reason c hb h
    split at h
    · cases h
    · next hlen =>
      split at h
      · next hcrlf =>
        have hlong : ¬ (b ++ c).length < next := by
          rw [length_append]
          omega
        have hsame : ((b ++ c).drop stop).take 2 = (b.drop stop).take 2 := by
          rw [drop_append_of_le_length (by omega), take_append_of_le_length (by rw [length_drop]; omega)]
        rw [if_neg hlong, hsame, if_pos hcrlf]
        exact h
      · cases h

lemma bulkAt_local (text : List UInt8) (after : ℕ) (wrap : List UInt8 → Value B.F64)
    (nullAllowed : Bool) : Local after 0 (fun b => bulkAt b text after wrap nullAllowed) := by
  unfold bulkAt
  split
  · exact Local.pure _ _
  · refine Local.const_bind fun len _ => Local.const_bind fun stop hstop =>
      Local.const_bind fun next hnext => ?_
    exact bulk_local (add64_ok hstop) (add64_ok hnext)

lemma itemsFrom_local {α : Type} {parse : List UInt8 → ℕ → Result (Stop String) Overflow (α × ℕ)}
    (hparse : ∀ pos, Local pos 0 fun b => parse b pos) (n pos : ℕ) (items : List α) :
    Local pos 0 fun b => itemsFrom (parse b) n pos items := by
  induction n generalizing pos items with
  | zero => exact Local.pure _ _
  | succ n ih =>
    unfold itemsFrom
    exact (hparse pos).bind (q := fun item next b => itemsFrom (parse b) n next (items ++ [item]))
      fun item next _ => ih next (items ++ [item])

lemma itemsAt_local (hparse : ∀ pos, Local pos 0 fun b => parse b pos) (text : List UInt8) (after : ℕ)
    (wrap : List (Value B.F64) → Value B.F64) (nullAllowed : Bool) :
    Local after 0 fun b => itemsAt (parse b) text after wrap nullAllowed := by
  unfold itemsAt
  split
  · exact Local.pure _ _
  · refine Local.const_bind fun n _ => ?_
    exact (itemsFrom_local hparse n after []).bind (q := fun items next _ => pure (wrap items, next))
      fun items next _ => Local.pure (wrap items) next

lemma pairsAt_local (hparse : ∀ pos, Local pos 0 fun b => parse b pos) (text : List UInt8) (after : ℕ) :
    Local after 0 fun b => pairsAt (parse b) text after := by
  unfold pairsAt
  exact Local.const_bind fun n _ => Local.const_bind fun twice _ => itemsFrom_local hparse twice after []

lemma toGot_local (text : Option String) (wrap : String → Value B.F64) (after : ℕ) :
    Local after 0 fun _ : List UInt8 => toGot text wrap after := by
  cases text with
  | none => exact Local.error _ _ _
  | some s => exact Local.pure _ _

lemma verbatimOf_local (v : Value B.F64) (next : ℕ) : Local next 0 fun _ : List UInt8 => verbatimOf (v, next) := by
  unfold verbatimOf
  split
  · next heq =>
    cases heq
    split
    · split
      · exact Local.pure _ _
      · exact Local.error _ _ _
    · exact Local.error _ _ _
  · exact Local.error _ _ _

lemma parseKind_local (hparse : ∀ pos, Local pos 0 fun b => parse b pos) (kind : Kind) (text : List UInt8)
    (after : ℕ) : Local after 0 fun b => parseKind b (parse b) kind text after := by
  cases kind with
  | simpleString | error => exact toGot_local _ _ _
  | integer => exact Local.const_bind fun n _ => Local.pure _ _
  | bulkString | bulkError => exact bulkAt_local _ _ _ _
  | verbatim =>
    exact (bulkAt_local text after .bulkString false).bind (q := fun v next _ => verbatimOf (v, next))
      fun v next _ => verbatimOf_local v next
  | null =>
    unfold parseKind
    dsimp only
    split
    · exact Local.pure _ _
    · exact Local.error _ _ _
  | boolean =>
    unfold parseKind
    dsimp only
    split
    · exact Local.pure _ _
    · split
      · exact Local.pure _ _
      · exact Local.error _ _ _
  | double => exact Local.const_bind fun f _ => Local.pure _ _
  | bigNumber =>
    unfold parseKind
    dsimp only
    split
    · split
      · exact Local.pure _ _
      · exact Local.error _ _ _
    · exact Local.error _ _ _
  | array | set | push => exact itemsAt_local hparse _ _ _ _
  | map =>
    exact (pairsAt_local hparse text after).bind
      (q := fun items next _ => pure (Value.map (pairs items), next)) fun items next _ => Local.pure _ next
  | attributes =>
    exact (pairsAt_local hparse text after).bind (q := fun _ next b => parse b next) fun _ next _ => hparse next

/-- Above the bottom level, a value is a type byte, a line, and what the type makes of them. -/
theorem parseAt_succ (levels : ℕ) (b : List UInt8) (pos : ℕ) :
    parseAt B (levels + 1) b pos = byteAt b pos >>= fun byte => lineAt b byte.2 >>= fun line =>
      (kindOf byte.1).elim (fail (.bad ("unknown type byte " ++ toString byte.1.toNat)))
        fun kind => parseKind b (parseAt B levels b) kind line.1 line.2 := by
  unfold parseAt
  refine bind_congr fun byte => bind_congr fun line => ?_
  cases kindOf byte.1 <;> rfl

/-- **The parser looks at nothing but the bytes of the value it returns**, three or more. -/
theorem parseAt_local (levels pos : ℕ) : Local pos 3 fun b => parseAt B levels b pos := by
  induction levels generalizing pos with
  | zero => exact Local.error _ _ _
  | succ levels ih =>
    have hnested : ∀ pos, Local pos 0 fun b => parseAt B levels b pos := fun pos => (ih pos).mono (Nat.zero_le 3)
    have hbody : ∀ (byte : UInt8) (line : List UInt8) (after : ℕ), Local after 0 fun b =>
        (kindOf byte).elim (fail (.bad ("unknown type byte " ++ toString byte.toNat)))
          fun kind => parseKind b (parseAt B levels b) kind line after := by
      intro byte line after
      cases kindOf byte with
      | none => exact Local.error _ _ _
      | some kind => exact parseKind_local hnested kind line after
    simp only [parseAt_succ]
    exact (byteAt_local pos).bind fun byte next _ =>
      (lineAt_local next).bind fun line after _ => hbody byte line after

end RocNet.Resp
