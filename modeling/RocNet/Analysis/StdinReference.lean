import RocNet.Model.StdinLines

/-!
# Lines do not depend on buffering

What the loop of `read_line` has kept is a function of the bytes of the line so far (`kept`), however they were cut
into chunks.
-/

namespace RocNet.Stdin

open List

variable {τ : Type} {decode : List UInt8 → Option τ} {c part after bs : List UInt8} {input : List Fill}

/-- What is kept of a line. -/
def kept (c : List UInt8) : List UInt8 × Bool := if c.length ≤ maxLine + 1 then (c, false) else ([], true)

lemma kept_of_le (h : c.length ≤ maxLine + 1) : kept c = (c, false) := if_pos h

lemma kept_of_lt (h : maxLine + 1 < c.length) : kept c = ([], true) := if_neg (Nat.not_le.mpr h)

lemma kept_length_le (c : List UInt8) : (kept c).1.length ≤ maxLine + 1 := by
  unfold kept
  split
  · assumption
  · exact Nat.zero_le _

lemma keep_kept (c part : List UInt8) : keep (kept c).1 (kept c).2 part = kept (c ++ part) := by
  have hlength : (c ++ part).length = c.length + part.length := length_append
  by_cases hc : c.length ≤ maxLine + 1
  · rw [kept_of_le hc, keep, if_neg nofun]
    by_cases hpart : maxLine + 1 < c.length + part.length
    · rw [if_pos hpart, kept_of_lt (by omega)]
    · rw [if_neg hpart, kept_of_le (by omega)]
  · rw [kept_of_lt (by omega), kept_of_lt (by omega)]
    rfl

/-- The bytes of the input. -/
def bytes : List Fill → List UInt8
  | [] => []
  | .interrupted :: rest => bytes rest
  | .chunk first others :: rest => first :: others ++ bytes rest

/-- How a read that has the bytes `c` of the line ends. -/
inductive Ends (c : List UInt8) (input : List Fill) (r : Read) : Prop
  | last (hno : 10 ∉ bytes input) (hrest : r.rest = [])
      (hline : r.line = if c ++ bytes input = [] then none else some (kept (c ++ bytes input)))
  | line (part : List UInt8) (hno : 10 ∉ part) (hbytes : bytes input = part ++ 10 :: bytes r.rest)
      (hline : r.line = some (kept (c ++ part)))

/-- A chunk has no line feed, or is cut at the first one. -/
theorem chunk_cases (buf : List UInt8) : (10 ∉ buf ∧ buf.takeWhile (· != 10) = buf ∧ buf.dropWhile (· != 10) = []) ∨
      ∃ part after, 10 ∉ part ∧ buf = part ++ 10 :: after ∧ buf.takeWhile (· != 10) = part ∧
        buf.dropWhile (· != 10) = 10 :: after := by
  induction buf with
  | nil => exact .inl ⟨not_mem_nil, rfl, rfl⟩
  | cons b buf ih =>
    by_cases hb : b = 10
    · exact .inr ⟨[], buf, not_mem_nil, by rw [hb]; rfl, by simp [hb], by simp [hb]⟩
    · rcases ih with ⟨hno, htake, hdrop⟩ | ⟨part, after, hno, rfl, htake, hdrop⟩
      · exact .inl ⟨by simp [hno, Ne.symm hb], by simp [hb, htake], by simp [hb, hdrop]⟩
      · exact .inr ⟨b :: part, after, by simp [hno, Ne.symm hb], rfl, by simp [hb, htake], by simp [hb, hdrop]⟩

lemma readLoop_kept (c : List UInt8) (input : List Fill) : Ends c input (readLoop (kept c).1 (kept c).2 input) ∧
      ∀ n ∈ (readLoop (kept c).1 (kept c).2 input).held, n ≤ maxLine + 1 := by
  induction input generalizing c with
  | nil =>
    refine ⟨.last not_mem_nil rfl ?_, by simp [readLoop]⟩
    by_cases hc : c.length ≤ maxLine + 1
    · simp [readLoop, bytes, kept_of_le hc]
    · have hne : c ≠ [] := ne_nil_of_length_pos (by omega)
      simp [readLoop, bytes, kept_of_lt (Nat.not_le.mp hc), hne]
  | cons fill rest ih =>
    cases fill with
    | interrupted =>
      obtain ⟨hends, hheld⟩ := ih c
      refine ⟨?_, hheld⟩
      cases hends with
      | last hno hrest hline => exact .last hno hrest hline
      | line part hno hbytes hline => exact .line part hno hbytes hline
    | chunk first others =>
      simp only [readLoop, keep_kept]
      rcases chunk_cases (first :: others) with ⟨hno, htake, hdrop⟩ | ⟨part, after, hno, hbuf, htake, hdrop⟩
      · rw [htake, hdrop]
        obtain ⟨hends, hheld⟩ := ih (c ++ first :: others)
        refine ⟨?_, forall_mem_cons.mpr ⟨kept_length_le _, hheld⟩⟩
        cases hends with
        | last hno' hrest hline =>
          refine .last ?_ hrest (by simpa [bytes] using hline)
          rw [bytes, mem_append, not_or]
          exact ⟨hno, hno'⟩
        | line part hno' hbytes hline =>
          refine .line (first :: others ++ part) ?_ (by simp [bytes, hbytes]) (by simpa using hline)
          rw [mem_append, not_or]
          exact ⟨hno, hno'⟩
      · rw [htake, hdrop]
        cases after with
        | nil | cons next after => exact ⟨.line part hno (by simp [bytes, hbuf]) rfl, by simpa using kept_length_le _⟩

/-! ## The reference -/

/-- The parts between line feeds, of which the last counts unless it is empty. -/
def lineParts (bs : List UInt8) : List (List UInt8) :=
  if (bs.splitOn 10).getLast? = some [] then (bs.splitOn 10).dropLast else bs.splitOn 10

/-- A line, of which a carriage return at the end is no part. -/
def lineOf (decode : List UInt8 → Option τ) (part : List UInt8) : Line τ :=
  let content := if part.getLast? = some 13 then part.dropLast else part
  if maxLine < content.length then .tooLong else (decode content).elim .failed .text

lemma lineParts_of_not_mem (h : 10 ∉ bs) : lineParts bs = if bs = [] then [] else [bs] := by
  rw [lineParts, splitOn_eq_singleton h]
  by_cases hnil : bs = []
  · simp [hnil]
  · simp [hnil]

lemma lineParts_append (h : 10 ∉ part) : lineParts (part ++ 10 :: after) = part :: lineParts after := by
  have hne : after.splitOn 10 ≠ [] := splitOn_ne_nil 10 after
  rw [lineParts, lineParts, splitOn_append_cons_self_of_not_mem h, getLast?_cons_of_ne_nil hne,
    dropLast_cons_of_ne_nil hne]
  split <;> rfl

lemma finish_kept (c : List UInt8) : finish decode (kept c).1 (kept c).2 = lineOf decode c := by
  by_cases hc : c.length ≤ maxLine + 1
  · simp [kept_of_le hc, finish, lineOf]
  · rw [kept_of_lt (Nat.not_le.mp hc)]
    have hlong : maxLine < (if c.getLast? = some 13 then c.dropLast else c).length := by
      split
      · rw [length_dropLast]
        omega
      · omega
    simp [finish, lineOf, hlong]

lemma readLine_cases (decode : List UInt8 → Option τ) (input : List Fill) :
    ((readLine decode input).1 :: (lineParts (bytes (readLine decode input).2)).map (lineOf decode) =
      (lineParts (bytes input)).map (lineOf decode)) ∨
    bytes input = [] ∧ (readLine decode input).1 = .ended ∧ (readLine decode input).2 = [] := by
  have hends : Ends [] input (readLoop [] false input) := (readLoop_kept [] input).1
  unfold readLine
  generalize readLoop [] false input = r at hends
  cases hends with
  | last hno hrest hline =>
    by_cases hnil : bytes input = []
    · right
      simp [hline, hrest, hnil]
    · left
      rw [lineParts_of_not_mem hno, if_neg hnil]
      simp [hline, hrest, hnil, finish_kept, bytes, lineParts]
  | line part hno hbytes hline =>
    left
    simp [hline, hbytes, lineParts_append hno, finish_kept]

/-- **Lines of standard input.** However the input is cut into chunks, calls of `read_line` return the lines of the
reference and then its end, and hold no more than a byte over the limit. -/
theorem lineAt_eq_reference (decode : List UInt8 → Option τ) (input : List Fill) :
    (∀ i, lineAt decode i input = ((lineParts (bytes input)).map (lineOf decode))[i]?.getD .ended) ∧
    ∀ rest, ∀ n ∈ (readLoop [] false rest).held, n ≤ maxLine + 1 := by
  refine ⟨fun i => ?_, fun rest => (readLoop_kept [] rest).2⟩
  induction i generalizing input with
  | zero =>
    rcases readLine_cases decode input with hline | ⟨hnil, hended, -⟩
    · rw [← hline]
      rfl
    · rw [hnil, lineAt, hended]
      rfl
  | succ i ih =>
    rw [lineAt, ih]
    rcases readLine_cases decode input with hline | ⟨hnil, -, hrest⟩
    · rw [← hline, List.getElem?_cons_succ]
    · rw [hnil, hrest]
      rfl

end RocNet.Stdin
