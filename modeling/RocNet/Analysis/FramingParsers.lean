import RocNet.Analysis.FramingEnds

/-!
# Framings with a parser

If a parser does not take back an answer when more bytes come (`StableParser`), and finds a message within the limit
before more than the limit is buffered without one (`Prompt`), the messages that are read do not depend on how the bytes arrive. The error can: a message that is both
too long and malformed is one or the other.
-/

namespace RocNet.Framing

open List Incremental

variable {β μ : Type} {parse : List UInt8 → Parse β μ} {maxLen : ℕ}

/-! ## Parsers -/

/-- Answers stand when more bytes come, and a message has bytes; more bytes may change how a message is
malformed. -/
structure StableParser (parse : List UInt8 → Parse β μ) : Prop where
  used : ∀ {b : List UInt8} {v : β} {n : ℕ}, parse b = .parsed v n → 0 < n ∧ n ≤ b.length
  parsed : ∀ {b : List UInt8} {v : β} {n : ℕ} (more : List UInt8), parse b = .parsed v n →
    parse (b ++ more) = .parsed v n
  malformed : ∀ {b : List UInt8} {e : μ} (more : List UInt8), parse b = .malformed e →
    ∃ e', parse (b ++ more) = .malformed e'

/-- A message within the limit is found when one byte more than the limit is there. -/
def Prompt (parse : List UInt8 → Parse β μ) (maxLen : ℕ) : Prop :=
  ∀ b v n, parse b = .parsed v n → n ≤ maxLen → parse (b.take (maxLen + 1)) = .parsed v n

/-- The same error, or `TooLong` or `Malformed` on both sides. -/
def SameRefusal (e e' : ReadErr μ) : Prop := e = e' ∨ Refusal e ∧ Refusal e'

variable {b : List UInt8} {v : β} {n : ℕ} {e e' : ReadErr μ}

/-- A message that is not found in a buffer beyond the limit is too long itself. -/
theorem Prompt.maxLen_lt (hstable : StableParser parse) (hprompt : Prompt parse maxLen) (hmore : parse b = .needMore)
    (hlong : maxLen < b.length) (h : parse (b ++ more) = .parsed v n) : maxLen < n := by
  by_contra hn
  have htake := hprompt _ _ _ h (Nat.le_of_not_lt hn)
  rw [take_append_of_le_length hlong] at htake
  have hb := hstable.parsed (b.drop (maxLen + 1)) htake
  rw [take_append_drop, hmore] at hb
  cases hb

lemma parsedAnswer_used (hstable : StableParser parse)
    (h : parsedAnswer parse maxLen 0 b = .done v n) : 0 < n ∧ n ≤ b.length := by
  unfold parsedAnswer at h
  split at h
  · next hparse =>
    split at h
    · cases h
    · cases h
      exact hstable.used hparse
  · cases h
  · split at h <;> cases h

lemma parsedAnswer_stable (hstable : StableParser parse) (hprompt : Prompt parse maxLen) :
    StableUpTo SameRefusal (parsedAnswer parse maxLen 0) where
  used_le h := (parsedAnswer_used hstable h).2
  done := by
    intro xs v n ys h
    unfold parsedAnswer at h ⊢
    split at h
    · next hparse =>
      rw [hstable.parsed ys hparse]
      exact h
    · cases h
    · split at h <;> cases h
  fail := by
    intro xs e ys h
    have hrefusal := parsedAnswer_refusal h
    suffices hfail : ∃ e', parsedAnswer parse maxLen 0 (xs ++ ys) = .fail e' by
      obtain ⟨e', he'⟩ := hfail
      exact ⟨e', he', .inr ⟨hrefusal, parsedAnswer_refusal he'⟩⟩
    unfold parsedAnswer at h ⊢
    cases hparse : parse xs with
    | parsed v n =>
      rw [hparse] at h
      rw [hstable.parsed ys hparse]
      exact ⟨e, h⟩
    | malformed e' =>
      obtain ⟨e'', he''⟩ := hstable.malformed ys hparse
      rw [he'']
      exact ⟨_, rfl⟩
    | needMore =>
      simp only [hparse] at h
      split at h
      · next hlong =>
        -- too long already: whatever comes next, the message is longer than what was there
        cases hwhole : parse (xs ++ ys) with
        | parsed v n =>
          exact ⟨_, if_pos (hprompt.maxLen_lt hstable hparse hlong hwhole)⟩
        | malformed e' => exact ⟨_, rfl⟩
        | needMore =>
          refine ⟨_, if_pos ?_⟩
          rw [length_append]
          omega
      · cases h

/-! ## Read after read -/

/-- Read until a read fails, `n` times at most: each value with what was left after it, the error, and
what was left where it came. -/
def readTrace (read : Reader → Stream → Outcome β μ) :
    ℕ → Reader → Stream → Option (List (β × List UInt8) × ReadErr μ × List UInt8)
  | 0, _, _ => none
  | n + 1, r, s =>
    match read r s with
    | (.error e, _) => some ([], e, remaining r s)
    | (.ok (value, next), s') =>
      (readTrace read n next s').map fun p => ((value, remaining next s') :: p.1, p.2)

lemma readTrace_of_error {read : Reader → Stream → Outcome β μ} (h : (read r s).1 = .error e) (n : ℕ) :
    readTrace read (n + 1) r s = some ([], e, remaining r s) := by
  have hread : read r s = (.error e, (read r s).2) := Prod.ext h rfl
  unfold readTrace
  rw [hread]

/-- Two ways to read the same bytes: the same values, each with the same bytes left, and a failure at
the same place. -/
def Agree (x y : Option (List (β × List UInt8) × ReadErr μ × List UInt8)) : Prop :=
  ∃ values position e₁ e₂, x = some (values, e₁, position) ∧ y = some (values, e₂, position) ∧
    (e₁ = .endOfStream ↔ e₂ = .endOfStream) ∧ SameRefusal e₁ e₂

lemma Refusal.ne_endOfStream (h : Refusal e) : e ≠ .endOfStream := by
  rintro rfl
  rcases h with h | ⟨x, h⟩
  · cases h
  · cases h

lemma SameRefusal.refusal (h : SameRefusal e e') (he' : Refusal e') : Refusal e := by
  rcases h with rfl | ⟨he, -⟩
  · exact he'
  · exact he

lemma SameRefusal.endOfStream_iff (h : SameRefusal e e') : e = .endOfStream ↔ e' = .endOfStream := by
  rcases h with rfl | ⟨he, he'⟩
  · exact Iff.rfl
  · exact iff_of_false he.ne_endOfStream he'.ne_endOfStream

/-- Reading goes on the same way for two readers with the same bytes left. -/
theorem readTrace_agree (hstable : StableParser parse) (hprompt : Prompt parse maxLen) (hcalm₁ : Calm timeoutNs s₁)
    (hcalm₂ : Calm timeoutNs s₂) (hbytes : b₁ ++ bytes s₁ = b₂ ++ bytes s₂) (hn : (b₁ ++ bytes s₁).length < n) :
    Agree (readTrace (fun r s => readParsed r parse s) n ⟨b₁, maxLen, timeoutNs⟩ s₁)
      (readTrace (fun r s => readParsed r parse s) n ⟨b₂, maxLen, timeoutNs⟩ s₂) := by
  have hrefl : ∀ e : ReadErr μ, SameRefusal e e := fun e => .inl rfl
  have hanswers := parsedAnswer_stable hstable hprompt
  induction n generalizing b₁ b₂ s₁ s₂ with
  | zero => exact absurd hn (Nat.not_lt_zero _)
  | succ n ih =>
    have h₁ := readLoop_of_whole ⟨b₁, maxLen, timeoutNs⟩ true b₁ (fun _ _ _ => rfl) hanswers hrefl hcalm₁
    have h₂ := readLoop_of_whole ⟨b₂, maxLen, timeoutNs⟩ true b₂ (fun _ _ _ => rfl) hanswers hrefl hcalm₂
    rw [← hbytes] at h₂
    cases hanswer : parsedAnswer parse maxLen 0 (b₁ ++ bytes s₁) with
    | done value used =>
      rw [hanswer] at h₁ h₂
      obtain ⟨rest₁, s₁', hread₁, hcalm₁', hleft₁⟩ := h₁
      obtain ⟨rest₂, s₂', hread₂, hcalm₂', hleft₂⟩ := h₂
      have hshorter : (rest₁ ++ bytes s₁').length < n := by
        have hused := parsedAnswer_used hstable hanswer
        rw [hleft₁, length_drop]
        omega
      obtain ⟨values, position, e₁, e₂, htrace₁, htrace₂, hend, hsame⟩ :=
        ih hcalm₁' hcalm₂' (hleft₁.trans hleft₂.symm) hshorter
      refine ⟨(value, rest₁ ++ bytes s₁') :: values, position, e₁, e₂, ?_, ?_, hend, hsame⟩
      · simp only [readTrace, readParsed, hread₁] at htrace₁ ⊢
        rw [htrace₁]
        rfl
      · simp only [readTrace, readParsed, hread₂] at htrace₂ ⊢
        rw [htrace₂, hleft₁, ← hleft₂]
        rfl
    | fail e =>
      rw [hanswer] at h₁ h₂
      obtain ⟨e₁, he₁, hR₁⟩ := h₁
      obtain ⟨e₂, he₂, hR₂⟩ := h₂
      have hrefusal := parsedAnswer_refusal hanswer
      have hsame : SameRefusal e₁ e₂ := .inr ⟨hR₁.refusal hrefusal, hR₂.refusal hrefusal⟩
      refine ⟨[], b₁ ++ bytes s₁, e₁, e₂, readTrace_of_error he₁ n, ?_, hsame.endOfStream_iff, hsame⟩
      rw [hbytes]
      exact readTrace_of_error he₂ n
    | more =>
      rw [hanswer] at h₁ h₂
      refine ⟨[], b₁ ++ bytes s₁, _, _, readTrace_of_error h₁ n, ?_, Iff.rfl, hrefl _⟩
      rw [hbytes] at h₂ ⊢
      exact readTrace_of_error h₂ n

/-- **Framings with a parser do not depend on the segmentation.** Two calm streams of the same bytes are read by
a stable parser, which is prompt for the reader's limit, as the same values, with the same bytes left after each, up to a failure at the same
place: the end of the stream for both or for neither, and the same error unless both are `TooLong` or
`Malformed`. -/
theorem parsed_segmentation_independent (parse : List UInt8 → Parse β μ) (hstable : StableParser parse)
    (maxLen timeoutNs : ℕ) (hprompt : Prompt parse maxLen) (s₁ s₂ : Stream) (hcalm₁ : Calm timeoutNs s₁)
    (hcalm₂ : Calm timeoutNs s₂) (hbytes : bytes s₁ = bytes s₂) (n : ℕ) (hn : (bytes s₁).length < n) :
    ∃ values position e₁ e₂, readTrace (fun r s => readParsed r parse s) n ⟨[], maxLen, timeoutNs⟩ s₁ =
        some (values, e₁, position) ∧ readTrace (fun r s => readParsed r parse s) n ⟨[], maxLen, timeoutNs⟩ s₂ =
        some (values, e₂, position) ∧ (e₁ = .endOfStream ↔ e₂ = .endOfStream) ∧ (e₁ = e₂ ∨ Refusal e₁ ∧ Refusal e₂) :=
  readTrace_agree hstable hprompt hcalm₁ hcalm₂ hbytes hn

/-- A message is two bytes, the first of which is not 0. -/
def twoBytes (b : List UInt8) : Parse (List UInt8) Unit :=
  match b with
  | [] => .needMore
  | x :: b =>
    if x = 0 then .malformed ()
    else
      match b with
      | [] => .needMore
      | y :: _ => .parsed [x, y] 2

lemma twoBytes_stable : StableParser twoBytes where
  used := by
    intro b v n h
    unfold twoBytes at h
    split at h
    · cases h
    · split at h
      · cases h
      · split at h
        · cases h
        · cases h
          simp
  parsed := by
    intro b v n more h
    unfold twoBytes at h ⊢
    split at h
    · cases h
    · split at h
      · cases h
      · next hx =>
        split at h
        · cases h
        · cases h
          simp [hx]
  malformed := by
    intro b e more h
    unfold twoBytes at h ⊢
    split at h
    · cases h
    · split at h
      · next hx =>
        refine ⟨(), ?_⟩
        simp [hx]
      · split at h <;> cases h

lemma twoBytes_prompt : Prompt twoBytes 5 := by
  intro b v n h _
  unfold twoBytes at h ⊢
  split at h
  · cases h
  · split at h
    · cases h
    · next hx =>
      split at h
      · cases h
      · cases h
        simp [hx]

/-- A message is three bytes, and the seven after it have to be there. -/
def lookahead (b : List UInt8) : Parse Unit Unit :=
  if b.length < 10 then .needMore else .parsed () 3

def tenAtOnce : Stream := [.data ⟨[1, 1, 1, 1, 1, 1, 1, 1, 1, 1], by decide, by decide⟩ 0]

def tenInTwo : Stream :=
  [.data ⟨[1, 1, 1, 1, 1, 1], by decide, by decide⟩ 0, .data ⟨[1, 1, 1, 1], by decide, by decide⟩ 0]

lemma calm_ten : Calm 0 tenAtOnce ∧ Calm 0 tenInTwo := by
  constructor
  · intro a ha
    simp only [tenAtOnce, mem_cons, not_mem_nil, or_false] at ha
    subst ha
    exact ⟨_, _, rfl, rfl⟩
  · intro a ha
    simp only [tenInTwo, mem_cons, not_mem_nil, or_false] at ha
    rcases ha with rfl | rfl
    · exact ⟨_, _, rfl, rfl⟩
    · exact ⟨_, _, rfl, rfl⟩

/-- Ten bytes at once and in two, read two bytes at a time. -/
theorem parsed_segmentation_independent_twoBytes : ∃ values position e₁ e₂,
    readTrace (fun r s => readParsed r twoBytes s) 11 ⟨[], 5, 0⟩ tenAtOnce = some (values, e₁, position) ∧
      readTrace (fun r s => readParsed r twoBytes s) 11 ⟨[], 5, 0⟩ tenInTwo = some (values, e₂, position) ∧
      (e₁ = .endOfStream ↔ e₂ = .endOfStream) ∧ (e₁ = e₂ ∨ Refusal e₁ ∧ Refusal e₂) :=
  parsed_segmentation_independent twoBytes twoBytes_stable 5 0 twoBytes_prompt tenAtOnce tenInTwo
    calm_ten.1 calm_ten.2 (by decide) 11 (by decide)

/-- A stable parser that looks seven bytes ahead, and a reader of messages of up to five: a message is
read from ten bytes in one read, and not from the same bytes in two. -/
theorem lookahead_depends : StableParser lookahead ∧ Calm 0 tenAtOnce ∧ Calm 0 tenInTwo ∧
    bytes tenAtOnce = bytes tenInTwo ∧ readTrace (fun r s => readParsed r lookahead s) 2 ⟨[], 5, 0⟩ tenAtOnce =
      some ([((), List.replicate 7 1)], .tooLong, List.replicate 7 1) ∧
    readTrace (fun r s => readParsed r lookahead s) 2 ⟨[], 5, 0⟩ tenInTwo =
      some ([], .tooLong, List.replicate 10 1) := by
  have hstable : StableParser lookahead := by
    refine ⟨fun {b v n} h => ?_, fun {b v n} more h => ?_, fun {b e} more h => ?_⟩
    · unfold lookahead at h
      split at h
      · cases h
      · next hlen =>
        cases h
        omega
    · unfold lookahead at h ⊢
      split at h
      · cases h
      · next hlen =>
        rw [length_append, if_neg (by omega)]
        exact h
    · unfold lookahead at h
      split at h <;> cases h
  refine ⟨hstable, calm_ten.1, calm_ten.2, by decide, ?_, ?_⟩
  · simp [readTrace, readParsed, readLoop, parsedAnswer, lookahead, tenAtOnce, outOfTime, remaining, bytes, segments]
  · simp [readTrace, readParsed, readLoop, parsedAnswer, lookahead, tenInTwo, outOfTime, remaining, bytes, segments]

end RocNet.Framing
