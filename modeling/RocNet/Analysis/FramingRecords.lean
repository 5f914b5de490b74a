import RocNet.Analysis.FramingReads

/-!
# Records and lines do not depend on how the bytes arrive

The reference is a splitter that goes through all the bytes of a stream once (`records`), and what it is to be the
lines of these records (`Lines`).
-/

namespace RocNet.Framing

open List Option Incremental

variable {μ : Type} {d : UInt8} {maxLen : ℕ}

/-! ## The reference -/

/-- Split the rest of a stream into records, with these bytes of the first one before it: the records
before each delimiter, and how the stream ends. -/
def records (delimiter : UInt8) (maxLen : ℕ) :
    List UInt8 → List UInt8 → List (List UInt8) × ReadErr μ
  | current, [] =>
    ([], if maxLen < current.length then .tooLong
      else if current = [] then .endOfStream else .unexpectedEof)
  | current, byte :: rest =>
    if byte = delimiter then
      if maxLen < current.length then ([], .tooLong)
      else (records delimiter maxLen [] rest).map (List.cons current) id
    else records delimiter maxLen (current ++ [byte]) rest

/-- A record is this line: the encoding of the line, and at most one carriage return after it, which is not part of
the line. -/
def IsLine (record : List UInt8) (line : String) : Prop :=
  record = line.toUTF8.data.toList ++ [13] ∨ record = line.toUTF8.data.toList ∧ record.getLast? ≠ some 13

/-- The lines of some records, and how they end: with the first record that is no line, or as the records do. -/
inductive Lines : List (List UInt8) × ReadErr μ → List String × ReadErr μ → Prop
  | ended (e : ReadErr μ) : Lines ([], e) ([], e)
  | line {record : List UInt8} {text : String} {rest : List (List UInt8)} {ls : List String} {e e' : ReadErr μ}
      (hline : IsLine record text) (hrest : Lines (rest, e) (ls, e')) : Lines (record :: rest, e) (text :: ls, e')
  | badUtf8 {record : List UInt8} {rest : List (List UInt8)} {e : ReadErr μ} (hnone : ∀ text, ¬ IsLine record text) :
      Lines (record :: rest, e) ([], .badUtf8)

variable {rest front xs : List UInt8} {n : ℕ}

/-- Bytes before the next delimiter belong to the record. -/
theorem records_append (h : d ∉ front) :
    (records d maxLen current (front ++ rest) : _ × ReadErr μ) = records d maxLen (current ++ front) rest := by
  induction front generalizing current with
  | nil => rw [nil_append, append_nil]
  | cons byte front ih =>
    have hbyte : byte ≠ d := fun heq => h (heq ▸ mem_cons_self)
    conv_lhs => unfold records
    rw [cons_append]
    dsimp only
    rw [if_neg hbyte, ih fun hmem => h (mem_cons_of_mem _ hmem), append_assoc, singleton_append]

lemma records_of_notMem (h : d ∉ rest) :
    records d maxLen current rest = ([], if maxLen < (current ++ rest).length then .tooLong
      else if current ++ rest = [] then .endOfStream else (.unexpectedEof : ReadErr μ)) := by
  have hall : (records d maxLen current (rest ++ []) : _ × ReadErr μ) = _ := records_append h
  rwa [append_nil] at hall

lemma records_of_split (h : d ∉ front) : records d maxLen current (front ++ d :: rest) =
      if maxLen < (current ++ front).length then ([], (.tooLong : ReadErr μ))
      else (records d maxLen [] rest).map (List.cons (current ++ front)) id := by
  rw [records_append h]
  exact if_pos rfl

/-! ## What `read_until!` finds -/

lemma findIdx_of_notMem (h : d ∉ xs) : xs.findIdx? (fun byte => byte == d) = none := by
  rw [findIdx?_eq_none_iff]
  intro byte hbyte
  simpa using fun heq : byte = d => h (heq ▸ hbyte)

lemma findIdx_of_split (h : d ∉ front) :
    (front ++ d :: rest).findIdx? (fun byte => byte == d) = some front.length := by
  rw [findIdx?_append, findIdx_of_notMem h, findIdx?_cons]
  simp

lemma untilAnswer_of_notMem (h : d ∉ xs) :
    untilAnswer d maxLen 0 xs = if xs.length > maxLen then .fail (.tooLong : ReadErr μ) else .more := by
  unfold untilAnswer
  rw [drop_zero, findIdx_of_notMem h]

lemma untilAnswer_of_split (h : d ∉ front) :
    untilAnswer d maxLen 0 (front ++ d :: rest) = if front.length > maxLen then .fail (.tooLong : ReadErr μ)
      else .done front (front.length + 1) := by
  unfold untilAnswer
  rw [drop_zero, findIdx_of_split h]
  simp

/-- A record that is found, and the delimiter after it. -/
theorem untilAnswer_done (h : untilAnswer d maxLen 0 xs = (.done record n : Answer _ (ReadErr μ))) :
    d ∉ record ∧ record.length ≤ maxLen ∧ n = record.length + 1 ∧ ∃ rest, xs = record ++ d :: rest := by
  by_cases hmem : d ∈ xs
  · obtain ⟨front, rest, rfl, hfront⟩ := eq_append_cons_of_mem hmem
    rw [untilAnswer_of_split hfront] at h
    split at h
    · cases h
    · next hlen =>
      cases h
      exact ⟨hfront, Nat.le_of_not_lt hlen, rfl, rest, rfl⟩
  · rw [untilAnswer_of_notMem hmem] at h
    split at h <;> cases h

lemma untilAnswer_more (h : untilAnswer d maxLen 0 xs = (.more : Answer _ (ReadErr μ))) : d ∉ xs := by
  intro hmem
  obtain ⟨front, rest, rfl, hfront⟩ := eq_append_cons_of_mem hmem
  rw [untilAnswer_of_split hfront] at h
  split at h <;> cases h

lemma untilAnswer_stable : Stable (untilAnswer d maxLen 0 : _ → Answer _ (ReadErr μ)) where
  used_le := by
    intro xs record n h
    obtain ⟨-, -, rfl, rest, rfl⟩ := untilAnswer_done h
    simp
  done := by
    intro xs record n ys h
    obtain ⟨hrecord, hlen, rfl, rest, rfl⟩ := untilAnswer_done h
    rw [append_assoc, cons_append, untilAnswer_of_split hrecord, if_neg (by omega)]
  fail := by
    intro xs e ys h
    by_cases hmem : d ∈ xs
    · obtain ⟨front, rest, rfl, hfront⟩ := eq_append_cons_of_mem hmem
      rw [untilAnswer_of_split hfront] at h
      rwa [append_assoc, cons_append, untilAnswer_of_split hfront]
    · rw [untilAnswer_of_notMem hmem] at h
      split at h
      · next hlong =>
        -- too long without a delimiter: wherever the delimiter is, the record is too long
        rw [← h]
        by_cases hys : d ∈ ys
        · obtain ⟨front, rest, rfl, hfront⟩ := eq_append_cons_of_mem hys
          have hnone : d ∉ xs ++ front := by simp [hmem, hfront]
          rw [← append_assoc, untilAnswer_of_split hnone, if_pos]
          rw [length_append]
          omega
        · have hnone : d ∉ xs ++ ys := by simp [hmem, hys]
          rw [untilAnswer_of_notMem hnone, if_pos]
          rw [length_append]
          omega
      · cases h

lemma untilAnswer_resumes : Resumes (untilAnswer d maxLen : ℕ → _ → Answer _ (ReadErr μ)) := by
  intro buffered more h
  have hbuffered := untilAnswer_more h
  by_cases hmem : d ∈ more
  · obtain ⟨front, rest, rfl, hfront⟩ := eq_append_cons_of_mem hmem
    have hnone : d ∉ buffered ++ front := by simp [hbuffered, hfront]
    have hwhole : buffered ++ (front ++ d :: rest) = (buffered ++ front) ++ d :: rest := by simp
    have htake : (buffered ++ (front ++ d :: rest)).take (buffered.length + front.length) = buffered ++ front := by
      rw [hwhole, ← length_append, take_left]
    rw [hwhole, untilAnswer_of_split hnone, ← hwhole]
    unfold untilAnswer
    rw [drop_left, findIdx_of_split hfront]
    simp only [htake, length_append]
  · have hnone : d ∉ buffered ++ more := by simp [hbuffered, hmem]
    rw [untilAnswer_of_notMem hnone]
    unfold untilAnswer
    rw [drop_left, findIdx_of_notMem hmem]

/-! ## The reference, read after read -/

lemma split_eq_records (hn : xs.length < n) :
    (split (untilAnswer d maxLen 0) n xs).map (fun p => (p.1, stopError p.2)) =
      some (records d maxLen [] xs : _ × ReadErr μ) := by
  induction n generalizing xs with
  | zero => exact absurd hn (Nat.not_lt_zero _)
  | succ n ih =>
    unfold split
    by_cases hmem : d ∈ xs
    · obtain ⟨front, rest, rfl, hfront⟩ := eq_append_cons_of_mem hmem
      rw [untilAnswer_of_split hfront, records_of_split hfront, nil_append]
      by_cases hlong : maxLen < front.length
      · rw [if_pos hlong, if_pos hlong]
        rfl
      · rw [if_neg hlong, if_neg hlong]
        have hdrop : (front ++ d :: rest).drop (front.length + 1) = rest := by simp
        have hrest : rest.length < n := by
          rw [length_append, length_cons] at hn
          omega
        have hih := ih hrest
        simp only [hdrop, Option.map_map] at hih ⊢
        obtain ⟨p, hp, hpeq⟩ := map_eq_some_iff.mp hih
        rw [hp, ← hpeq]
        rfl
    · rw [untilAnswer_of_notMem hmem, records_of_notMem hmem, nil_append]
      by_cases hlong : maxLen < xs.length
      · rw [if_pos hlong, if_pos hlong]
        rfl
      · rw [if_neg hlong, if_neg hlong]
        simp only [map_some, stopError, atEnd, length_eq_zero_iff]

/-- Bytes are decoded to the string that they encode. -/
theorem fromUTF8_eq_some_iff {text : List UInt8} {line : String} :
    String.fromUTF8? ⟨text.toArray⟩ = some line ↔ text = line.toUTF8.data.toList := by
  rw [String.toUTF8_eq_toByteArray]
  constructor
  · intro h
    unfold String.fromUTF8? at h
    split at h
    · cases h
      rfl
    · cases h
  · rintro rfl
    exact dif_pos line.isValidUTF8

lemma lineOf_eq_some_iff {record : List UInt8} {line : String} : lineOf record = some line ↔ IsLine record line := by
  unfold lineOf withoutCr IsLine
  rw [fromUTF8_eq_some_iff]
  split
  · next hcr =>
    obtain ⟨front, rfl⟩ := getLast?_eq_some_iff.mp hcr
    simp
  · next hcr =>
    have hnot : record ≠ line.toUTF8.data.toList ++ [13] := by
      rintro rfl
      exact hcr (by simp)
    rw [or_iff_right hnot, and_iff_left hcr]

/-- Line after line, if the records before give these. -/
theorem readAll_readLine {r : Reader} {s : Stream} {recs : List (List UInt8)}
    {e : ReadErr μ} (h : readAll (fun r s => readUntil r 10 s) n r s = some (recs, e)) :
    ∃ read, readAll readLine n r s = some read ∧ Lines (recs, e) read := by
  induction n generalizing r s recs with
  | zero => cases h
  | succ n ih =>
    unfold readAll at h
    split at h
    · next e' s' hread =>
      cases h
      refine ⟨_, readAll_of_error ?_, .ended _⟩
      unfold readLine
      rw [hread]
    · next record next s' hread =>
      obtain ⟨⟨rs, e'⟩, hp, hpeq⟩ := map_eq_some_iff.mp h
      cases hpeq
      have hline : (readLine r s : Outcome _ μ) =
          (lineOf record).elim (.error .badUtf8, s') fun line => (.ok (line, next), s') := by
        unfold readLine
        cases hrecord : lineOf record <;> simp [hread, hrecord]
      unfold readAll
      rw [hline]
      cases hrecord : lineOf record with
      | some line =>
        obtain ⟨⟨ls, e''⟩, hread, hlines⟩ := ih hp
        exact ⟨_, by simp [hread], .line (lineOf_eq_some_iff.mp hrecord) hlines⟩
      | none =>
        refine ⟨_, rfl, .badUtf8 fun text htext => ?_⟩
        cases hrecord.symm.trans (lineOf_eq_some_iff.mpr htext)

/-- **Records and lines do not depend on how the bytes arrive.** On every stream without errors or
timeouts, reading record after record gives the records of all the bytes, and how they end; reading line
after line gives the lines of these records, up to one that is not UTF-8; and no byte is lost, repeated or moved
by a read. -/
theorem records_segmentation_independent (d : UInt8) (r : Reader) (s : Stream) (hcalm : Calm r.messageTimeoutNs s)
    (n : ℕ) (hn : (r.buffered ++ bytes s).length < n) : readAll (fun r s => readUntil r d s) n r s =
        some (records d r.maxLen [] (r.buffered ++ bytes s) : _ × ReadErr μ) ∧
      (∃ read, readAll readLine n r s = some read ∧
        Lines (records 10 r.maxLen [] (r.buffered ++ bytes s) : _ × ReadErr μ) read) ∧
      ∀ record next s', readUntil r d s = ((.ok (record, next), s') : Outcome _ μ) →
        record ++ d :: (next.buffered ++ bytes s') = r.buffered ++ bytes s := by
  have hall : ∀ d, readAll (fun r s => readUntil r d s) n r s =
      some (records d r.maxLen [] (r.buffered ++ bytes s) : _ × ReadErr μ) := by
    intro d
    obtain ⟨buffered, maxLen, timeoutNs⟩ := r
    rw [readAll_eq_split (fun _ _ => rfl) untilAnswer_stable untilAnswer_resumes hcalm n]
    exact split_eq_records hn
  refine ⟨hall d, readAll_readLine (hall 10), fun record next s' hread => ?_⟩
  obtain ⟨received, used, hanswer, rfl, hbytes, -⟩ := readLoop_ok untilAnswer_resumes rfl hread
  obtain ⟨-, -, rfl, rest, rfl⟩ := untilAnswer_done hanswer
  rw [← hbytes]
  simp

/-- Two lines in two reads, cut between the characters that end the first. -/
def cutLine : Stream :=
  [.data ⟨[97, 13], by decide, by decide⟩ 5, .data ⟨[10, 99, 10], by decide, by decide⟩ 7]

/-- A line cut between its `\r` and its `\n`. -/
theorem records_segmentation_independent_cutLine : readAll (fun r s => readUntil r 10 s) 6 (readerWithMax 10) cutLine =
      some ([[97, 13], [99]], (.endOfStream : ReadErr Unit)) ∧
    ∃ read, readAll readLine 6 (readerWithMax 10) cutLine = some read ∧
      Lines ([[97, 13], [99]], (.endOfStream : ReadErr Unit)) read := by
  have hcalm : Calm (readerWithMax 10).messageTimeoutNs cutLine := by
    intro a ha
    rcases mem_cons.mp ha with rfl | ha
    · exact ⟨_, _, rfl, rfl⟩
    · rw [mem_singleton.mp ha]
      exact ⟨_, _, rfl, rfl⟩
  obtain ⟨hrecords, hlines, -⟩ :=
    records_segmentation_independent 10 (readerWithMax 10) cutLine hcalm 6 (by decide)
  exact ⟨hrecords, hlines⟩

end RocNet.Framing
