import RocNet.Analysis.FramingFrames
import RocNet.Analysis.FramingParsers
import RocNet.Analysis.RespRoundTrip

/-!
# RESP commands over a stream

A server reads commands with `read_parsed!` and the RESP parser, which is stable and prompt, and takes their arguments
with `command_args`.
-/

namespace RocNet.Resp

open List Framing Incremental Nat

variable {B : Builtins} {maxLen timeoutNs : ℕ} {s : Stream}

/-! ## The parser of a reader -/

/-- The parser that `read_parsed!` is given. It has no answer where `parse` would crash, which is on no
buffer that fits into memory. -/
def parser (B : Builtins) (buffered : List UInt8) : Parse (Value B.F64) String :=
  match parse B buffered with
  | .ok answer => answer
  | .error _ => .needMore

variable {b rest : List UInt8} {n : ℕ} {args : List (List UInt8)} {commands : List (List (List UInt8))}

lemma parser_eq_iff {answer : Parse (Value B.F64) String} (h : answer ≠ .needMore) :
    parser B b = answer ↔ parse B b = .ok answer := by
  unfold parser
  split
  · next hparse => rw [hparse, Except.ok.injEq]
  · next hparse => simp [hparse, h.symm]

lemma parser_stable (B : Builtins) : StableParser (parser B) where
  used h := by
    rw [parser_eq_iff (by simp), parse_parsed_iff] at h
    have hrange := (parseAt_local _ 0).range (zero_le _) h
    omega
  parsed more h := by
    rw [parser_eq_iff (by simp), parse_parsed_iff] at h ⊢
    exact (parseAt_local _ 0).append more (zero_le _) h
  malformed more h := by
    rw [parser_eq_iff (by simp), parse_malformed_iff] at h
    have hbad := (parseAt_local _ 0).bad more (zero_le _) h
    exact ⟨_, (parser_eq_iff (by simp)).mpr (parse_malformed_iff.mpr hbad)⟩

/-- A value is found in its own bytes. -/
theorem parser_prompt (B : Builtins) (maxLen : ℕ) : Prompt (parser B) maxLen := by
  intro b v n h hn
  rw [parser_eq_iff (by simp), parse_parsed_iff] at h
  have hgot := (parseAt_local _ 0).got ((b.take (maxLen + 1)).drop n) (zero_le _) h
  have htake : b.take n = (b.take (maxLen + 1)).take n := by rw [take_take, Nat.min_eq_left (by omega)]
  rw [htake, take_append_drop] at hgot
  exact (parser_eq_iff (by simp)).mpr (parse_parsed_iff.mpr hgot)

/-! ## Commands -/

/-- A command as a value: an array of bulk strings. -/
def commandValue (args : List (List UInt8)) : Value B.F64 := .array (args.map .bulkString)

lemma commandValue_encodable (args : List (List UInt8)) : (commandValue args : Value B.F64).Encodable := by
  change itemsEncodable (args.map .bulkString)
  induction args with
  | nil => trivial
  | cons arg args ih => exact ⟨trivial, ih⟩

lemma commandValue_depth (args : List (List UInt8)) : (commandValue args : Value B.F64).depth ≤ 512 := by
  have hone : itemsDepth (args.map (.bulkString : _ → Value B.F64)) ≤ 1 := by
    induction args with
    | nil => exact Nat.zero_le 1
    | cons arg args ih => exact Nat.max_le.mpr ⟨Nat.le_refl 1, ih⟩
  exact Nat.le_trans hone (by decide)

lemma commandArgs_commandValue (args : List (List UInt8)) :
    commandArgs (commandValue args : Value B.F64) = some args := by
  have hfold : ∀ {f : Option (List (List UInt8)) → Value B.F64 → Option (List (List UInt8))},
      (∀ front arg, f (some front) (.bulkString arg) = some (front ++ [arg])) →
      ∀ front, (args.map .bulkString).foldl f (some front) = some (front ++ args) := by
    intro f hf
    induction args with
    | nil =>
      intro front
      rw [append_nil]
      rfl
    | cons arg args ih =>
      intro front
      rw [map_cons, foldl_cons, hf, ih, append_assoc]
      rfl
  exact hfold (fun _ _ => rfl) []

/-- The bytes of some commands. -/
def commandsBytes (B : Builtins) (commands : List (List (List UInt8))) : List UInt8 :=
  (commands.map (commandBytes (B := B))).flatten

/-- Read a command, and take its arguments. -/
def readCommand (B : Builtins) (r : Reader) (s : Stream) : Outcome (Option (List (List UInt8))) String :=
  Outcome.mapValue commandArgs (readParsed r (parser B) s)

/-- The bytes in a reader's buffer and on a calm stream, which fit into memory. -/
structure Ahead (maxLen : ℕ) (r : Reader) (s : Stream) (whole : List UInt8) : Prop where
  limit : r.maxLen = maxLen
  calm : Calm r.messageTimeoutNs s
  found : r.buffered ++ bytes s = whole
  fits : Fits whole

variable {r : Reader} {v : Value B.F64}

/-- A value is read back off the front of what is ahead. -/
theorem Ahead.readParsed (hB : B.Inverse) (hv : v.Encodable) (hdepth : v.depth ≤ maxDepth)
    (hlen : (encode v).length ≤ maxLen) (h : Ahead maxLen r s (encode v ++ rest)) :
    ∃ r' s', readParsed r (parser B) s = (.ok (v, r'), s') ∧ Ahead maxLen r' s' rest := by
  obtain ⟨rfl, hcalm, hwhole, hfits⟩ := h
  have hloop := readLoop_of_whole r true r.buffered (fun _ _ _ => rfl)
    (parsedAnswer_stable (parser_stable B) (parser_prompt B r.maxLen)) (fun _ => .inl rfl) hcalm
  have hanswer : parsedAnswer (parser B) r.maxLen 0 (encode v ++ rest) = .done v (encode v).length := by
    unfold parsedAnswer
    rw [(parser_eq_iff (by simp)).mpr (parse_encode hB hv hdepth hfits)]
    exact if_neg (Nat.not_lt.mpr hlen)
  rw [hwhole, hanswer] at hloop
  obtain ⟨b', s', hread, hcalm', hleft⟩ := hloop
  rw [drop_left] at hleft
  refine ⟨_, s', hread, rfl, hcalm', hleft, ?_⟩
  unfold Fits at hfits ⊢
  rw [length_append] at hfits
  omega

lemma readCommand_of_command (hB : B.Inverse) (hlen : (commandBytes (B := B) args).length ≤ maxLen)
    (h : Ahead maxLen r s (commandBytes (B := B) args ++ rest)) :
    ∃ r' s', readCommand B r s = (.ok (some args, r'), s') ∧ Ahead maxLen r' s' rest := by
  obtain ⟨r', s', hread, hleft⟩ :=
    h.readParsed (v := commandValue args) hB (commandValue_encodable args) (commandValue_depth args) hlen
  refine ⟨r', s', ?_, hleft⟩
  unfold readCommand
  rw [hread, ← commandArgs_commandValue (B := B) args]
  rfl

lemma readCommand_of_end (h : Ahead maxLen r s []) : (readCommand B r s).1 = .error .endOfStream := by
  have hloop := readLoop_of_whole r true r.buffered (fun _ _ _ => rfl)
    (parsedAnswer_stable (parser_stable B) (parser_prompt B r.maxLen)) (fun _ => .inl rfl) h.calm
  rw [h.found] at hloop
  have hread : readParsed r (parser B) s = (.error .endOfStream, (readParsed r (parser B) s).2) := Prod.ext hloop rfl
  unfold readCommand
  rw [hread]
  rfl

lemma readAll_commands (hB : B.Inverse) (hlen : ∀ args ∈ commands, (commandBytes (B := B) args).length ≤ maxLen)
    (h : Ahead maxLen r s (commandsBytes B commands)) (hn : commands.length < n) :
    readAll (readCommand B) n r s = some (commands.map some, .endOfStream) := by
  induction n generalizing commands r s with
  | zero => exact absurd hn (not_lt_zero _)
  | succ n ih =>
    cases commands with
    | nil => exact readAll_of_error (readCommand_of_end h)
    | cons args commands =>
      obtain ⟨r', s', hread, hleft⟩ := readCommand_of_command hB (hlen args mem_cons_self) h
      have hrest := ih (fun a ha => hlen a (mem_cons_of_mem _ ha)) hleft (lt_of_succ_lt_succ hn)
      unfold readAll
      rw [hread]
      simp only [hrest]
      rfl

/-- Commands that arrive byte by byte, with a limit that none of them is over. -/
theorem readAll_commandsBytes (hB : B.Inverse) (hfits : Fits (commandsBytes B commands)) (hn : commands.length < n) :
    readAll (readCommand B) n ⟨[], (commandsBytes B commands).length, 0⟩ (byteByByte (commandsBytes B commands)) =
      some (commands.map some, .endOfStream) := by
  refine readAll_commands hB (fun args hargs => ?_) ⟨rfl, calm_byteByByte _ _, bytes_byteByByte _, hfits⟩ hn
  exact (sublist_flatten_of_mem (mem_map_of_mem hargs)).length_le

/-- Commands are read back from their bytes, so these are the bytes of no others. -/
theorem commandsBytes_injective (hB : B.Inverse) (hfits : Fits (commandsBytes B commands))
    (h : commandsBytes B commands = commandsBytes B commands') : commands = commands' := by
  have hread := readAll_commandsBytes hB hfits (lt_succ_of_le (Nat.le_max_left _ commands'.length))
  rw [h] at hfits hread
  rw [readAll_commandsBytes hB hfits (lt_succ_of_le (Nat.le_max_right _ _))] at hread
  exact (map_injective_iff.mpr (Option.some_injective _) (Prod.mk.inj (Option.some.inj hread)).1).symm

/-- **Commands cannot be injected.** The bytes of any commands, with any byte strings as arguments, arriving
in any segmentation, are read back as exactly these commands, and then the end of the stream; and they are
the bytes of no other commands. -/
theorem commands_not_injected (B : Builtins) (hB : B.Inverse) (commands : List (List (List UInt8)))
    (maxLen timeoutNs : ℕ) (hlen : ∀ args ∈ commands, (commandBytes (B := B) args).length ≤ maxLen) (s : Stream)
    (hcalm : Calm timeoutNs s) (hbytes : bytes s = (commands.map (commandBytes (B := B))).flatten)
    (hfits : Fits (bytes s)) : (∀ n, commands.length < n → readAll (readCommand B) n ⟨[], maxLen, timeoutNs⟩ s =
      some (commands.map some, .endOfStream)) ∧
    ∀ commands', (commands'.map (commandBytes (B := B))).flatten = bytes s → commands' = commands := by
  have hfits' : Fits (commandsBytes B commands) := by rwa [hbytes] at hfits
  refine ⟨fun n hn => readAll_commands hB hlen ⟨rfl, hcalm, hbytes, hfits'⟩ hn, fun commands' h => ?_⟩
  exact (commandsBytes_injective hB hfits' (hbytes.symm.trans h.symm)).symm

/-- A command with an argument that looks like a command, and one without arguments. -/
theorem commands_not_injected_lookalike : readAll (readCommand integersOnly) 3 ⟨[], 100, 0⟩
      (byteByByte (commandsBytes integersOnly [[[71], [42, 48, 13, 10]], []])) =
        some ([some [[71], [42, 48, 13, 10]], some []], .endOfStream) := by
  refine (commands_not_injected integersOnly integersOnly_inverse [[[71], [42, 48, 13, 10]], []] 100 0 ?_
    _ (calm_byteByByte _ _) (bytes_byteByByte _) ?_).1 3 (by decide)
  · decide
  · rw [bytes_byteByByte]
    decide

end RocNet.Resp
