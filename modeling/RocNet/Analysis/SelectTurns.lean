import Mathlib.Data.List.Nodup
import Mathlib.Data.List.Perm.Subperm
import Mathlib.Data.Nat.ModEq
import RocNet.Model.SelectLoop

/-!
# Which arm of a `Select` wins, and the deadlines of its streams

The arm that wins is the one that the shared counter points at, so whether the arms take turns depends on how often
other tasks have moved the counter in between. One call of `wait!` may call `wait_any` again and again, and each time
the read timeout of a stream is counted from then on.
-/

namespace RocNet.SelectLoop

open List Option Transition

variable {s s' : State} {l : Label} {t n : ℕ}

/-! ## Arms that win once -/

/-- Among `n` entries, each of the values below `n` is there once exactly if none is there twice. -/
theorem count_eq_one_iff_nodup {xs : List ℕ} (hlen : xs.length = n) (hlt : ∀ x ∈ xs, x < n) :
    (∀ i < n, xs.count i = 1) ↔ xs.Nodup := by
  constructor
  · intro hcount
    rw [nodup_iff_count_le_one]
    intro i
    by_cases hi : i ∈ xs
    · exact (hcount i (hlt i hi)).le
    · simp [count_eq_zero_of_not_mem hi]
  · intro hnodup i hi
    have hsubset : xs ⊆ range n := fun x hx => mem_range.mpr (hlt x hx)
    have hperm := (subperm_of_subset hnodup hsubset).perm_of_length_le (by rw [length_range, hlen])
    exact count_eq_one_of_mem hnodup (hperm.mem_iff.mpr (mem_range.mpr hi))

/-! ## One task's calls -/

/-- The arms that won the calls of a task, and at the end the one that its call under way starts with. -/
def State.wins (s : State) (t : ℕ) : List ℕ :=
  (s.results t).filterMap (fun r => match r with
    | .won i => some i
    | _ => none) ++ ((s.calls t).map Call.first).toList

/-- The calls of task `t` are for `n` arms each, and whatever it polls is ready. -/
def AllReady (t n : ℕ) : State → Label → Prop
  | _, .wait u arms _ => u = t → arms.length = n
  | _, .act u x => u = t → x = .poll true
  | _, .tick _ => True

/-- The arm that a call starts with before which `d` turns were drawn: the counter has 64 bits. -/
def pointed (n d : ℕ) : ℕ := d % 18446744073709551616 % n

/-- The task has polled nothing in its call under way; its calls were won by the arms that the counter pointed at. -/
structure Winning (t n : ℕ) (s : State) : Prop where
  call : ∀ c, s.calls t = some c → c.phase = .polling 0 ∧ c.arms.length = n ∧ c.first < n
  turn : s.turn = .ofNat s.drawn
  wins : s.wins t = (s.starts t).map (pointed n)
  past : ∀ d ∈ s.starts t, d < s.drawn
  later : (s.starts t).Pairwise (· < ·)

/-- Other tasks may draw turns. -/
theorem Winning.congr (h : Winning t n s) (hcalls : s'.calls t = s.calls t) (hresults : s'.results t = s.results t)
    (hstarts : s'.starts t = s.starts t) (hturn : s'.turn = .ofNat s'.drawn) (hdrawn : s.drawn ≤ s'.drawn) :
    Winning t n s' := by
  have hwins : s'.wins t = s.wins t := by
    unfold State.wins
    rw [hcalls, hresults]
  refine ⟨hcalls ▸ h.call, hturn, by rw [hwins, hstarts, h.wins], fun d hd => ?_, hstarts ▸ h.later⟩
  exact (h.past d (hstarts ▸ hd)).trans_le hdrawn

/-- A call draws a turn. -/
theorem turn_start (h : s.turn = .ofNat s.drawn) (u : ℕ) (arms : List Source) (timeout : Option ℕ) :
    (s.start u arms timeout).turn = .ofNat (s.start u arms timeout).drawn := by
  simp [h]

/-- A call begins with the arm that the counter points at, and that one wins. -/
theorem Winning.step (hn : 0 < n) (h : Winning t n s) (hready : AllReady t n s l)
    (hstep : system.step s l = some s') : Winning t n s' := by
  cases step_cases hstep with
  | tick d => exact h.congr rfl rfl rfl h.turn (Nat.le_refl _)
  | @start u arms timeout hnone =>
    have hturn := turn_start h.turn u arms timeout
    obtain rfl | htu := eq_or_ne t u
    · have harms : arms.length = n := hready rfl
      have hfirst : s.turn.toNat % n = pointed n s.drawn := by
        rw [h.turn, UInt64.toNat_ofNat']
        rfl
      have hlt : pointed n s.drawn < n := Nat.mod_lt _ hn
      refine ⟨fun c hc => ?_, hturn, ?_, fun d hd => ?_, ?_⟩
      · simp only [State.start_calls, Function.update_self] at hc
        cases hc
        simpa [harms, Nat.pos_iff_ne_zero.mp hn, hfirst] using hlt
      · have hwins := h.wins
        simp only [State.wins, hnone, Option.map_none, toList_none, append_nil] at hwins
        simp [State.wins, harms, Nat.pos_iff_ne_zero.mp hn, hfirst, hwins]
      · simp only [State.start_starts, Function.update_self, mem_append, mem_singleton] at hd
        rcases hd with hd | rfl
        · exact Nat.lt_succ_of_lt (h.past d hd)
        · exact Nat.lt_succ_self _
      · simp only [State.start_starts, Function.update_self]
        exact pairwise_append.mpr ⟨h.later, pairwise_singleton _ _, by simpa using h.past⟩
    · exact h.congr (by simp [htu]) rfl (by simp [htu]) hturn (Nat.le_succ _)
  | @goOn u x c c' hcall hact =>
    obtain rfl | htu := eq_or_ne t u
    · obtain rfl : x = .poll true := hready rfl
      obtain ⟨hphase, harms, -⟩ := h.call c hcall
      simp [Call.act, hphase, harms, hn] at hact
    · exact h.congr (by simp [htu]) rfl rfl h.turn (Nat.le_refl _)
  | @returned u x c r hcall hact =>
    obtain rfl | htu := eq_or_ne t u
    · obtain rfl : x = .poll true := hready rfl
      obtain ⟨hphase, harms, hfirst⟩ := h.call c hcall
      obtain rfl : Result.won c.first = r := by
        simpa [Call.act, hphase, harms, hn, Nat.mod_eq_of_lt hfirst] using hact
      have hwins : (s.returns t (.won c.first)).wins t = s.wins t := by simp [State.wins, hcall]
      exact ⟨by simp, h.turn, hwins.trans h.wins, h.past, h.later⟩
    · exact h.congr (by simp [htu]) (by simp [htu]) rfl h.turn (Nat.le_refl _)

lemma winning_of_reachable (hn : 0 < n) (h : ReachableBy system (AllReady t n) s) : Winning t n s := by
  refine h.invariant ?_ fun s l s' hready hwinning hstep => hwinning.step hn hready hstep
  rintro _ rfl
  exact ⟨nofun, rfl, rfl, nofun, Pairwise.nil⟩

/-- Two turns point at the same arm if a multiple of `n` turns was drawn in between, where the counter has not wrapped
or wraps at a multiple of `n`. -/
theorem pointed_eq_iff {drawn d e : ℕ} (hwrap : drawn ≤ 18446744073709551616 ∨ n ∣ 18446744073709551616)
    (hde : d < e) (he : e < drawn) : pointed n d = pointed n e ↔ n ∣ e - d := by
  have hpointed : ∀ x < drawn, pointed n x = x % n := by
    intro x hx
    rcases hwrap with hsmall | hdvd
    · rw [pointed, Nat.mod_eq_of_lt (hx.trans_le hsmall)]
    · exact Nat.mod_mod_of_dvd x hdvd
  rw [hpointed d (hde.trans he), hpointed e he]
  exact Nat.modEq_iff_dvd' hde.le

/-- **When the arms of a `Select` take turns.** If all arms are ready whenever a task calls `wait!`, each of its `n`
arms wins once in `n` consecutive calls exactly if the shared counter points at different arms before each of them.
Where the counter has not wrapped, or wraps at a multiple of `n`, this is so exactly if no two of the calls are a
multiple of `n` turns apart, counting the turns that other tasks draw in between. -/
theorem arms_take_turns_iff (hn : 0 < n) (h : Transition.ReachableBy system (AllReady t n) s) (k : ℕ)
    (hk : k + n ≤ (s.wins t).length) :
    ((∀ i < n, (((s.wins t).drop k).take n).count i = 1) ↔
      (((s.starts t).drop k).take n).Pairwise fun d e => pointed n d ≠ pointed n e) ∧
    (s.drawn ≤ 18446744073709551616 ∨ n ∣ 18446744073709551616 →
      ((∀ i < n, (((s.wins t).drop k).take n).count i = 1) ↔
        (((s.starts t).drop k).take n).Pairwise fun d e => ¬ n ∣ e - d)) := by
  have hwinning := winning_of_reachable hn h
  have hlt : ∀ x ∈ ((s.wins t).drop k).take n, x < n := by
    intro x hx
    have hmem := mem_of_mem_drop (mem_of_mem_take hx)
    rw [hwinning.wins] at hmem
    obtain ⟨d, -, rfl⟩ := mem_map.mp hmem
    exact Nat.mod_lt _ hn
  have hlen : (((s.wins t).drop k).take n).length = n := by
    rw [length_take, length_drop]
    omega
  have hfirst : (∀ i < n, (((s.wins t).drop k).take n).count i = 1) ↔
      (((s.starts t).drop k).take n).Pairwise fun d e => pointed n d ≠ pointed n e := by
    rw [count_eq_one_iff_nodup hlen hlt, hwinning.wins, ← map_drop, ← map_take, Nodup, pairwise_map]
  refine ⟨hfirst, fun hwrap => hfirst.trans ?_⟩
  -- the turns drawn before these calls are fewer than all, and more and more
  have hsub : ((s.starts t).drop k).take n <+ s.starts t := (take_sublist _ _).trans (drop_sublist _ _)
  have hlater := hwinning.later.sublist hsub
  have hpointed : ∀ d, ∀ e ∈ ((s.starts t).drop k).take n, d < e → (pointed n d ≠ pointed n e ↔ ¬ n ∣ e - d) :=
    fun d e he hde => (pointed_eq_iff hwrap hde (hwinning.past e (hsub.subset he))).not
  constructor
  · exact fun hdiffer => (hlater.and hdiffer).imp_of_mem fun _ he hde => (hpointed _ _ he hde.1).mp hde.2
  · exact fun hapart => (hlater.and hapart).imp_of_mem fun _ he hde => (hpointed _ _ he hde.1).mpr hde.2

/-- Two calls of task 0 on two arms, with as many calls of task 1 in between. -/
def callsOf (others : ℕ) : List Label :=
  [.wait 0 [.other, .other] none, .act 0 (.poll true)] ++
    (List.replicate others [.wait 1 [.other] none, .act 1 (.poll true)]).flatten ++
    [.wait 0 [.other, .other] none, .act 0 (.poll true)]

instance (s : State) (l : Label) : Decidable (AllReady t n s l) :=
  match l with
  | .wait u arms _ => inferInstanceAs (Decidable (u = t → arms.length = n))
  | .act u x => inferInstanceAs (Decidable (u = t → x = .poll true))
  | .tick _ => inferInstanceAs (Decidable True)

/-- One call of another task in between, and the same arm wins twice. -/
theorem arm_wins_twice : ∃ s, Transition.ReachableBy system (AllReady 0 2) s ∧ s.results 0 = [.won 0, .won 0] := by
  have hrun : (runBy system (AllReady 0 2) initial (callsOf 1)).isSome := by decide
  exact ⟨_, .of_runBy (.start rfl) (some_get hrun).symm, rfl⟩

/-- With two calls in between, both arms win once. -/
theorem arms_take_turns_iff_twoCalls : ∃ s : State, s.results 0 = [.won 0, .won 1] ∧
    ∀ i < 2, (((s.wins 0).drop 0).take 2).count i = 1 := by
  have hrun : (runBy system (AllReady 0 2) initial (callsOf 2)).isSome := by decide
  have hreach := ReachableBy.of_runBy (.start rfl) (some_get hrun).symm
  have hdrawn : 4 ≤ 18446744073709551616 := by decide
  have hapart : [0, 3].Pairwise fun d e => ¬ 2 ∣ e - d := by decide
  exact ⟨_, rfl, ((arms_take_turns_iff (by decide) hreach 0 (Nat.le_refl 2)).2 (.inl hdrawn)).mpr hapart⟩

open Function

variable {i now : ℕ} {c c' : Call} {a : Action} {limit : Option ℕ}

/-! ## When the arms are registered -/

/-- Every arm that `wait_any` has registered was first registered then or before. -/
structure Call.Seen (c : Call) (now : ℕ) : Prop where
  length : c.round.length ≤ c.seen.length
  first : ∀ (i f : ℕ) (x : Look), c.seen[i]? = some f → c.round[i]? = some x → f ≤ x.at_
  past : ∀ f ∈ c.seen, f ≤ now
  whole : ∀ limit, c.phase = .waiting limit → c.arms.length ≤ c.round.length

namespace Call.Seen

lemma mono (h : c.Seen now) (hle : now ≤ now') : c.Seen now' :=
  { h with past := fun f hf => (h.past f hf).trans hle }

/-- The call goes on, with the same arms registered or none. -/
theorem goOn (h : c.Seen now) (hseen : c'.seen = c.seen) (hround : c'.round = c.round ∨ c'.round = [])
    (hwhole : ∀ limit, c'.phase = .waiting limit → c'.arms.length ≤ c'.round.length) : c'.Seen now := by
  refine ⟨?_, fun i f x hf hx => ?_, hseen ▸ h.past, hwhole⟩
  · rw [hseen]
    rcases hround with hround | hround
    · exact hround ▸ h.length
    · simp [hround]
  · rcases hround with hround | hround
    · exact h.first i f x (hseen ▸ hf) (hround ▸ hx)
    · simp [hround] at hx

lemma watch (h : c.Seen now) (handshaken : Bool) (hround : c'.round = c.round ++ [⟨now, handshaken⟩])
    (hseen : c'.seen = if c.round.length < c.seen.length then c.seen else c.seen ++ [now])
    (hwhole : ∀ limit, c'.phase ≠ .waiting limit) : c'.Seen now := by
  have hpast : ∀ f ∈ c'.seen, f ≤ now := by
    intro f hf
    rw [hseen] at hf
    split at hf
    · exact h.past f hf
    · rcases mem_append.mp hf with hf | hf
      · exact h.past f hf
      · exact (mem_singleton.mp hf).le
  refine ⟨?_, fun i f x hf hx => ?_, hpast, fun limit hlimit => absurd hlimit (hwhole limit)⟩
  · have hlength := h.length
    rw [hround, hseen, length_append, length_singleton]
    split
    · omega
    · rw [length_append, length_singleton]
      omega
  · rw [hround] at hx
    by_cases hi : i < c.round.length
    · rw [getElem?_append_left hi] at hx
      refine h.first i f x ?_ hx
      rw [hseen] at hf
      split at hf
      · exact hf
      · rwa [getElem?_append_left (hi.trans_le h.length)] at hf
    · rw [getElem?_append_right (not_lt.mp hi), getElem?_singleton] at hx
      obtain ⟨-, rfl⟩ := of_guard hx
      exact hpast f (mem_of_getElem? hf)

lemma act (h : c.Seen now) (hact : c.act now a = some (.inl c')) : c'.Seen now := by
  unfold Call.act at hact
  split at hact
  case h_5 =>
    split at hact
    · cases hact
      refine h.watch _ rfl rfl fun limit => ?_
      dsimp only
      split <;> exact nofun
    · cases hact
  case h_6 =>
    split at hact
    · cases hact
    · next hall =>
      cases hact
      exact h.goOn rfl (.inl rfl) fun _ _ => not_lt.mp hall
  -- the others register nothing, and do not lead to the wait
  all_goals
    repeat' split at hact
    all_goals
      cases hact
      try exact h.goOn rfl (by simp) nofun

end Call.Seen

lemma seen_of_reachable (h : Reachable system s) (hcall : s.calls t = some c) : c.Seen s.now := by
  refine Reachable.invariant (I := fun s => ∀ t c, s.calls t = some c → c.Seen s.now) ?_ ?_ h t c hcall
  · rintro _ rfl t c hcall
    cases hcall
  · intro s l s' ih hstep t c hcall
    cases step_cases hstep with
    | tick d => exact (ih t c hcall).mono (Nat.le_add_right _ _)
    | @start u arms timeout hnone =>
      obtain rfl | htu := eq_or_ne t u
      · simp only [State.start_calls, update_self] at hcall
        cases hcall
        exact ⟨Nat.le_refl 0, by simp, by simp, by simp⟩
      · exact ih t c (by simpa [htu] using hcall)
    | @goOn u x d d' hd hact =>
      obtain rfl | htu := eq_or_ne t u
      · simp only [State.setCall_calls, update_self] at hcall
        cases hcall
        exact (ih t d hd).act hact
      · exact ih t c (by simpa [htu] using hcall)
    | @returned u x d r hd hact =>
      obtain rfl | htu := eq_or_ne t u
      · simp at hcall
      · exact ih t c (by simpa [htu] using hcall)

/-! ## The deadline of a stream -/

lemma Call.waitUntil_le (limit : Option ℕ) (hx : c.arms[i]? = some x) (hy : c.round[i]? = some y)
    (hd : x.readWaitDeadline y.at_ y.handshaken = some d) : ∃ u, c.waitUntil limit = some u ∧ u ≤ d := by
  have hmem : (i, d) ∈ c.streamDeadlines := by
    refine mem_filterMap.mpr ⟨((x, y), i), ?_, by simp [hd]⟩
    rw [mem_zipIdx_iff_getElem?]
    simp [getElem?_zip_eq_some, hx, hy]
  cases hfirst : c.firstDeadline with
  | none =>
    rw [Call.firstDeadline, argmin_eq_none] at hfirst
    simp [hfirst] at hmem
  | some m =>
    have hle : m.2 ≤ d := le_of_mem_argmin hmem hfirst
    unfold Call.waitUntil
    rw [hfirst]
    cases limit with
    | none => exact ⟨m.2, rfl, hle⟩
    | some a => exact ⟨min a m.2, rfl, (Nat.min_le_right _ _).trans hle⟩

lemma readWaitDeadline_le_iff {readMs first : ℕ} (handshake : Option ℕ) {y : Look} (hms : readMs ≠ 0)
    (hfirst : first ≤ y.at_) : ∃ d, (Source.stream readMs handshake).readWaitDeadline y.at_ y.handshaken = some d ∧
      (d ≤ first + readMs * 1000000 ↔ y.at_ = first ∨
        ∃ h, handshake = some h ∧ y.handshaken = false ∧ h ≤ first + readMs * 1000000) := by
  simp only [Source.readWaitDeadline, deadlineAfter, if_neg hms]
  cases hhandshaken : y.handshaken with
  | true =>
    refine ⟨_, rfl, ?_⟩
    simp
    omega
  | false =>
    cases handshake with
    | none | some _ =>
      refine ⟨_, rfl, ?_⟩
      simp
      omega

/-- **The deadlines of streams.** When the host waits, each stream with a read timeout has a deadline, and the wait
ends by then. It is no later than the timeout allows from the first registration of the arm in this call of `wait!`
exactly if this wait registered the arm at the same time (it is the call's first wait, or no time has passed since), or
the stream is in a TLS handshake that has to be done by then. -/
theorem stream_deadline_counted_iff (h : Transition.Reachable system s) (hcall : s.calls t = some c)
    (hphase : c.phase = .waiting limit) {readMs : ℕ} {handshake : Option ℕ}
    (harm : c.arms[i]? = some (.stream readMs handshake)) (hms : readMs ≠ 0) :
    ∃ first y d u, c.seen[i]? = some first ∧ c.round[i]? = some y ∧
      (Source.stream readMs handshake).readWaitDeadline y.at_ y.handshaken = some d ∧
      c.waitUntil limit = some u ∧ u ≤ d ∧ (d ≤ first + readMs * 1000000 ↔ y.at_ = first ∨
        ∃ h, handshake = some h ∧ y.handshaken = false ∧ h ≤ first + readMs * 1000000) := by
  have hseen := seen_of_reachable h hcall
  obtain ⟨hi, -⟩ := List.getElem?_eq_some_iff.mp harm
  have hround : i < c.round.length := hi.trans_le (hseen.whole limit hphase)
  have hy := List.getElem?_eq_getElem hround
  have hf := getElem?_eq_getElem (hround.trans_le hseen.length)
  obtain ⟨d, hd, hiff⟩ := readWaitDeadline_le_iff handshake hms (hseen.first i _ _ hf hy)
  obtain ⟨u, hu, hle⟩ := Call.waitUntil_le limit harm hy hd
  exact ⟨_, _, d, u, hf, hy, hd, hu, hle, hiff⟩

/-- A stream that times out after a millisecond, and another source. -/
def twoArms : List Source := [.stream 1 none, .other]

/-- The labels of a wait that registers both arms. -/
def oneWait : List Action :=
  [.poll false, .poll false, .rest, .enter, .begin, .watch false true, .watch false true, .suspend]

/-- The task is woken for nothing after most of the millisecond, and waits again. -/
def wokenRun : List Label :=
  .wait 0 twoArms none :: oneWait.map (.act 0) ++ [.tick 900000, .act 0 .wake] ++ oneWait.map (.act 0)

/-- The deadline of the second wait is 900 microseconds later than that of the first. -/
theorem woken_deadline_moves : ∃ s c, Transition.Reachable system s ∧ s.calls 0 = some c ∧
    c.phase = .waiting none ∧ c.arms[0]? = some (.stream 1 none) ∧ c.seen[0]? = some 0 ∧
    c.waitUntil none = some 1900000 := by
  have hrun : (run system initial wokenRun).isSome := by decide
  exact ⟨_, _, Reachable.of_run (.start rfl) (some_get hrun).symm, rfl, rfl, rfl, rfl, rfl⟩

/-- The first wait ends after the millisecond. -/
theorem stream_deadline_counted_iff_oneWait : ∃ s c, Transition.Reachable system s ∧ s.calls 0 = some c ∧
    ∃ u d, c.waitUntil none = some u ∧ u ≤ d ∧ d ≤ 1000000 := by
  have hrun : (run system initial (.wait 0 twoArms none :: oneWait.map (.act 0))).isSome := by
    decide
  have hreach := Reachable.of_run (.start rfl) (some_get hrun).symm
  obtain ⟨first, y, d, u, hfirst, hy, -, hu, hle, hiff⟩ :=
    stream_deadline_counted_iff (t := 0) (i := 0) hreach rfl (rfl : _ = Phase.waiting none) rfl (by decide)
  cases hfirst
  cases hy
  exact ⟨_, _, hreach, rfl, u, d, hu, hle, hiff.mpr (.inl rfl)⟩

end RocNet.SelectLoop
