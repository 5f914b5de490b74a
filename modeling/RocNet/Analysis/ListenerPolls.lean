import RocNet.Analysis.ListenerLoad

/-!
# Accepting in a `Select`, and waiting for a connection

`try_accept!` runs the loop of `accept!`, but gives up where that waits for a slot, a connection or file descriptors.
-/

namespace RocNet.Listener

open Sched (TaskId)
open Transition State
open Resource (Heap)
open List Option

variable {S capacity i : ℕ} {s s' m p : State} {t : TaskId} {path : Path} {late ok : Bool} {x : Place} {o : Outcome}
  {y : Answer} {xs : List Answer} {ls : List Label} {r : Report}

/-! ## A call by itself -/

/-- The steps of a call from its first `accept` on, if it does not have to wait: `accept` gives these answers, and a
connection is set up if `ok`. -/
def attempts (t : TaskId) (ok : Bool) (path : Path) : List Answer → List Label
  | [] => []
  | .stream last :: _ => [.take t (.stream last), .deliver t ok]
  | .error .interrupted :: xs =>
    .take t (.error .interrupted) ::
      if path = .accept then attempts t ok path xs else .next t :: .next t :: .next t :: attempts t ok path xs
  | .error .connectionAborted :: xs =>
    .take t (.error .connectionAborted) :: .next t :: .next t :: .next t :: attempts t ok path xs
  | .error e :: _ => [.take t (.error e), .next t, .next t]

/-- The answer that decides a call: the first that does not make it try again. -/
def deciding (xs : List Answer) : Option Answer :=
  xs.find? fun y => y ≠ .error .interrupted ∧ y ≠ .error .connectionAborted

/-- A call that begins with these steps in state `s` returns `o`, without others taking steps: at once, or after
`accept` has given these answers. -/
def Returns (S capacity : ℕ) (s : State) (t : TaskId) (ok : Bool) (path : Path) (begins : List Label)
    (xs : Option (List Answer)) (o : Outcome) : Prop :=
  ∃ s' r, run (system S capacity) s (begins ++ xs.elim [] fun xs => .next t :: attempts t ok path xs) = some s' ∧
    s'.ops t = .none ∧ s'.reports = s.reports ++ [r] ∧ r.outcome = o

@[simps!] def State.at (m : State) (t : TaskId) (path : Path) (i : ℕ) (late : Bool) (x : Place) : State :=
  m.setOp t (.run ⟨path, i, late⟩ x)

@[simp] lemma at_setOp (x' : Place) :
    (m.at t path i late x).setOp t (.run ⟨path, i, late⟩ x') = m.at t path i late x' := by
  simp [State.at, State.setOp]

@[simp] lemma at_setSock (z : Sockets.State) :
    (m.at t path i late x).setSock z = (m.setSock z).at t path i late x := rfl

@[simp] lemma at_finish (old : Bool) : (m.at t path i late x).finish t ⟨path, i, late⟩ o old =
    m.finish t ⟨.accept, i, late⟩ o old := by
  simp [State.at, State.setOp, State.finish]

@[simp] lemma at_deliver : (m.at t path i late x).deliver t ⟨path, i, late⟩ = m.deliver t ⟨.accept, i, late⟩ := by
  simp [State.at, State.setOp, State.deliver]

lemma run_cons (hl : l = .next t ∨ (∃ y, l = .take t y) ∨ ∃ ok, l = .deliver t ok) :
    run (system S capacity) s (l :: ls) =
      if (s.sock.on t).isSome then (stepTask S s t l).bind fun p => run (system S capacity) p ls else none := by
  rcases hl with rfl | ⟨y, rfl⟩ | ⟨ok, rfl⟩
  all_goals
    simp only [run, system, step, Label.task]
    split <;> rfl

lemma run_nil : run (system S capacity) s [] = some s := rfl

lemma run_next : run (system S capacity) (m.at t path i late x) (.next t :: ls) =
    if (m.sock.on t).isSome then (next (m.at t path i late x) t ⟨path, i, late⟩ x).bind fun p =>
      run (system S capacity) p ls else none := by
  rw [run_cons (.inl rfl)]
  simp [stepTask]

lemma run_take : run (system S capacity) (m.at t path i late .trying) (.take t y :: ls) =
    if (m.sock.on t).isSome then (take S (m.at t path i late .trying) t ⟨path, i, late⟩ y).bind fun p =>
      run (system S capacity) p ls else none := by
  rw [run_cons (.inr (.inl ⟨y, rfl⟩))]
  simp [stepTask]

lemma run_stream : run (system S capacity) (m.at t path i late .trying)
      [.take t (.stream last), .deliver t ok] =
    if (m.sock.on t).isSome ∧ m.replaced = false ∧ m.sock.ready S false = true then
      (Sockets.step m.sock (.attempt t S false last)).bind fun z =>
        if (z.on t).isSome then some (if ok then (m.setSock z).deliver t ⟨.accept, i, late⟩
          else (m.setSock z).finish t ⟨.accept, i, late⟩ (.failed .other) true) else none
    else none := by
  rw [run_take]
  by_cases hon : (m.sock.on t).isSome = true
  · by_cases hready : m.replaced = false ∧ m.sock.ready S false = true
    · simp only [hon, hready, take, at_sock, at_replaced, and_self, if_true, bind_map]
      congr 1
      funext z
      simp only [Function.comp_apply, at_setSock, at_setOp]
      rw [run_cons (.inr (.inr ⟨ok, rfl⟩))]
      simp [stepTask, run]
    · simp [hon, hready, take]
  · simp [hon]

variable {e : IoErr} {old : Bool} {ys : Option (List Answer)}

lemma run_again (hopen : m.closed = false)
    (he : e = .interrupted ∨ e = .connectionAborted) :
    run (system S capacity) (m.at t path i late (.settling e old)) (.next t :: .next t :: .next t :: ls) =
      if (m.sock.on t).isSome ∧ m.closing = none then run (system S capacity) (m.at t path i late .trying) ls
      else none := by
  rw [run_next]
  by_cases hon : (m.sock.on t).isSome = true
  · by_cases hnone : m.closing = none
    · rcases he with rfl | rfl <;> simp [next, afterError, run_next, hon, hnone, hopen]
    · simp [next, hnone]
  · simp [hon]

lemma run_end (hopen : m.closed = false) :
    run (system S capacity) (m.at t path i late (.settling e old)) [.next t, .next t] =
      if (m.sock.on t).isSome ∧ m.closing = none then
        some (afterError (m.at t path i late (.settled e old)) t ⟨path, i, late⟩ e old) else none := by
  rw [run_next]
  by_cases hon : (m.sock.on t).isSome = true
  · by_cases hnone : m.closing = none
    · simp [next, run_next, run_nil, hon, hnone, hopen]
    · simp [next, hnone]
  · simp [hon]

/-- With the same answers, `accept!` returns what the poll does, unless that found nothing, or ran out of file
descriptors, on which `accept!` does not return. -/
theorem attempts_follow (hopen : m.closed = false)
    (hrun : run (system S capacity) (m.at t .tryAccept i late .trying) (attempts t ok .tryAccept xs) = some s')
    (hdone : s'.ops t = .none) (hreports : s'.reports = m.reports ++ [r]) : r.outcome = .notReady ∨
      deciding xs = some (.error .outOfFds) ∧ (∀ p, run (system S capacity) (m.at t .accept i late .trying)
        (attempts t ok .accept xs) = some p → p.ops t ≠ .none) ∨ deciding xs ≠ some (.error .outOfFds) ∧
        run (system S capacity) (m.at t .accept i late .trying) (attempts t ok .accept xs) = some s' := by
  induction xs with
  | nil =>
    cases hrun
    simp at hdone
  | cons y xs ih =>
    cases y with
    | stream last =>
      rw [attempts, run_stream] at hrun ⊢
      exact .inr (.inr ⟨by simp [deciding], hrun⟩)
    | error e =>
      cases e with
      | interrupted =>
        simp only [attempts, reduceCtorEq, if_false, run_take, take, at_replaced, at_setOp,
          ite_none_right_eq_some, bind_eq_some_iff, ite_none_left_eq_some] at hrun
        obtain ⟨hon, m', ⟨hreplaced, hm'⟩, hrest⟩ := hrun
        cases hm'
        rw [run_again hopen (.inl rfl), ite_none_right_eq_some] at hrest
        simpa [attempts, deciding, run_take, take, hon, hreplaced] using ih hrest.2
      | connectionAborted =>
        simp only [attempts, run_take, take, at_setOp, bind_some] at hrun
        rw [run_again hopen (.inr rfl), ite_none_right_eq_some, ite_none_right_eq_some] at hrun
        simpa [attempts, deciding, run_take, take, run_again hopen (.inr rfl), hrun.1, hrun.2.1] using ih hrun.2.2
      | wouldBlock =>
        simp only [attempts, run_take, take, reduceCtorEq, if_false, at_setSock, at_setOp,
          ite_none_right_eq_some, bind_eq_some_iff, map_eq_some_iff] at hrun
        obtain ⟨-, m', ⟨-, z, -, rfl⟩, hrest⟩ := hrun
        rw [run_end (m := m.setSock z) hopen, ite_none_right_eq_some] at hrest
        obtain ⟨-, heq⟩ := hrest
        cases heq
        obtain rfl := singleton_inj.mp (append_cancel_left hreports)
        exact .inl rfl
      | outOfFds =>
        simp only [attempts, run_take, take, at_setOp, bind_some, run_end hopen, ite_none_right_eq_some] at hrun ⊢
        refine .inr (.inl ⟨by simp [deciding], ?_⟩)
        rintro p ⟨-, -, heq⟩
        cases heq
        simp [afterError]
      | other =>
        simp only [attempts, run_take, take, at_setOp, bind_some, run_end hopen, afterError, at_finish] at hrun ⊢
        exact .inr (.inr ⟨by simp [deciding], hrun⟩)

/-! ## The two calls -/

lemma attempts_done (hop : s.ops t = .none)
    (hrun : run (system S capacity) s (attempts t ok path xs) = some s') : xs = [] := by
  cases xs with
  | nil => rfl
  | cons y xs =>
    obtain ⟨ls, hls⟩ : ∃ ls, attempts t ok path (y :: xs) = .take t y :: ls := by
      cases y with
      | stream last => exact ⟨_, rfl⟩
      | error e => cases e <;> exact ⟨_, rfl⟩
    rw [hls, run_cons (.inr (.inl ⟨y, rfl⟩))] at hrun
    simp [stepTask, hop] at hrun

lemma returns_iff
    (hbegins : ∀ ls, run (system S capacity) s (begins ++ ls) = run (system S capacity) (m.at t path i late .top) ls)
    (hsame : m.reports = s.reports) :
    Returns S capacity s t ok path begins ys o ↔ ∃ xs s' r, ys = some xs ∧ (m.sock.on t).isSome ∧
      run (system S capacity) (if m.closed then m.finish t ⟨.accept, i, late⟩ .notConnected false
        else m.at t path i late .trying) (attempts t ok path xs) = some s' ∧
      s'.ops t = .none ∧ s'.reports = m.reports ++ [r] ∧ r.outcome = o := by
  simp only [Returns, hbegins, hsame]
  cases ys with
  | none => simp [run_nil]
  | some xs => cases hclosed : m.closed <;> simp [run_next, next, hclosed, and_assoc]

lemma not_returns_of_full (hon : (s.sock.on t).isSome) (hop : s.ops t = .none)
    (hcode : s.sock.code t = .free) (hparked : s.heap.parked t = none) (hfree : s.heap.free = []) :
    ¬ Returns S capacity s t ok .accept [.accept t, .enter t] ys o := by
  rintro ⟨s', r, hrun, hdone, -⟩
  cases ys with
  | none =>
    simp [run, system, step, Label.task, stepTask, hon, hop, hcode, hparked, Heap.reservePass, Heap.tryReserve,
      hfree, State.reserved] at hrun
    simp [← hrun] at hdone
  | some xs =>
    simp [run, system, step, Label.task, stepTask, hon, hop, hcode, hparked, Heap.reservePass, Heap.tryReserve,
      hfree, State.reserved] at hrun

/-- **The poll of an `on_accept` arm.** What it reports, if not that nothing is there, is what `accept!` would have
returned in the same state without waiting exactly if a slot is free and `accept` does not fail, in the end, for want of
file descriptors. -/
theorem polled_accept_iff {ys : Option (List Answer)} (hs : Transition.Reachable (system S capacity) s)
    (h : Returns S capacity s t ok .tryAccept [.tryAccept t] ys o) (ho : o ≠ .notReady) :
    Returns S capacity s t ok .accept [.accept t, .enter t] ys o ↔
      s.heap.free ≠ [] ∧ ys.bind deciding ≠ some (.error .outOfFds) := by
  have hidle : (s.sock.on t).isSome ∧ s.ops t = .none ∧ s.sock.code t = .free := by
    obtain ⟨s', r, hrun, -⟩ := h
    obtain ⟨p, hp, -⟩ := bind_eq_some_iff.mp hrun
    have hstep : step S s (.tryAccept t) = some p := hp
    simp only [step, Label.task, stepTask, ite_none_right_eq_some] at hstep
    exact ⟨hstep.1, hstep.2.1⟩
  obtain ⟨hon, hop, hcode⟩ := hidle
  have hparked : s.heap.parked t = none := by
    by_contra hne
    obtain ⟨a, ha⟩ := parks_of_reachable hs t hne
    rw [hop] at ha
    cases ha
  cases hfree : s.heap.free with
  | nil =>
    exact iff_of_false (not_returns_of_full hon hop hcode hparked hfree) fun hno => hno.1 rfl
  | cons j rest =>
    have hpoll : ∀ ls, run (system S capacity) s ([.tryAccept t] ++ ls) = run (system S capacity)
        ((s.setHeap (s.heap.setFree rest)).at t .tryAccept j s.shut .top) ls := by
      simp [run, system, step, Label.task, stepTask, hon, hop, hcode, Heap.tryReserve, hfree, State.at]
    have haccept : ∀ ls, run (system S capacity) s ([.accept t, .enter t] ++ ls) = run (system S capacity)
        ((s.setHeap (s.heap.setFree rest)).at t .accept j s.shut .top) ls := by
      simp [run, system, step, Label.task, stepTask, hon, hop, hcode, hparked, Heap.reservePass, Heap.tryReserve,
        hfree, State.reserved, granted, State.at, State.setOp, State.setHeap]
    rw [returns_iff hpoll rfl] at h
    rw [returns_iff haccept rfl]
    obtain ⟨xs, s', r, rfl, hon', hrun, hdone, hreports, rfl⟩ := h
    by_cases hclosed : (s.setHeap (s.heap.setFree rest)).closed = true
    · -- both find the listener closed
      rw [if_pos hclosed] at hrun
      obtain rfl := attempts_done (by simp) hrun
      cases hrun
      obtain rfl := singleton_inj.mp (append_cancel_left hreports)
      refine ⟨fun _ => ⟨by simp, by simp [deciding]⟩, fun _ => ⟨[], _, _, rfl, hon', ?_, hdone, rfl, rfl⟩⟩
      rw [if_pos hclosed]
      rfl
    · simp only [if_neg hclosed] at hrun ⊢
      obtain hout | ⟨hout, hnever⟩ | ⟨hout, hrun'⟩ :=
        attempts_follow (Bool.eq_false_iff.mpr hclosed) hrun hdone hreports
      · exact absurd hout ho
      · refine ⟨?_, fun hboth => absurd hout hboth.2⟩
        rintro ⟨xs', s'', -, heq, -, hrun', hdone', -⟩
        cases heq
        exact absurd hdone' (hnever _ hrun')
      · exact ⟨fun _ => ⟨by simp, hout⟩, fun _ => ⟨xs, s', r, rfl, hon', hrun', hdone, hreports, rfl⟩⟩

/-- Another task has the only slot, and the arm wins though no connection is waiting and the listener is open, where
`accept!` would wait for a slot. -/
theorem poll_wins_when_full : ∃ s, Transition.Reachable (system 5 1) s ∧ s.closed = false ∧
    s.sock.ready 5 false = false ∧ Returns 5 1 s 0 true .tryAccept [.tryAccept 0] none .tooManySockets ∧
    ¬ Returns 5 1 s 0 true .accept [.accept 0, .enter 0] none .tooManySockets := by
  have hrun : (run (system 5 1) (initial 1) [.sock (.resume 0 0), .grab]).isSome := by decide
  exact ⟨_, Reachable.of_run (.start rfl) (some_get hrun).symm, rfl, rfl,
    ⟨_, _, rfl, rfl, rfl, rfl⟩, not_returns_of_full rfl rfl rfl rfl rfl⟩

/-- A connection is waiting, and the slot is free. -/
theorem polled_accept_iff_waiting : ∃ s, Returns 5 1 s 0 true .accept [.accept 0, .enter 0]
    (some [.stream true]) .accepted := by
  have hrun : (run (system 5 1) (initial 1) [.sock (.resume 0 0), .sock (.rise 5 false)]).isSome := by
    decide
  have hreach := Reachable.of_run (.start rfl) (some_get hrun).symm
  refine ⟨_, (polled_accept_iff hreach (o := .accepted) ?_ (by decide)).mpr ⟨?_, by decide⟩⟩
  · exact ⟨_, _, rfl, rfl, rfl, rfl⟩
  · exact cons_ne_nil 0 []

end RocNet.Listener
