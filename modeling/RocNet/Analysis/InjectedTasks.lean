import RocNet.Analysis.IdleWorkers

/-!
# A task injected by a plain thread is attended to

A task in `INJECT` must not be left there while every worker sleeps. `notify_idle` wakes nobody while `SEARCHING` is
above zero, so this fails where the count does (`searching_leak_strands`, `failed_start_strands`).

In every run without those two (`Orderly`) somebody attends to a non-empty `INJECT`. The argument is about worker 0,
which always exists and whose bit `notify_idle` picks first.
-/

namespace RocNet.Idle

open Function List Option Transition

variable {s s' : State} {θ : Thread} {i : ℕ} {o : Op}

/-! ## Somebody attends to `INJECT` -/

/-- The points of `park` after the last look at `INJECT_LEN` before sleeping, and sleeping. -/
def Pc.asleep : Pc → Bool
  | .checkMain | .blocked => true
  | _ => false

/-- A started worker that is not asleep, or has a wake-up pending. -/
def Awake (s : State) (i : ℕ) : Prop :=
  s.pc i ≠ .off ∧ ((s.pc i).asleep = false ∨ s.pending i = true)

/-- The operations that are going to see to it that a worker looks at `INJECT`. -/
def Op.attends : Op → Bool
  | .pushStore | .loadSearching | .loadSleeping | .add _ | .storeNotified _ | .wake _
  | .startThread _ | .startSub _ => true
  | .clearBit i | .getSlot i => i == 0
  | _ => false

/-- A non-empty `INJECT` has a worker awake, or a call that is going to wake or start one. -/
def Attended (s : State) : Prop :=
  s.inject ≠ [] → (∃ i, Awake s i) ∨ ∃ θ, (s.op θ).attends = true

instance : Decidable (Awake s i) := inferInstanceAs (Decidable (_ ∧ _))

/-- Whoever makes `SEARCHING` positive is awake, or about to wake or start a worker. -/
theorem awake_or_attends_of_searching (hc : Counted s) (hf : Flagged s) (hpos : 0 < s.searching) :
    (∃ i, Awake s i) ∨ ∃ θ, (s.op θ).attends ∧ s.op θ ≠ .loadSearching := by
  obtain ⟨x, hx⟩ := Tally.exists_of_pos hc hpos
  cases x with
  | call θ =>
    refine .inr ⟨θ, ?_⟩
    have hraised : (s.op θ).raised := hx
    revert hraised
    cases s.op θ <;> simp [Op.raised, Op.attends]
  | flag i =>
    obtain ⟨hflag, hoff⟩ := hx
    cases hpend : s.pending i with
    | true => exact .inl ⟨i, hoff, .inr hpend⟩
    | false =>
      cases hasleep : (s.pc i).asleep with
      | false => exact .inl ⟨i, hoff, .inl hasleep⟩
      | true =>
        have hcom : (s.pc i).committed := by
          revert hasleep
          cases s.pc i <;> simp [Pc.asleep, Pc.committed]
        obtain ⟨θ, hθ⟩ := hf i hcom hflag hpend
        exact .inr ⟨θ, by simp [hθ, Op.attends]⟩
  | look i =>
    refine .inl ⟨i, ?_⟩
    have hlooks : (s.pc i).looks := hx
    unfold Awake
    revert hlooks
    cases s.pc i <;> simp [Pc.looks, Pc.asleep]

/-- Worker 0 is awake, or its bit is set, or somebody is going to wake it. -/
theorem zero_awake_or_announced (hs : Starts s) (ha : Announced s) :
    Awake s 0 ∨ s.sleeping 0 ∨ ∃ θ, (s.op θ).wakesZero := by
  cases hpend : s.pending 0 with
  | true => exact .inl ⟨hs.slots 0 hs.zero, .inr hpend⟩
  | false =>
    cases hasleep : (s.pc 0).asleep with
    | false => exact .inl ⟨hs.slots 0 hs.zero, .inl hasleep⟩
    | true =>
      refine .inr (ha ?_ hpend)
      revert hasleep
      cases s.pc 0 <;> simp [Pc.asleep, Pc.announced]

lemma Op.attends_of_wakesZero (h : o.wakesZero) : o.attends ∧ o ≠ .loadSleeping ∧ ∀ i, o ≠ .clearBit i := by
  revert h
  unfold Op.wakesZero
  split <;> simp [Op.attends]

lemma firstSleeping_eq_zero (hcount : 0 < s.count) (hbit : s.sleeping 0) : s.firstSleeping = some 0 := by
  obtain ⟨n, hn⟩ := Nat.exists_eq_succ_of_ne_zero hcount.ne'
  unfold State.firstSleeping
  rw [hn, range_succ_eq_map, List.find?_cons_of_pos hbit]

/-- **The rule for calls.** The worker or call that attends to `INJECT` still does, or another
one is found. -/
theorem Attended.of_op (h : Attended s) (hop : s'.op = update s.op θ o)
    (hinject : s'.inject ≠ [] → o.attends ∨ s.inject ≠ []) (hawake : ∀ i, Awake s i → Awake s' i)
    (hgo : s.inject ≠ [] → (s.op θ).attends → o.attends ∨ (∃ i, Awake s' i) ∨
      ∃ ψ, ψ ≠ θ ∧ (s.op ψ).attends) : Attended s' := by
  intro hne
  have hself : o.attends → ∃ ψ, (s'.op ψ).attends := fun ho => ⟨θ, by simpa [hop] using ho⟩
  have hother : ∀ ψ ≠ θ, (s.op ψ).attends → ∃ ψ, (s'.op ψ).attends :=
    fun ψ hψ ha => ⟨ψ, by simpa [hop, hψ] using ha⟩
  rcases hinject hne with ho | hold
  · exact .inr (hself ho)
  · rcases h hold with ⟨i, hi⟩ | ⟨ψ, hψ⟩
    · exact .inl ⟨i, hawake i hi⟩
    · obtain rfl | heq := eq_or_ne ψ θ
      · rcases hgo hold hψ with ho | ⟨i, hi⟩ | ⟨φ, hφ, ha⟩
        · exact .inr (hself ho)
        · exact .inl ⟨i, hi⟩
        · exact .inr (hother φ hφ ha)
      · exact .inr (hother ψ heq hψ)

/-- A failed thread start is taken off `SEARCHING` only while nobody may be relying on it. -/
def StartsSafely (s : State) (θ : Thread) : Prop :=
  ∀ i, s.op θ = .startSub i → s.inject = [] ∨ ∃ j, j < s.count ∧ Awake s j

section

variable (h : Attended s) (hs : Starts s) (hc : Counted s) (hf : Flagged s) (ha : Announced s) (hcount : 0 < s.count)

include h hs hc hf ha hcount

/-- The calls that only read give up only where somebody else attends. -/
theorem Attended.read (hop : s.op θ = o) (hread : Reads s o o') : Attended (s.setOp θ o') := by
  refine h.of_op rfl .inr (fun _ hi => hi) fun _ hatt => ?_
  have hzero := zero_awake_or_announced hs ha
  -- somebody who is going to wake worker 0 is not this thread, where it is now
  have hwaker : (∃ ψ, (s.op ψ).wakesZero) → o.wakesZero = false → ∃ ψ, ψ ≠ θ ∧ (s.op ψ).attends := by
    rintro ⟨ψ, hψ⟩ ho
    refine ⟨ψ, ?_, (Op.attends_of_wakesZero hψ).1⟩
    rintro rfl
    rw [hop, ho] at hψ
    cases hψ
  rw [hop] at hatt
  cases hread with
  | searching hpos =>
    rcases awake_or_attends_of_searching hc hf hpos with hawake | ⟨ψ, hψ, hne⟩
    · exact .inr (.inl hawake)
    · refine .inr (.inr ⟨ψ, ?_, hψ⟩)
      rintro rfl
      exact hne hop
  | sleeper hfirst =>
    rcases hzero with hawake | hbit | hw
    · exact .inr (.inl ⟨0, hawake⟩)
    · rw [firstSleeping_eq_zero hcount hbit] at hfirst
      cases hfirst
      exact .inl rfl
    · exact .inr (.inr (hwaker hw rfl))
  | awake hfirst =>
    rcases hzero with hawake | hbit | hw
    · exact .inr (.inl ⟨0, hawake⟩)
    · rw [firstSleeping_eq_zero hcount hbit] at hfirst
      cases hfirst
    · exact .inr (.inr (hwaker hw rfl))
  | @noSlot i hslot =>
    have hi : i = 0 := by simpa [Op.attends] using hatt
    rw [hi, hs.zero] at hslot
    cases hslot
  | notSearching | slot hslot | threadFailed => exact .inl rfl
  | push | share | taken | free | full | startFree hslot => cases hatt

lemma Attended.opStep (hsafe : StartsSafely s θ) (hstep : OpStep s θ s') : Attended s' := by
  have hops := hs.ops θ
  have hsame : ∀ i, Awake s i → Awake s i := fun _ hi => hi
  have hpending : ∀ {r : State} {j : ℕ}, r.pc = s.pc → r.pending = update s.pending j true →
      ∀ i, Awake s i → Awake r i := by
    intro r j hpc hpend i hi
    obtain rfl | hij := eq_or_ne i j
    · exact ⟨hpc ▸ hi.1, .inr (by simp [hpend])⟩
    · simpa [Awake, hpc, hpend, hij] using hi
  cases hstep with
  | read hop hread => exact h.read hs hc hf ha hcount hop hread
  | pushLock hop hlock =>
    exact h.of_op rfl (fun _ => .inl rfl) hsame fun _ _ => .inl rfl
  | pushStore hop | add hop | storeNotified hop => exact h.of_op rfl .inr hsame fun _ _ => .inl rfl
  | clearBit hop hset =>
    refine h.of_op rfl .inr hsame fun _ hatt => .inl ?_
    rw [hop] at hatt
    exact hatt
  | @clearedBit i hop hset =>
    refine h.of_op rfl .inr hsame fun _ hatt => .inr ?_
    have hi : i = 0 := by simpa [hop, Op.attends] using hatt
    rcases zero_awake_or_announced hs ha with hawake | hbit | ⟨ψ, hψ⟩
    · exact .inl ⟨0, hawake⟩
    · rw [← hi, hset] at hbit
      cases hbit
    · refine .inr ⟨ψ, ?_, (Op.attends_of_wakesZero hψ).1⟩
      rintro rfl
      exact (Op.attends_of_wakesZero hψ).2.2 i hop
  | @wake i hop =>
    rw [hop] at hops
    refine h.of_op rfl .inr (hpending rfl rfl) fun _ _ => .inr (.inl ⟨i, ?_⟩)
    exact ⟨hs.slots i hops, .inr (by simp)⟩
  | startLock hop hlock | startNotified hop | startAdd hop | startSet hop | finish hop =>
    exact h.of_op rfl .inr hsame fun _ hatt => by simp [hop, Op.attends] at hatt
  | startAbandon hop =>
    refine h.of_op rfl .inr hsame fun _ hatt => ?_
    rcases hop with hop | hop <;> simp [hop, Op.attends] at hatt
  | @startShared i hop =>
    rw [hop] at hops
    refine h.of_op rfl .inr (fun j hj => ?_) fun _ hatt => by simp [hop, Op.attends] at hatt
    have hji : j ≠ i := by
      rintro rfl
      exact hj.1 hops
    simpa [Awake, hji] using hj
  | @startThread i hop =>
    rw [hop] at hops
    refine h.of_op rfl .inr (fun j hj => ?_) fun _ _ => .inr (.inl ⟨i, ?_⟩)
    · have hji : j ≠ i := by
        rintro rfl
        exact hj.1 hops.1
      simpa [Awake, hji] using hj
    · exact ⟨by simp, .inl (by simp [Pc.asleep])⟩
  | @startSub i hop =>
    refine h.of_op rfl .inr hsame fun hne _ => .inr (.inl ?_)
    obtain ⟨j, -, hj⟩ := (hsafe i hop).resolve_left hne
    exact ⟨j, hj⟩
  | wakeMain hop =>
    exact h.of_op rfl .inr (hpending rfl rfl) fun _ hatt => by simp [hop, Op.attends] at hatt

end

/-- A worker's own step leaves it awake, unless it is on its way to sleep. -/
theorem WorkerStep.awake (hstep : WorkerStep s i s') (hi : Awake s i) :
    Awake s' i ∨ s.pc i = .check ∧ s.injectLen = 0 := by
  have hruns := hstep.own.runs
  have hup : (s'.pc i).asleep = false → Awake s' i := fun hup => ⟨hruns, .inl hup⟩
  cases hstep with
  | move hpc hmove =>
    cases hmove with
    | @noneInjected inLoop hlen => exact .inl (hup (by cases inLoop <;> simp [afterInject, Pc.asleep]))
    | @notNotified site hflag => exact .inl (hup (by cases site <;> simp [afterAnswer, Pc.asleep]))
    | checkZero hzero hlen | checkOther hlen => exact .inr ⟨hpc, hlen⟩
    | block =>
      -- asleep already, it had a wake-up pending
      refine .inl ⟨hruns, .inr (hi.2.resolve_left ?_)⟩
      simp [hpc, Pc.asleep]
    | _ => exact .inl (hup (by simp [Pc.asleep]))
  | poll hpc hpoll => exact .inl (hup (by cases hpoll <;> simp [Pc.asleep]))
  | takeInjected hpc hlock | answer hpc hset | announce hpc | clear hpc => exact .inl (hup (by simp [Pc.asleep]))
  | @storeLen inLoop took hpc =>
    exact .inl (hup (by cases inLoop <;> cases took <;> simp [afterInject, Pc.asleep]))
  | @searched site found hpc =>
    exact .inl (hup (by cases site <;> cases found <;> simp [afterAnswer, Pc.asleep]))

lemma WorkerStep.inject_ne_nil (hstep : WorkerStep s i s') (hne : s'.inject ≠ []) : s.inject ≠ [] := by
  cases hstep with
  | takeInjected hpc hlock =>
    intro hnil
    simp [hnil] at hne
  | _ => exact hne

lemma Attended.workerStep (h : Attended s) (hm : Measured s) (hstep : WorkerStep s i s') : Attended s' := by
  have hown := hstep.own
  have hothers : ∀ j ≠ i, Awake s j → Awake s' j := by
    intro j hj hawake
    unfold Awake
    rw [hown.pc j hj, hown.pending j hj]
    exact hawake
  intro hne
  have hold := hstep.inject_ne_nil hne
  rcases h hold with ⟨j, hj⟩ | ⟨θ, hθ⟩
  · obtain rfl | hji := eq_or_ne j i
    · rcases hstep.awake hj with hawake | ⟨hpc, hlen⟩
      · exact .inl ⟨j, hawake⟩
      · -- it read a length that is out of date: the lock's holder is awake, or inside `push`
        cases hlock : s.injectLock with
        | none =>
          have hnil := (hm.length hlock).symm.trans hlen
          exact absurd (length_eq_zero_iff.mp hnil) hold
        | some θ =>
          rcases hm.locked θ hlock with hstore | ⟨k, -, hk⟩
          · refine .inr ⟨θ, ?_⟩
            rw [hown.op, hstore]
            rfl
          · have hkj : k ≠ j := by
              rintro rfl
              rw [hpc] at hk
              cases hk
            refine .inl ⟨k, hothers k hkj ?_⟩
            revert hk
            unfold Awake
            cases s.pc k <;> simp [Pc.stores, Pc.asleep]
    · exact .inl ⟨j, hothers j hji hj⟩
  · exact .inr ⟨θ, hown.op ▸ hθ⟩

/-! ## Runs -/

/-- The steps that lose no wake-up: a flag is stored only when it is down, and a failed thread
start is taken off `SEARCHING` only while `INJECT` is empty or a worker is awake. -/
def Orderly (s : State) : Label → Prop
  | .op θ _ => match s.op θ with
    | .storeNotified i => s.notified i = false
    | .startSub _ => s.inject = [] ∨ ∃ j, j < s.count ∧ Awake s j
    | _ => True
  | _ => True

instance (s : State) (l : Label) : Decidable (Orderly s l) := by
  unfold Orderly
  split
  · split <;> infer_instance
  · infer_instance

lemma Orderly.storesOnce (h : Orderly s (.op θ ok)) : StoresOnce s θ := by
  intro i hop
  simpa [Orderly, hop] using h

lemma Orderly.startsSafely (h : Orderly s (.op θ ok)) : StartsSafely s θ := by
  intro i hop
  simpa [Orderly, hop] using h

structure Attendance (s : State) : Prop where
  count : 0 < s.count
  starts : Starts s
  counted : Counted s
  flagged : Flagged s
  announced : Announced s
  measured : Measured s
  attended : Attended s

lemma attendance_initial {count : ℕ} (hcount : 0 < count) : Attendance (initial count) where
  count := hcount
  starts := starts_initial count
  counted := counted_initial count
  flagged := fun i _ hflag => by cases hflag
  announced := fun hann => by cases hann
  measured := ⟨fun _ => rfl, fun θ hθ => by cases hθ⟩
  attended := fun hne => absurd rfl hne

lemma Attendance.step (h : Attendance s) (hok : Orderly s l) (hstep : step s l = some s') : Attendance s' := by
  rcases step_cases hstep with ⟨i, hop, hworker⟩ | ⟨θ, hcall, hlabel⟩
  · refine ⟨?_, h.starts.ownStep hworker.own, h.counted.workerStep hworker, h.flagged.workerStep hworker,
      h.announced.workerStep hworker, h.measured.workerStep hworker, h.attended.workerStep h.measured hworker⟩
    cases hworker <;> exact h.count
  · have honce : StoresOnce s θ ∧ StartsSafely s θ := by
      rcases hlabel with hnone | ⟨ok, rfl⟩
      · refine ⟨fun i hi => ?_, fun i hi => ?_⟩
        · cases hnone.symm.trans hi
        · cases hnone.symm.trans hi
      · exact ⟨hok.storesOnce, hok.startsSafely⟩
    refine ⟨?_, h.starts.opStep hcall, h.counted.opStep h.starts honce.1 hcall, h.flagged.opStep h.starts hcall,
      h.announced.opStep h.starts hcall, h.measured.opStep h.starts hcall, h.attended.opStep h.starts h.counted
      h.flagged h.announced h.count honce.2 hcall⟩
    cases hcall <;> exact h.count

lemma attendance_of_reachable (h : ReachableBy system Orderly s) : Attendance s := by
  refine ReachableBy.invariant (fun r hr => ?_) (fun r l r' hok hr hs => hr.step hok hs) h
  obtain ⟨count, hcount, -, rfl⟩ := hr
  exact attendance_initial hcount

/-- Whether a thread is inside `push`, `notify_idle` or `start_worker`. -/
def Op.inCall : Op → Bool
  | .none | .wakeMain => false
  | _ => true

lemma Op.inCall_of_attends (h : o.attends) : o.inCall := by
  revert h
  cases o <;> simp [Op.attends, Op.inCall]

/-- **Injected tasks are not stranded.** In every state of a run whose steps are orderly, if a task
is injected and no thread is inside `push`, `notify_idle` or `start_worker`, some started worker
is not blocked in `poll`, or has a wake-up pending there. -/
theorem injected_attended_of_orderly (h : Transition.ReachableBy system Orderly s) (hinject : s.inject ≠ [])
    (hcalls : ∀ θ, (s.op θ).inCall = false) : ∃ i, s.pc i ≠ .off ∧ (s.pc i ≠ .blocked ∨ s.pending i = true) := by
  rcases (attendance_of_reachable h).attended hinject with ⟨i, hoff, hup⟩ | ⟨θ, hθ⟩
  · refine ⟨i, hoff, hup.imp_left fun hasleep hpc => ?_⟩
    rw [hpc] at hasleep
    cases hasleep
  · have hin := Op.inCall_of_attends hθ
    rw [hcalls θ] at hin
    cases hin

/-! ## Two runs that strand a task -/

/-- Worker 0's next `n` steps, none of which finds a task of its own. -/
def workerSteps (n : ℕ) : List Label := List.replicate n (.worker 0 false)

/-- The next `n` operations of a plain thread's call. -/
def callSteps (id : ℕ) (n : ℕ) : List Label := List.replicate n (.op (.plain id) true)

/-- Worker 0 asleep, notified of a task: the wake-up is pending. -/
theorem injected_attended_of_orderly_woken : ∃ s, Transition.ReachableBy system Orderly s ∧
    s.inject = [7] ∧ ∃ i, s.pc i ≠ .off ∧ (s.pc i ≠ .blocked ∨ s.pending i = true) := by
  have hrun : (runBy system Orderly (initial 1)
      (workerSteps 8 ++ .push 0 7 :: callSteps 0 9)).isSome = true := by decide
  have hinit : system.init (initial 1) := ⟨1, by decide, by decide, rfl⟩
  have hreach := ReachableBy.of_runBy (.start hinit) (some_get hrun).symm
  refine ⟨_, hreach, rfl, injected_attended_of_orderly hreach (cons_ne_nil 7 []) fun θ => ?_⟩
  rcases θ with i | _ | i <;> rfl

/-- The first thread is held up after clearing worker 0's bit; the worker wakes by itself, runs the task and
sleeps again; the second thread notifies it, and the first goes on, so `SEARCHING` is two with one flag set. The
worker lowers it to one, runs the second task and sleeps; the third thread sees one worker searching, and wakes
nobody. -/
def overlap : List Label :=
  workerSteps 8 ++ .push 0 7 :: callSteps 0 6 ++ workerSteps 11 ++ .worker 0 true :: workerSteps 8 ++
    .push 1 8 :: callSteps 1 9 ++ callSteps 0 3 ++ workerSteps 13 ++ .worker 0 true :: workerSteps 8 ++
    .push 2 9 :: callSteps 2 3

/-- After `overlap` a task is injected, no call is under way, and every worker is blocked with no wakeup due. -/
theorem searching_leak_strands : ∃ s, Transition.Reachable system s ∧ s.inject = [9] ∧ (∀ θ, (s.op θ).inCall = false) ∧
    ∀ i, s.pc i ≠ .off → s.pc i = .blocked ∧ s.pending i = false := by
  have hrun : (run system (initial 1) overlap).isSome := by decide
  have hinit : system.init (initial 1) := ⟨1, by decide, by decide, rfl⟩
  have hreach := Reachable.of_run (.start hinit) (some_get hrun).symm
  refine ⟨_, hreach, rfl, fun θ => ?_, fun i hi => ?_⟩
  · rcases θ with i | _ | _ | _ | i <;> rfl
  · rcases i with _ | i
    · exact ⟨rfl, rfl⟩
    · exact absurd rfl hi

/-- The first thread finds worker 0 awake and is starting worker 1; worker 0 runs the task and
sleeps; the second thread sees one worker searching, and wakes nobody; then worker 1's thread
cannot be created. -/
def failedStart : List Label :=
  workerSteps 2 ++ .push 0 7 :: callSteps 0 11 ++ workerSteps 5 ++ .worker 0 true :: workerSteps 8 ++
    .push 1 8 :: callSteps 1 3 ++ [.op (.plain 0) false, .op (.plain 0) false]

lemma failed_start_strands : ∃ s, Reachable system s ∧ s.inject = [8] ∧ (∀ θ, (s.op θ).inCall = false) ∧
    ∀ i, s.pc i ≠ .off → s.pc i = .blocked ∧ s.pending i = false := by
  have hrun : (run system (initial 2) failedStart).isSome := by decide
  have hinit : system.init (initial 2) := ⟨2, by decide, by decide, rfl⟩
  have hreach := Reachable.of_run (.start hinit) (some_get hrun).symm
  refine ⟨_, hreach, rfl, fun θ => ?_, fun i hi => ?_⟩
  · rcases θ with i | _ | _ | i <;> rfl
  · rcases i with _ | i
    · exact ⟨rfl, rfl⟩
    · exact absurd rfl hi

end RocNet.Idle
