import Mathlib.Data.List.TakeWhile
import RocNet.Analysis.Reasons

/-!
# Every prompt step keeps the reasons right

The one step that does not is the store of a reason after the task has gone on to its next wait;
`Prompt` rules it out and nothing else.
-/

namespace RocNet.Sched

open Function List Nat

/-! ## Steps -/

variable {s s' : State} {θ : Thread} {t : TaskId} {i : ℕ}

lemma Reasons.callStep (h : Reasons s) (hs : CallStep s θ s') : Reasons s' := by
  cases hs with
  | wake _ _ => exact h.setOp trivial
  | cancel _ hspawned => exact h.setOp hspawned
  | spawn _ =>
    refine Reasons.setOp ?_ trivial
    let s₁ : State := { s.setTask s.nextTask (fun _ => newTask) with nextTask := s.nextTask + 1 }
    show Reasons s₁
    have hne : ∀ u ≠ s.nextTask, s₁.tasks u = s.tasks u := fun u hu => by simp [s₁, hu]
    have hself : s₁.tasks s.nextTask = newTask := by simp [s₁]
    have hpos : 0 < s.nextWait := (zero_le _).trans_lt (h.ids 0).1
    refine ⟨fun u => ?_, h.unused, fun u v huv hu0 => ?_, fun u => ?_, fun u => ?_, h.timers, h.loops, fun θ' => ?_⟩
    · by_cases hu : u = s.nextTask
      · rw [hu, hself]
        exact ⟨hpos, hpos⟩
      · rw [hne u hu]
        exact h.ids u
    · have hun : u ≠ s.nextTask := by
        rintro rfl
        rw [hself] at hu0
        exact hu0 rfl
      have hvn : v ≠ s.nextTask := by
        rintro rfl
        rw [huv, hself] at hu0
        exact hu0 rfl
      rw [hne u hun] at hu0
      rw [hne u hun, hne v hvn] at huv
      exact h.unique u v huv hu0
    · by_cases hu : u = s.nextTask
      · rw [hu, hself]
        exact fun hcode => absurd rfl hcode
      · rw [hne u hu]
        exact h.started u
    · by_cases hu : u = s.nextTask
      · rw [hu, hself]
        trivial
      · rw [hne u hu]
        exact h.tasks u
    · refine (h.ops θ').of_update (show s₁.tasks = _ from rfl) (le_succ _) le_rfl (fun _ hf => hf) fun hsp => ?_
      exact absurd hsp.2 (lt_irrefl _)

/-- The step stores `TimedOut` or `Cancelled` for a wait that is not the task's latest any more. -/
def storesLate (s : State) : Label → Bool
  | .op θ _ =>
    match s.op θ with
    | .report t w r => decide (r ≠ .ready) && decide ((s.tasks t).latest ≠ w)
    | _ => false
  | _ => false

/-- A waker stores its reason while the wait it is for is still the task's latest. -/
def Prompt (s : State) (l : Label) : Prop := storesLate s l = false

instance (s : State) (l : Label) : Decidable (Prompt s l) :=
  inferInstanceAs (Decidable (storesLate s l = false))

lemma Reasons.setTask_words {f : Task → Task} (h : Reasons s) (hlatest : (f (s.tasks t)).latest = (s.tasks t).latest)
    (hwait : (f (s.tasks t)).wait < s.nextWait) (hcode : (f (s.tasks t)).code = (s.tasks t).code)
    (hok : CodeOk (f (s.tasks t)) (s.record (s.tasks t).latest) s.now (s.tasks t).code)
    (hcancelled : (s.tasks t).cancelled → (f (s.tasks t)).cancelled)
    (hflag : (f (s.tasks t)).cancellable = (s.tasks t).cancellable) : Reasons (s.setTask t f) := by
  refine h.setTask hlatest hwait ?_ ?_ hcancelled ?_
  · rw [hcode]
    exact id
  · rw [hcode]
    exact hok
  · rw [hcode]
    exact fun hp => ⟨hp, hflag⟩

lemma opReason_scheduleNext (s : State) (t : TaskId) (x : UInt8) : OpReason s (scheduleNext t x) := by
  unfold scheduleNext
  split <;> trivial

lemma Reasons.opStep (h : Reasons s) (hok : Prompt s (.op θ spurious)) (hs : OpStep s θ s') : Reasons s' := by
  have hmine := h.ops θ
  have hprompt : ∀ t w r, s.op θ = .report t w r → r ≠ .ready → (s.tasks t).latest = w := by
    intro t w r hop hr
    simp only [Prompt, storesLate, hop] at hok
    simpa [hr] using hok
  cases hs with
  | @cancelStore t hop =>
    rw [hop] at hmine
    have hset : Reasons (s.setTask t fun k => { k with cancelled := true }) :=
      h.setTask_words rfl (h.ids t).2 rfl (h.tasks t).of_cancelled (fun _ => rfl) rfl
    exact hset.setOp ⟨hmine, by simp⟩
  | cancelLoadNone _ _ | cancelRefused _ _ | claimLate _ _ => exact h.setOp trivial
  | @cancelLoad t hop _ =>
    rw [hop] at hmine
    refine h.setOp ⟨hmine.1, hmine.2, (h.ids t).2, fun hl => ?_⟩
    by_contra hpre
    exact ((h.tasks t).of_prePublish (Bool.of_not_eq_false hpre)).1 hl.symm
  | @cancelWake t w hop hflag =>
    rw [hop] at hmine
    exact h.setOp ⟨hmine.1, hmine.2.1, hmine.2.2.1, fun hl => ⟨hmine.2.2.2 hl, hflag⟩⟩
  | @claim t w r hop _ =>
    have hpos : 0 < s.nextWait := (zero_le _).trans_lt (h.ids t).1
    have hset : Reasons (s.setTask t fun k => { k with wait := 0 }) :=
      h.setTask_words rfl hpos rfl ((h.tasks t).of_claimed (h.started t)) id rfl
    have hrec : Reasons ((s.setTask t fun k => { k with wait := 0 }).setRecord w fun h =>
        { h with claimed := some r }) := hset.setRecord rfl rfl
    have hclaim := hrec.ops θ
    change OpReason _ (s.op θ) at hclaim
    rw [hop] at hclaim
    refine hrec.setOp ?_
    cases r <;> exact hclaim
  | @report t w r hop =>
    rw [hop] at hmine
    refine Reasons.setOp ?_ trivial
    refine h.setTask_words rfl (h.ids t).2 rfl ((h.tasks t).of_woke (fun hpre => ?_) ?_ ?_) id rfl
    · -- nobody names an id that has not been published
      cases r with
      | ready => rfl
      | timedOut =>
        obtain ⟨at', _, hd, _⟩ := hmine
        rw [← hprompt t w _ hop (by decide), ((h.tasks t).of_prePublish hpre).2] at hd
        cases hd
      | cancelled =>
        have hl := hprompt t w _ hop (by decide)
        exact absurd (hmine.2.2.2 hl).1 (by simp [hpre])
    · rintro rfl
      rw [hprompt t w _ hop (by decide)]
      exact hmine
    · rintro rfl
      exact ⟨(hmine.2.2.2 (hprompt t w _ hop (by decide))).2, hmine.2.1⟩
  | observe _ | markAgain _ => exact h.setOp (opReason_scheduleNext _ _ _)
  | @mark t seen hop _ =>
    have hset : Reasons (s.setTask t fun k => { k with state := seen ||| NOTIFIED }) :=
      h.setTask_words rfl (h.ids t).2 rfl (h.tasks t) id rfl
    refine hset.setOp ?_
    split <;> trivial
  | push _ _ | inject _ _ => exact Reasons.setOp (h.congr rfl rfl rfl rfl rfl rfl rfl rfl) trivial

/-- A timer in the front of the list that `fire_timers` takes is due. -/
theorem deadline_le_of_mem_takeWhile {now : Instant} {q : List Timer} {e : Timer}
    (he : e ∈ q.takeWhile (dueAt now)) : e.deadline ≤ now := by
  have hdue := mem_takeWhile_imp he
  exact of_decide_eq_true hdue

lemma Reasons.takeStep (h : Reasons s) (hs : TakeStep s i s') : Reasons s' := by
  cases hs with
  | pop _ | steal _ _ | injected _ => exact Reasons.setLoop (h.congr rfl rfl rfl rfl rfl rfl rfl rfl) trivial
  | @timers now hnow =>
    have hsub : Reasons (s.setTimers i ((s.timers i).dropWhile (dueAt now))) :=
      h.setTimers fun e he => (dropWhile_sublist _).subset he
    -- a wait whose timer is due has fired, at the reading just taken
    have hdue : ∀ e ∈ (s.timers i).takeWhile (dueAt now),
        Fired (fire s.record (((s.timers i).takeWhile (dueAt now)).map Timer.wait) now e.wait) s.now := by
      intro e he
      have hmem : e ∈ s.timers i := (takeWhile_sublist _).subset he
      refine ⟨e.deadline, now, ?_, ?_, deadline_le_of_mem_takeWhile he, hnow⟩
      · rw [fire, if_pos (mem_map_of_mem he)]
        exact h.timers i e hmem
      · rw [fire, if_pos (mem_map_of_mem he)]
    refine Reasons.setLoop (hsub.of_record rfl rfl rfl rfl rfl rfl (fun w => ?_) fun w hf => ?_) ?_
    · show (fire s.record _ now w).deadline = (s.record w).deadline
      unfold fire
      split <;> rfl
    · show Fired (fire s.record _ now w) s.now
      by_cases hw : w ∈ ((s.timers i).takeWhile (dueAt now)).map Timer.wait
      · obtain ⟨e, he, rfl⟩ := mem_map.mp hw
        exact hdue e he
      · rw [fire, if_neg hw]
        exact hf
    · intro p hp
      obtain ⟨e, he, rfl⟩ := mem_map.mp hp
      exact hdue e he

lemma CodeOk.resume (hc : CodeOk k h now c) : CodeOk k h now c.resume := by
  cases c <;> exact hc

lemma Reasons.loopStep (h : Reasons s) (hs : LoopStep s i s') : Reasons s' := by
  have hmine := h.loops (.worker i)
  cases hs with
  | @start t hloop =>
    refine Reasons.setLoop ?_ trivial
    refine h.setTask rfl (h.ids t).2 ?_ (h.tasks t).resume id ?_
    · show (s.tasks t).code.resume ≠ .user → _
      cases (s.tasks t).code <;> simp [Code.resume]
    · show _ → (s.tasks t).code.resume.prePublish = false ∧ _
      cases (s.tasks t).code <;> simp [Code.resume, Code.prePublish]
  | @notify t _ | @sleep t _ _ | @done t _ | @retire t _ | @finish t _ =>
    exact Reasons.setLoop (h.setTask_words rfl (h.ids t).2 rfl (h.tasks t) id rfl) trivial
  | woken _ _ | fired _ => exact h.setLoop trivial
  | requeue _ | arrive _ => exact Reasons.setLoop (h.congr rfl rfl rfl rfl rfl rfl rfl rfl) trivial
  | @fire t w rest hloop =>
    rw [hloop] at hmine
    have hset : Reasons (s.setLoop (.worker i) (.firing rest)) :=
      h.setLoop fun e he => hmine e (mem_cons_of_mem _ he)
    exact hset.setOp (hmine (t, w) mem_cons_self)

lemma Reasons.begin (h : Reasons s) (c : Bool) :
    Reasons { s.setTask t (fun k =>
      { k with code := .beginWoke ⟨s.nextWait, c⟩, latest := s.nextWait }) with
      nextWait := s.nextWait + 1 } := by
  let k : Task := { s.tasks t with code := .beginWoke ⟨s.nextWait, c⟩, latest := s.nextWait }
  let s₁ : State := { s with tasks := update s.tasks t k, nextWait := s.nextWait + 1 }
  show Reasons s₁
  have hself : s₁.tasks t = k := by simp [s₁]
  have hne : ∀ u ≠ t, s₁.tasks u = s.tasks u := fun u hu => by simp [s₁, hu]
  have hpos : s.nextWait ≠ 0 := ne_of_gt ((zero_le _).trans_lt (h.ids t).1)
  refine ⟨fun u => ?_, fun w hw => h.unused w ((le_succ _).trans hw), fun u v huv hu0 => ?_,
    fun u => ?_, fun u => ?_, h.timers, h.loops, fun θ => ?_⟩
  · by_cases hu : u = t
    · rw [hu, hself]
      exact ⟨lt_succ_self _, lt_succ_of_lt (h.ids t).2⟩
    · rw [hne u hu]
      exact ⟨lt_succ_of_lt (h.ids u).1, lt_succ_of_lt (h.ids u).2⟩
  · -- the new id is above every other
    by_cases hu : u = t <;> by_cases hv : v = t
    · rw [hu, hv]
    · rw [hu, hself, hne v hv] at huv
      exact absurd huv (Nat.ne_of_gt (h.ids v).1)
    · rw [hv, hself, hne u hu] at huv
      exact absurd huv (Nat.ne_of_lt (h.ids u).1)
    · rw [hne u hu] at hu0
      rw [hne u hu, hne v hv] at huv
      exact h.unique u v huv hu0
  · by_cases hu : u = t
    · rw [hu, hself]
      exact fun _ => hpos
    · rw [hne u hu]
      exact h.started u
  · by_cases hu : u = t
    · rw [hu, hself]
      exact ⟨rfl, Nat.ne_of_lt (h.ids t).2, h.unused _ le_rfl⟩
    · rw [hne u hu]
      exact h.tasks u
  · refine (h.ops θ).of_update (show s₁.tasks = _ from rfl) le_rfl (le_succ _) (fun _ hf => hf) fun _ => ?_
    exact ⟨id, .inr le_rfl⟩

lemma Reasons.timer {w : Wait} {deadline : Instant}
    (h : Reasons s) (hcode : (s.tasks t).code = .timing w (some deadline)) :
    Reasons (((s.setTask t fun k =>
      { k with code := .suspending w (some deadline), timer := some (i, deadline, w.id) }).setTimers
        i ((s.timers i).orderedInsert Timer.le ⟨deadline, w.id, t⟩)).setRecord w.id fun h =>
        { h with deadline := some deadline }) := by
  have hk := h.tasks t
  rw [hcode] at hk
  obtain ⟨hlatest, hwait, hnone, hwoke⟩ := hk
  have hne0 := h.started t (by simp [hcode])
  let k : Task := { s.tasks t with
    code := .suspending w (some deadline), timer := some (i, deadline, w.id) }
  let record := update s.record w.id { s.record w.id with deadline := some deadline }
  let s₁ : State := { s with
    tasks := update s.tasks t k
    timers := update s.timers i ((s.timers i).orderedInsert Timer.le ⟨deadline, w.id, t⟩)
    record := record }
  show Reasons s₁
  -- the wait had no deadline until now, so nothing refers to its timer
  rw [← hlatest.1] at hnone
  have hrecord : ∀ v, (s.record v).deadline ≠ none → record v = s.record v := by
    intro v hv
    refine update_of_ne ?_ _ _
    rintro rfl
    exact hv hnone
  have hfired : ∀ v, Fired (s.record v) s.now → Fired (record v) s.now := by
    intro v hf
    obtain ⟨_, _, hd, _⟩ := id hf
    rw [hrecord v (by simp [hd])]
    exact hf
  have hself : s₁.tasks t = k := by simp [s₁]
  have hother : ∀ u ≠ t, s₁.tasks u = s.tasks u := fun u hu => by simp [s₁, hu]
  have hlatest' : ∀ u, (s₁.tasks u).latest = (s.tasks u).latest := by
    intro u
    by_cases hu : u = t
    · rw [hu, hself]
    · rw [hother u hu]
  refine ⟨fun u => ?_, fun v hv => ?_, fun u v => ?_, fun u => ?_, fun u => ?_, fun j e he => ?_,
    fun θ => ?_, fun θ => ?_⟩
  · rw [hlatest' u]
    refine ⟨(h.ids u).1, ?_⟩
    by_cases hu : u = t
    · rw [hu, hself]
      exact (h.ids t).2
    · rw [hother u hu]
      exact (h.ids u).2
  · have hne : v ≠ w.id := by
      rintro rfl
      exact absurd hv (not_le_of_gt (hlatest.1 ▸ (h.ids t).1))
    show (record v).deadline = none
    rw [show record v = s.record v from update_of_ne hne _ _]
    exact h.unused v hv
  · rw [hlatest' u, hlatest' v]
    exact h.unique u v
  · rw [hlatest' u]
    by_cases hu : u = t
    · rw [hu]
      exact fun _ => hne0
    · rw [hother u hu]
      exact h.started u
  · rw [hlatest' u]
    by_cases hu : u = t
    · rw [hu, hself]
      refine ⟨hlatest, ?_, fun hr => ?_, hwoke.2⟩
      · show (record (s.tasks t).latest).deadline = some deadline
        rw [← hlatest.1]
        simp [record]
      · obtain ⟨_, _, hd, _⟩ := hwoke.1 hr
        rw [← hlatest.1, hnone] at hd
        cases hd
    · rw [hother u hu]
      have hne : (s.tasks u).latest ≠ w.id := by
        intro heq
        exact hu (h.unique u t (heq.trans hlatest.1) (heq ▸ hlatest.1 ▸ hne0))
      show CodeOk _ (record (s.tasks u).latest) s.now _
      rw [show record (s.tasks u).latest = s.record (s.tasks u).latest from update_of_ne hne _ _]
      exact h.tasks u
  · have hcases : e = ⟨deadline, w.id, t⟩ ∨ e ∈ s.timers j := by
      obtain rfl | hj := eq_or_ne j i
      · simpa [s₁] using he
      · exact .inr (by simpa [s₁, hj] using he)
    rcases hcases with rfl | hmem
    · show (record w.id).deadline = some deadline
      simp [record]
    · have hd := h.timers j e hmem
      show (record e.wait).deadline = _
      rw [hrecord _ (by simp [hd])]
      exact hd
  · have hθ := h.loops θ
    show LoopReason record s.now (s.loop θ)
    cases hl : s.loop θ with
    | firing due =>
      rw [hl] at hθ
      exact fun e he => hfired _ (hθ e he)
    | _ => trivial
  · refine (h.ops θ).of_update (show s₁.tasks = _ from rfl) le_rfl le_rfl hfired fun _ => ⟨id, .inl ⟨rfl, ?_⟩⟩
    exact fun _ => ⟨rfl, rfl⟩

lemma Reasons.codeStep (h : Reasons s) (hspawned : s.Spawned t) (hs : CodeStep s θ t s') : Reasons s' := by
  have hk := h.tasks t
  have hwait := (h.ids t).2
  have hstep : ∀ {c : Code} (f : Task → Task), (s.tasks t).code = c → c ≠ .user →
      (f (s.tasks t)).latest = (s.tasks t).latest → (f (s.tasks t)).wait < s.nextWait →
      CodeOk (f (s.tasks t)) (s.record (s.tasks t).latest) s.now (f (s.tasks t)).code →
      (f (s.tasks t)).cancelled = (s.tasks t).cancelled →
      (c.prePublish = false → (f (s.tasks t)).code.prePublish = false ∧
        (f (s.tasks t)).cancellable = (s.tasks t).cancellable) → Reasons (s.setTask t f) := by
    intro c f hc hne hl hw hok hcan hkeep
    exact h.setTask hl hw (fun _ => hc ▸ hne) hok (fun hb => hcan ▸ hb) (hc ▸ hkeep)
  cases hs with
  | @begin c _ => exact h.begin c
  | beginWoke hcode =>
    rw [hcode] at hk
    exact hstep _ hcode (by simp) rfl hwait ⟨hk.1, hk.2.1, hk.2.2, rfl⟩ rfl
      (fun hp => absurd hp (by simp [Code.prePublish]))
  | beginCancellable hcode =>
    rw [hcode] at hk
    exact hstep _ hcode (by simp) rfl hwait ⟨⟨hk.1, rfl⟩, hk.2.1, hk.2.2.1, hk.2.2.2⟩ rfl
      (fun hp => absurd hp (by simp [Code.prePublish]))
  | @beginWait w hcode =>
    rw [hcode] at hk
    obtain ⟨hlatest, -, hnone, hready⟩ := hk
    have hwoke : ∀ {k : Task}, k.woke = (s.tasks t).woke → WokeOk k (s.record (s.tasks t).latest) s.now := by
      intro k hk
      constructor <;> intro hr <;> rw [hk, hready] at hr <;> cases hr
    refine hstep _ hcode (by simp) rfl (hlatest.1 ▸ (h.ids t).1) ?_ rfl
      (fun hp => absurd hp (by simp [Code.prePublish]))
    cases hc : w.cancellable with
    | true => exact ⟨hlatest, .inr hlatest.1, hnone, hwoke rfl, hc⟩
    | false => exact ⟨hlatest, .inr hlatest.1, hnone, hwoke rfl⟩
  | beginCheck hcode _ =>
    rw [hcode] at hk
    exact hstep _ hcode (by simp) rfl hwait ⟨hk.1, hk.2.1, hk.2.2.1, hk.2.2.2.1⟩ rfl (fun _ => ⟨rfl, rfl⟩)
  | @beginCancelled w hcode hflag =>
    rw [hcode] at hk
    have hset : Reasons (s.setTask t fun k => { k with code := .beginDone w }) :=
      hstep _ hcode (by simp) rfl hwait ⟨hk.1, hk.2.1, hk.2.2.1, hk.2.2.2.1⟩ rfl
        (fun _ => ⟨rfl, rfl⟩)
    refine hset.setOp ⟨hspawned, by simpa using hflag, hk.1.1 ▸ (h.ids t).1, fun _ => ?_⟩
    simpa [Code.prePublish] using hk.1.2.trans hk.2.2.2.2
  | @beginDone w hcode =>
    rw [hcode] at hk
    have hset : Reasons (s.setTask t fun k => { k with code := .begun w }) :=
      hstep _ hcode (by simp) rfl hwait hk rfl (fun _ => ⟨rfl, rfl⟩)
    exact hset.setRecord rfl rfl
  | @abandon w hcode =>
    refine hstep _ hcode (by simp) rfl ?_ trivial rfl (fun _ => ⟨rfl, rfl⟩)
    show (if (s.tasks t).wait = w.id then 0 else (s.tasks t).wait) < s.nextWait
    split
    · exact (zero_le _).trans_lt hwait
    · exact hwait
  | giveUp hcode | leave hcode => exact hstep _ hcode (by simp) rfl hwait trivial rfl (fun _ => ⟨rfl, rfl⟩)
  | park _ hcode | waitSuspended _ hcode =>
    rw [hcode] at hk
    exact hstep _ hcode (by simp) rfl hwait hk rfl (fun _ => ⟨rfl, rfl⟩)
  | @parkLoad w d hcode =>
    rw [hcode] at hk
    obtain ⟨hlatest, hcur, hnone, hwoke⟩ := hk
    by_cases h0 : (s.tasks t).wait = 0
    · refine hstep _ hcode (by simp) rfl hwait ?_ rfl fun _ => ?_
      · simpa only [h0, if_true] using ⟨hlatest, .inr hnone, hwoke⟩
      · simp [h0, Code.prePublish]
    · refine hstep _ hcode (by simp) rfl hwait ?_ rfl fun _ => ?_
      · simpa only [h0, if_false] using ⟨⟨hcur.resolve_left h0, hlatest.2⟩, hcur, hnone, hwoke⟩
      · simp [h0, Code.prePublish]
  | noTimer hcode =>
    rw [hcode] at hk
    exact hstep _ hcode (by simp) rfl hwait ⟨hk.1, hk.2.2.1, hk.2.2.2⟩ rfl (fun _ => ⟨rfl, rfl⟩)
  | timer _ hcode => exact h.timer hcode
  | suspend hcode =>
    rw [hcode] at hk
    refine Reasons.setLoop ?_ trivial
    exact hstep _ hcode (by simp) rfl hwait hk rfl (fun _ => ⟨rfl, rfl⟩)
  | forgetTimer hcode =>
    rw [hcode] at hk
    exact hstep _ hcode (by simp) rfl hwait ⟨hk.1, .inl hk.2.1, hk.2.2⟩ rfl (fun _ => ⟨rfl, rfl⟩)
  | @removeTimer w d i drop hcode =>
    rw [hcode] at hk
    have hset : Reasons (s.setTask t fun k => { k with code := .reading w d, timer := none }) :=
      hstep _ hcode (by simp) rfl hwait ⟨hk.1, .inl hk.2.1, hk.2.2⟩ rfl (fun _ => ⟨rfl, rfl⟩)
    exact hset.setTimers fun e he => mem_of_mem_filter he
  | @read w d hcode =>
    rw [hcode] at hk
    obtain ⟨hlatest, hd, hwoke⟩ := hk
    refine hstep _ hcode (by simp) rfl hwait ⟨hlatest, fun hr => ?_, fun hr => ?_⟩ rfl (fun _ => ⟨rfl, rfl⟩)
    · have hfired := hwoke.1 hr
      refine ⟨hfired, hd.resolve_right ?_⟩
      obtain ⟨_, _, hsome, _⟩ := hfired
      rw [hsome]
      simp
    · exact ⟨hlatest.2 ▸ (hwoke.2 hr).1, (hwoke.2 hr).2⟩
  | yield _ | ret _ => exact h.setLoop trivial

lemma Reasons.step (h : Reasons s) (hc : Custody s) (hok : Prompt s l) (hs : Sched.step s l = some s') :
    Reasons s' := by
  cases step_cases hs with
  | tick =>
    exact h.of_record rfl rfl rfl rfl rfl rfl (fun _ => rfl) fun _ hf => hf.mono (le_succ _)
  | call hs => exact h.callStep hs
  | op hs => exact h.opStep hok hs
  | take _ _ hs => exact h.takeStep hs
  | loop _ hs => exact h.loopStep hs
  | @code θ _ t _ hloop _ hs =>
    have hmem : t ∈ content s (.thread θ) := by simp [content, hloop, Loop.held]
    exact h.codeStep (hc.placed.alive_of_mem hmem).1 hs

lemma reasons_initial : Reasons initial := by
  refine ⟨fun _ => ⟨zero_lt_one, zero_lt_one⟩, fun _ _ => rfl, fun _ _ _ h0 => absurd rfl h0, fun _ hne =>
    absurd rfl hne, fun _ => trivial, fun _ e he => absurd he (not_mem_nil), fun _ => trivial, fun _ => trivial⟩

lemma reasons_of_reachable (h : Transition.ReachableBy system Prompt s) : Reasons s := by
  have hboth : Custody s ∧ Reasons s := by
    refine h.invariant (I := fun r => Custody r ∧ Reasons r) ?_ fun r l r' hok hI hs => ?_
    · rintro r rfl
      exact ⟨custody_initial, reasons_initial⟩
    · exact ⟨hI.1.step hs, hI.2.step hI.1 hok hs⟩
  exact hboth.2

end RocNet.Sched
