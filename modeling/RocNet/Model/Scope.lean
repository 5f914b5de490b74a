import RocNet.Model.SchedulerSteps

/-!
# Task scopes

`Task.scope!` (Task.roc:107-163) over the groups of `tasks.rs` and the scheduler of `Model.Scheduler`: the scope's
task runs the body, and when the body returns calls `group_close`, which takes the group's list once, cancels the
tasks in it if the body failed, and waits for each with `wait_finished(false)`. `scope.spawn!` starts a task and then,
in a second step, adds it to the group; the body may call it and so may any task the scope was handed to.

One scope is followed. Everything else tasks do, other scopes included, is their user code in the scheduler. A scope's
wait ends with the reason `park` reports.

`group_add` drops tasks that it finds finished, one by one, while others may finish, so which it drops is left open.
That `wait_finished` holds the lock of `finished` from looking at it until its wait is registered is left out.
-/

namespace RocNet.Scope

open Option
open Sched (TaskId Thread)
open Transition

/-- How far `scope!` has come. -/
inductive Phase
  | unopened
  | body
  -- The body has returned: `group_close`, about to take the list.
  | closing
  | cancelling (todo all : List TaskId)
  -- In `wait_finished` for the first of these, about to look at `finished`; parked.
  | waiting (rest : List TaskId)
  | parked (rest : List TaskId)
  | returned
  deriving DecidableEq, Repr

structure State where
  sched : Sched.State
  phase : Phase
  owner : TaskId
  group : List TaskId
  -- The calls of `spawn!` between `start!` and `group_add!`: the caller, and the task it started.
  adding : List (TaskId × TaskId)
  failed : Bool
  -- History: the tasks started with `spawn!`, and those unfinished when the body returned.
  started : List TaskId
  left : List TaskId

inductive Label
  -- A step of the scheduler, by anyone outside these functions, or of `park` inside them.
  | sched (l : Sched.Label)
  -- `scope!`
  | scope (θ : Thread)
  | bodyReturns (θ : Thread) (failed : Bool)
  -- `spawn!`
  | start (θ : Thread)
  | add (θ : Thread) (c : TaskId) (gone : List TaskId)
  -- `group_close`
  | take (θ : Thread)
  | cancel (θ : Thread)
  | look (θ : Thread)
  | unpark (θ : Thread)
  | leave (θ : Thread)
  deriving DecidableEq, Repr

/-! ## The steps -/

/-- Whether a task's code is inside one of these functions. -/
def State.inside (s : State) (t : TaskId) : Bool :=
  s.adding.any (·.1 == t) || t == s.owner && match s.phase with
    | .unopened | .body | .returned => false
    | _ => true

/-- What `park` does on its way, up to reporting how the wait ended. -/
def parks (a : Sched.Act) (c : Sched.Code) : Bool :=
  match a, c with
  | .next, .reported _ _ _ => false
  | .next, _ | .park none, _ | .removeTimer _, _ => true
  | _, _ => false

/-- Whether a step of the scheduler is one that may be taken here. -/
def State.allows (s : State) : Sched.Label → Bool
  | .call θ _ =>
    match s.sched.loop θ with
    | .running t => !s.inside t
    | _ => true
  | .code θ a =>
    match s.sched.loop θ with
    | .running t =>
      match s.phase with
      | .parked _ =>
        if t = s.owner then parks a (s.sched.tasks t).code else !s.inside t
      -- the body does not end with its task
      | .body => !s.inside t && !(t == s.owner && a == .ret)
      | _ => !s.inside t
    | _ => true
  | _ => true

def finished (s : State) (c : TaskId) : Bool := (s.sched.tasks c).finished

/-- What the task `t` that runs on `θ` does in `scope!`, `spawn!` and `group_close`. -/
def stepTask (s : State) (θ : Thread) (t : TaskId) : Label → Option State
  | .scope _ =>
    if s.phase = .unopened then some { s with phase := .body, owner := t } else none
  | .start _ =>
    if s.phase ≠ .unopened ∧ s.inside t = false then
      (Sched.stepCall s.sched θ .spawn).map fun r =>
        { s with
          sched := r
          adding := (t, s.sched.nextTask) :: s.adding
          started := s.sched.nextTask :: s.started }
    else none
  | .add _ c gone =>
    if (t, c) ∈ s.adding ∧ gone.all (finished s) then
      some { s with
        group := s.group.filter (fun x => !gone.contains x) ++ [c]
        adding := s.adding.erase (t, c) }
    else none
  | .bodyReturns _ failed =>
    if s.phase = .body ∧ t = s.owner ∧ s.inside t = false ∧ (s.sched.tasks t).code = .user then
      some { s with phase := .closing, failed := failed, left := s.started.filter (!finished s ·) }
    else none
  | .take _ =>
    if s.phase = .closing ∧ t = s.owner then
      some { s with
        phase := if s.failed then .cancelling s.group s.group else .waiting s.group
        group := [] }
    else none
  | .cancel _ =>
    match s.phase with
    | .cancelling (c :: todo) all =>
      if t = s.owner then
        (Sched.stepCall s.sched θ (.cancel c)).map fun r =>
          { s with sched := r, phase := .cancelling todo all }
      else none
    | .cancelling [] all => if t = s.owner then some { s with phase := .waiting all } else none
    | _ => none
  | .look _ =>
    match s.phase with
    | .waiting (c :: rest) =>
      if t = s.owner then
        if finished s c then some { s with phase := .waiting rest }
        else (Sched.stepCode s.sched θ t (.begin false) (s.sched.tasks t).code).map fun r =>
          { s with sched := r, phase := .parked (c :: rest) }
      else none
    | _ => none
  | .unpark _ =>
    match s.phase, (s.sched.tasks t).code with
    | .parked rest, .reported _ _ woke =>
      if t = s.owner then
        (Sched.stepCode s.sched θ t .next (s.sched.tasks t).code).map fun r =>
          { s with
            sched := r
            -- `wait_finished` gives up on a task only when it is told it was cancelled
            phase := .waiting (if woke = .cancelled then rest.tail else rest) }
      else none
    | _, _ => none
  | .leave _ =>
    if s.phase = .waiting [] ∧ t = s.owner then some { s with phase := .returned } else none
  | .sched _ => none

/-- The thread whose running task a label is a step of. -/
def Label.thread : Label → Option Thread
  | .sched _ => none
  | .scope θ | .bodyReturns θ _ | .start θ | .add θ _ _ | .take θ | .cancel θ | .look θ | .unpark θ
  | .leave θ => some θ

def step (s : State) (l : Label) : Option State :=
  match l with
  | .sched l =>
    if s.allows l then (Sched.step s.sched l).map fun r => { s with sched := r } else none
  | l => l.thread.bind fun θ => (s.sched.running θ).bind fun t => stepTask s θ t l

def initial : State where
  sched := Sched.initial
  phase := .unopened
  owner := 0
  group := []
  adding := []
  failed := false
  started := []
  left := []

def system : Transition.System State Label where
  init s := s = initial
  step := step

/-! ## What each step can do -/

/-- The steps of the task `t` that runs on `θ`. -/
inductive TaskStep (s : State) (θ : Thread) (t : TaskId) : Label → State → Prop
  | scope (hphase : s.phase = .unopened) : TaskStep s θ t (.scope θ) { s with phase := .body, owner := t }
  | start {r : Sched.State} (hphase : s.phase ≠ .unopened)
      (hspawn : Sched.stepCall s.sched θ .spawn = some r) :
      TaskStep s θ t (.start θ) { s with
        sched := r
        adding := (t, s.sched.nextTask) :: s.adding
        started := s.sched.nextTask :: s.started }
  | add {c : TaskId} {gone : List TaskId} (hadding : (t, c) ∈ s.adding)
      (hgone : ∀ x ∈ gone, finished s x = true) :
      TaskStep s θ t (.add θ c gone) { s with
        group := s.group.filter (fun x => !gone.contains x) ++ [c]
        adding := s.adding.erase (t, c) }
  | bodyReturns {failed : Bool} (hphase : s.phase = .body) (howner : t = s.owner) :
      TaskStep s θ t (.bodyReturns θ failed) { s with
        phase := .closing, failed := failed, left := s.started.filter (!finished s ·) }
  | takeFailed (hphase : s.phase = .closing) (howner : t = s.owner) (hfailed : s.failed = true) :
      TaskStep s θ t (.take θ) { s with phase := .cancelling s.group s.group, group := [] }
  | take (hphase : s.phase = .closing) (howner : t = s.owner) (hfailed : s.failed = false) :
      TaskStep s θ t (.take θ) { s with phase := .waiting s.group, group := [] }
  | cancel (hphase : s.phase = .cancelling (c :: todo) all) (howner : t = s.owner)
      (hcancel : Sched.stepCall s.sched θ (.cancel c) = some r) :
      TaskStep s θ t (.cancel θ) { s with sched := r, phase := .cancelling todo all }
  | cancelled (hphase : s.phase = .cancelling [] all) (howner : t = s.owner) :
      TaskStep s θ t (.cancel θ) { s with phase := .waiting all }
  | finished (hphase : s.phase = .waiting (c :: rest)) (howner : t = s.owner) (hfinished : finished s c = true) :
      TaskStep s θ t (.look θ) { s with phase := .waiting rest }
  | park (hphase : s.phase = .waiting (c :: rest)) (howner : t = s.owner)
      (hbegin : Sched.stepCode s.sched θ t (.begin false) (s.sched.tasks t).code = some r) :
      TaskStep s θ t (.look θ) { s with sched := r, phase := .parked (c :: rest) }
  | unpark {rest : List TaskId} {w : Sched.Wait} {d : Option Sched.Instant} {woke : Sched.Woke}
      {r : Sched.State} (hphase : s.phase = .parked rest) (howner : t = s.owner)
      (hcode : (s.sched.tasks t).code = .reported w d woke)
      (hnext : Sched.stepCode s.sched θ t .next (s.sched.tasks t).code = some r) :
      TaskStep s θ t (.unpark θ) { s with
        sched := r, phase := .waiting (if woke = .cancelled then rest.tail else rest) }
  | leave (hphase : s.phase = .waiting []) (howner : t = s.owner) :
      TaskStep s θ t (.leave θ) { s with phase := .returned }

lemma stepTask_cases (hl : l.thread = some θ) (h : stepTask s θ t l = some s') : TaskStep s θ t l s' := by
  cases l <;> cases hl <;> simp only [stepTask] at h
  case scope =>
    obtain ⟨hphase, rfl⟩ := of_guard h
    exact .scope hphase
  case start =>
    split at h
    · next hguard =>
      obtain ⟨r, hr, rfl⟩ := map_eq_some_iff.mp h
      exact .start hguard.1 hr
    · cases h
  case add c gone =>
    obtain ⟨hguard, rfl⟩ := of_guard h
    exact .add hguard.1 (List.all_eq_true.mp hguard.2)
  case bodyReturns failed =>
    obtain ⟨hguard, rfl⟩ := of_guard h
    exact .bodyReturns hguard.1 hguard.2.1
  case take =>
    obtain ⟨hguard, rfl⟩ := of_guard h
    split
    · next hfailed => exact .takeFailed hguard.1 hguard.2 hfailed
    · next hfailed => exact .take hguard.1 hguard.2 (Bool.eq_false_iff.mpr hfailed)
  case cancel =>
    split at h
    · next hphase =>
      split at h
      · next howner =>
        obtain ⟨r, hr, rfl⟩ := map_eq_some_iff.mp h
        exact .cancel hphase howner hr
      · cases h
    · next hphase =>
      obtain ⟨howner, rfl⟩ := of_guard h
      exact .cancelled hphase howner
    · cases h
  case look =>
    split at h
    · next hphase =>
      split at h
      · next howner =>
        split at h
        · next hfinished =>
          cases h
          exact .finished hphase howner hfinished
        · obtain ⟨r, hr, rfl⟩ := map_eq_some_iff.mp h
          exact .park hphase howner hr
      · cases h
    · cases h
  case unpark =>
    split at h
    · next hphase hcode =>
      split at h
      · next howner =>
        obtain ⟨r, hr, rfl⟩ := map_eq_some_iff.mp h
        exact .unpark hphase howner hcode hr
      · cases h
    · cases h
  case leave =>
    obtain ⟨hguard, rfl⟩ := of_guard h
    exact .leave hguard.1 hguard.2

/-- Every step is the scheduler's, or one of a running task in these functions. -/
theorem step_cases (h : step s l = some s') :
    (∃ m r, l = .sched m ∧ s.allows m = true ∧ Sched.step s.sched m = some r ∧ s' = { s with sched := r }) ∨
    ∃ θ t, s.sched.running θ = some t ∧ TaskStep s θ t l s' := by
  have htask : l.thread.bind (fun θ => (s.sched.running θ).bind fun t => stepTask s θ t l) = some s' →
      ∃ θ t, s.sched.running θ = some t ∧ TaskStep s θ t l s' := by
    intro hbind
    obtain ⟨θ, hθ, hbind⟩ := bind_eq_some_iff.mp hbind
    obtain ⟨t, ht, hstep⟩ := bind_eq_some_iff.mp hbind
    exact ⟨θ, t, ht, stepTask_cases hθ hstep⟩
  cases l with
  | sched m =>
    simp only [step] at h
    split at h
    · next hallows =>
      obtain ⟨r, hr, rfl⟩ := map_eq_some_iff.mp h
      exact .inl ⟨m, r, rfl, hallows, hr, rfl⟩
    · cases h
  | _ => exact .inr (htask h)

end RocNet.Scope
