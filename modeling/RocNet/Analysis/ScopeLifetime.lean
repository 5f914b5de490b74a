import RocNet.Analysis.ReasonSteps
import RocNet.Model.Scope

/-!
# A scope and the tasks started in it

`scope!` promises that no task started with the scope's `spawn!` outlives it. It keeps the promise for the tasks in
the group's list when `group_close` takes it, and that is all of them if every `spawn!` has returned when the body
does. That waiting for one ends only when it has finished rests on the scheduler's reasons (`Sched.Prompt`).
-/

namespace RocNet.Scope

open Function List
open Sched (TaskId Thread running_iff)
open Transition

variable {s s' : State} {l : Label} {θ : Thread} {t c : TaskId}

/-! ## The scheduler below -/

/-- The runs in which `spawn!` is over when the body returns, and reasons are stored in time. -/
def Orderly (s : State) : Label → Prop
  | .sched l => Sched.Prompt s.sched l
  | .start _ => s.phase = .body
  | .bodyReturns _ _ => s.adding = []
  | _ => True

instance (s : State) (l : Label) : Decidable (Orderly s l) := by
  unfold Orderly
  split <;> infer_instance

/-- A step here is a step of the scheduler, or leaves it alone. -/
theorem sched_step (h : step s l = some s') : s'.sched = s.sched ∨ ∃ m, (Orderly s l → Sched.Prompt s.sched m) ∧
      Sched.step s.sched m = some s'.sched := by
  rcases step_cases h with ⟨m, r, rfl, -, hr, rfl⟩ | ⟨θ, t, hrun, hstep⟩
  · exact Or.inr ⟨m, id, hr⟩
  · cases hstep with
    | start _ hspawn => exact Or.inr ⟨.call θ .spawn, fun _ => rfl, hspawn⟩
    | @cancel c _ _ _ _ _ hcancel => exact Or.inr ⟨.call θ (.cancel c), fun _ => rfl, hcancel⟩
    | park _ _ hbegin =>
      refine Or.inr ⟨.code θ (.begin false), fun _ => rfl, ?_⟩
      simpa only [Sched.step, hrun] using hbegin
    | unpark _ _ _ hnext =>
      refine Or.inr ⟨.code θ .next, fun _ => rfl, ?_⟩
      simpa only [Sched.step, hrun] using hnext
    | _ => exact Or.inl rfl

lemma sched_reachable (h : ReachableBy system Orderly s) : ReachableBy Sched.system Sched.Prompt s.sched := by
  refine h.project State.sched (fun r hr => ?_) fun r l r' hok hs => ?_
  · cases hr
    rfl
  · rcases sched_step hs with heq | ⟨m, hm, hstep⟩
    · exact Or.inl heq
    · exact Or.inr ⟨m, hm hok, hstep⟩

lemma running_unique (h : Sched.Custody s.sched) (hθ : s.sched.loop θ = .running t)
    (hψ : s.sched.loop ψ = .running t) : ψ = θ := by
  have hmem : ∀ φ, s.sched.loop φ = .running t → t ∈ Sched.content s.sched (.thread φ) := by
    intro φ hφ
    simp [Sched.content, hφ, Sched.Loop.held]
  have hplace := h.placed.place_unique (hmem θ hθ) (hmem ψ hψ)
  cases hplace
  rfl

/-! ## The scope's waits -/

/-- The wait a task's code is in. -/
def waitOf : Sched.Code → Option Sched.Wait
  | .user => none
  | .beginWoke w | .beginCancellable w | .beginWait w | .beginCheck w | .beginDone w | .begun w
  | .parking w _ | .timing w _ | .suspending w _ | .suspended w _ | .resumed w _ | .reading w _
  | .reported w _ _ => some w

/-- A wait that cancelling must not end. -/
def Uncancellable (c : Sched.Code) : Prop := ∃ w, waitOf c = some w ∧ w.cancellable = false

variable {k : Sched.Code} {m : Sched.Label}

lemma Uncancellable.resume (h : Uncancellable k) : Uncancellable k.resume := by
  cases k <;> exact h

variable {r : Sched.State}

/-- `park` stays in its wait until it reports. -/
theorem Uncancellable.parks (h : Uncancellable k) (ha : parks a k) (hstep : Sched.stepCode r θ t a k = some r') :
    Uncancellable (r'.tasks t).code := by
  obtain ⟨w, hw, hflag⟩ := h
  -- what the step makes of the task's code is all that matters of the state it leads to
  have hset : ∀ {x : Sched.State} {k' : Sched.Task}, x.tasks = update r.tasks t k' →
      Uncancellable k'.code → Uncancellable (x.tasks t).code := by
    intro x k' hx hk'
    rw [hx, update_self]
    exact hk'
  cases a with
  | next =>
    cases k with
    | user => cases hw
    | reported w' d woke => cases ha
    | beginWait w' =>
      cases hw
      cases hstep
      refine hset rfl ⟨w, ?_, hflag⟩
      simp [hflag, waitOf]
    | beginCheck w' =>
      cases hw
      cases hc : (r.tasks t).cancelled with
      | true | false =>
        simp only [Sched.stepCode, hc] at hstep
        cases hstep
        exact hset rfl ⟨w, rfl, hflag⟩
    | parking w' d =>
      cases hw
      cases hstep
      refine hset rfl ?_
      dsimp only
      split
      · exact ⟨w, rfl, hflag⟩
      · exact ⟨_, rfl, hflag⟩
    | timing w' d =>
      cases hw
      cases d with
      | none =>
        cases hstep
        exact hset rfl ⟨w, rfl, hflag⟩
      | some deadline =>
        cases θ with
        | worker i =>
          cases hstep
          exact hset rfl ⟨w, rfl, hflag⟩
        | plain j => cases hstep
    | resumed w' d | begun w' | suspended w' d => cases hstep
    | _ =>
      cases hw
      cases hstep
      exact hset rfl ⟨w, rfl, hflag⟩
  | park d =>
    cases k with
    | begun w' =>
      cases hw
      cases hstep
      exact hset rfl ⟨w, rfl, hflag⟩
    | _ => cases hstep
  | removeTimer published =>
    cases k with
    | resumed w' d =>
      cases hw
      simp only [Sched.stepCode] at hstep
      split at hstep
      · cases hstep
        exact hset rfl ⟨w, rfl, hflag⟩
      · cases published with
        | true | false =>
          cases hstep
          exact hset rfl ⟨w, rfl, hflag⟩
    | _ => cases hstep
  | _ => cases ha

/-! ## The invariant -/

/-- Whether the body has returned. -/
def Phase.afterBody : Phase → Bool
  | .unopened | .body => false
  | _ => true

def Accounted (s : State) (c : TaskId) : Prop :=
  match s.phase with
  | .unopened | .body | .closing => c ∈ s.group ∨ ∃ t, (t, c) ∈ s.adding
  | .cancelling _ all => c ∈ all
  | .waiting rest | .parked rest => c ∈ rest
  | .returned => False

/-- The scope's task is about to set the task's `cancelled`. -/
def Storing (s : State) (c : TaskId) : Prop :=
  ∃ θ, s.sched.loop θ = .running s.owner ∧ s.sched.op θ = .cancelStore c

/-- What `group_close` still has to do to cancel a task, if it is not cancelled yet. -/
def CancelDue (s : State) (c : TaskId) : Prop :=
  match s.phase with
  | .unopened | .body => True
  | .closing => c ∈ s.group
  | .cancelling todo _ => c ∈ todo ∨ Storing s c
  | .waiting _ | .parked _ | .returned => False

structure Lifetime (s : State) : Prop where
  owner : s.phase ≠ .unopened → s.sched.Spawned s.owner
  spawned : ∀ c ∈ s.started, s.sched.Spawned c
  accounted : ∀ c ∈ s.started, finished s c = true ∨ Accounted s c
  added : s.phase.afterBody = true → s.adding = []
  due : s.phase.afterBody = true → s.failed = true → ∀ c ∈ s.left, (s.sched.tasks c).cancelled = true ∨ CancelDue s c
  left : ∀ c ∈ s.left, s.sched.Spawned c
  parked : ∀ rest, s.phase = .parked rest → Uncancellable (s.sched.tasks s.owner).code

lemma spawned_of_running (h : Sched.Custody s.sched) (hrun : s.sched.running θ = some t) : s.sched.Spawned t := by
  have hloop := (running_iff.mp hrun).1
  have hmem : t ∈ Sched.content s.sched (.thread θ) := by
    simp [Sched.content, hloop, Sched.Loop.held]
  exact (h.placed.alive_of_mem hmem).1

/-- The scheduler goes on, and the scope's task, if parked, stays in its wait. -/
theorem Lifetime.sched (h : Lifetime s)
    (hstep : Sched.Step s.sched m r)
    (hparked : ∀ rest, s.phase = .parked rest → Uncancellable (r.tasks s.owner).code) :
    Lifetime { s with sched := r } := by
  have hkept : ∀ c, s.sched.Spawned c → (s.sched.tasks c).Kept (r.tasks c) := fun c hc => hstep.kept hc.2
  refine ⟨fun hp => hstep.spawned (h.owner hp), fun c hc => hstep.spawned (h.spawned c hc), fun c hc => ?_, h.added, fun
    hafter hfailed c hc => ?_, fun c hc => hstep.spawned (h.left c hc), hparked⟩
  · exact (h.accounted c hc).imp_left (hkept c (h.spawned c hc)).finished
  · rcases h.due hafter hfailed c hc with hcancelled | hdue
    · exact Or.inl ((hkept c (h.left c hc)).cancelled hcancelled)
    · -- an operation that is under way stays so, or sets the flag
      have hstoring : Storing s c → (r.tasks c).cancelled ∨ Storing { s with sched := r } c := by
        rintro ⟨θ, hloop, hop⟩
        have hin : s.sched.op θ ≠ .none := by rw [hop]; simp
        rcases hstep.op_eq_or hin with hsame | hs
        · exact Or.inr ⟨θ, (hstep.loop_eq hin).trans hloop, hsame.trans hop⟩
        · refine Or.inl ?_
          cases hs with
          | cancelStore hop' =>
            cases hop.symm.trans hop'
            simp
          | _ => simp_all
      unfold CancelDue at hdue ⊢
      revert hdue
      cases s.phase with
      | cancelling todo all =>
        rintro (htodo | hst)
        · exact Or.inr (Or.inl htodo)
        · exact (hstoring hst).imp_right Or.inr
      | _ => exact fun hdue => Or.inr hdue

lemma not_storing (h : Sched.Custody s.sched) (hrun : s.sched.running θ = some s.owner) : ¬ Storing s c := by
  rintro ⟨ψ, hloop, hop⟩
  obtain ⟨hloop', hop'⟩ := running_iff.mp hrun
  have heq := running_unique h hloop' hloop
  rw [heq, hop'] at hop
  cases hop

section

variable (h : Lifetime s)

include h

lemma Lifetime.setPhase {p : Phase} {g : List TaskId}
    (hopen : s.phase ≠ .unopened) (hafter : s.phase.afterBody)
    (hparked : ∀ rest, p = .parked rest → Uncancellable (s.sched.tasks s.owner).code)
    (hacc : ∀ c ∈ s.started, Accounted s c → finished s c ∨ Accounted { s with phase := p, group := g } c)
    (hdue : s.failed → ∀ c ∈ s.left, CancelDue s c → (s.sched.tasks c).cancelled ∨
      CancelDue { s with phase := p, group := g } c) :
    Lifetime { s with phase := p, group := g } where
  owner := fun _ => h.owner hopen
  spawned := h.spawned
  accounted := fun c hc => (h.accounted c hc).elim Or.inl (hacc c hc)
  added := fun _ => h.added hafter
  due := fun _ hfailed c hc => (h.due hafter hfailed c hc).elim Or.inl (hdue hfailed c hc)
  left := h.left
  parked := hparked

lemma Lifetime.start (hc : Sched.Custody s.sched)
    (hphase : s.phase = .body) (hspawn : Sched.stepCall s.sched θ .spawn = some r) :
    Lifetime { s with
      sched := r
      adding := (t, s.sched.nextTask) :: s.adding
      started := s.sched.nextTask :: s.started } := by
  have hstep : Sched.Step s.sched (.call θ .spawn) r := .call (Sched.stepCall_cases hspawn)
  have h' := h.sched hstep (by simp [hphase])
  have hnew : r.Spawned s.sched.nextTask := by
    have hfirst := hc.first
    obtain ⟨-, rfl⟩ := of_guard hspawn
    exact ⟨hfirst.le, Nat.lt_succ_self _⟩
  refine ⟨h'.owner, ?_, ?_, ?_, ?_, h'.left, ?_⟩
  · intro c hmem
    rcases mem_cons.mp hmem with rfl | hmem
    · exact hnew
    · exact h'.spawned c hmem
  · intro c hmem
    rcases mem_cons.mp hmem with rfl | hmem
    · refine Or.inr ?_
      simp only [Accounted, hphase]
      exact Or.inr ⟨t, mem_cons_self⟩
    · refine (h'.accounted c hmem).imp_right fun hacc => ?_
      simp only [Accounted, hphase] at hacc ⊢
      exact hacc.imp_right (Exists.imp fun u hu => mem_cons_of_mem _ hu)
  · simp [hphase, Phase.afterBody]
  · simp [hphase, Phase.afterBody]
  · simp [hphase]

lemma Lifetime.add {gone : List TaskId} (hadding : (t, c) ∈ s.adding)
    (hgone : ∀ x ∈ gone, finished s x) :
    Lifetime { s with
      group := s.group.filter (fun x => !gone.contains x) ++ [c]
      adding := s.adding.erase (t, c) } := by
  have hbefore : s.phase.afterBody = false := by
    refine Bool.eq_false_iff.mpr fun hafter => ?_
    rw [h.added hafter] at hadding
    cases hadding
  refine ⟨h.owner, h.spawned, fun x hx => ?_, ?_, ?_, h.left, h.parked⟩
  · rcases h.accounted x hx with hfin | hacc
    · exact Or.inl hfin
    · by_cases hmem : x ∈ gone
      · exact Or.inl (hgone x hmem)
      · refine Or.inr ?_
        have hsplit : x ∈ s.group ∨ (∃ u, (u, x) ∈ s.adding) → x ∈ s.group.filter (fun x =>
            !gone.contains x) ++ [c] ∨ ∃ u, (u, x) ∈ s.adding.erase (t, c) := by
          rintro (hg | ⟨u, hu⟩)
          · exact Or.inl (by simp [hg, hmem])
          · by_cases heq : (u, x) = (t, c)
            · cases heq
              exact Or.inl (by simp)
            · exact Or.inr ⟨u, (mem_erase_of_ne heq).mpr hu⟩
        unfold Accounted at hacc ⊢
        revert hacc hbefore
        cases s.phase with
        | unopened | body => exact fun _ hacc => hsplit hacc
        | _ => exact fun hb => by cases hb
  · simp [hbefore]
  · simp [hbefore]

/-- Cancelling the next task of the list starts with the store that sets its flag. -/
theorem Lifetime.cancel {todo all : List TaskId}
    (hphase : s.phase = .cancelling (c :: todo) all) (hrun : s.sched.running θ = some s.owner)
    (hcancel : Sched.stepCall s.sched θ (.cancel c) = some r) :
    Lifetime { s with sched := r, phase := .cancelling todo all } := by
  have hstep : Sched.Step s.sched (.call θ (.cancel c)) r := .call (Sched.stepCall_cases hcancel)
  have hnew : r.loop θ = .running s.owner ∧ r.op θ = .cancelStore c := by
    have hloop := (running_iff.mp hrun).1
    obtain ⟨-, rfl⟩ := of_guard hcancel
    exact ⟨hloop, by simp⟩
  refine (h.sched hstep (by simp [hphase])).setPhase (g := s.group) (by simp [hphase])
    (by simp [hphase, Phase.afterBody]) (by simp) (fun x _ hacc => ?_) fun _ x _ hdue => ?_
  · simp only [Accounted, hphase] at hacc
    exact Or.inr hacc
  · simp only [CancelDue, hphase, mem_cons] at hdue
    rcases hdue with (rfl | htodo) | hst
    · exact Or.inr (Or.inr ⟨θ, hnew⟩)
    · exact Or.inr (Or.inl htodo)
    · exact Or.inr (Or.inr hst)

variable {rest : List TaskId}

lemma Lifetime.park
    (hphase : s.phase = .waiting rest) (hrun : s.sched.running θ = some s.owner)
    (hbegin : Sched.stepCode s.sched θ s.owner (.begin false) (s.sched.tasks s.owner).code = some r) :
    Lifetime { s with sched := r, phase := .parked rest } := by
  have hstep : Sched.Step s.sched (.code θ (.begin false)) r :=
    Sched.step_cases (by simpa only [Sched.step, hrun] using hbegin)
  refine (h.sched hstep (by simp [hphase])).setPhase (g := s.group) (by simp [hphase])
    (by simp [hphase, Phase.afterBody]) (fun _ _ => ?_) (fun x _ hacc => ?_) fun _ x _ hdue => ?_
  · -- `wait_finished(false)` asks for a wait that is not cancellable
    generalize (s.sched.tasks s.owner).code = k at hbegin
    cases k with
    | user =>
      cases hbegin
      exact ⟨⟨s.sched.nextWait, false⟩, by simp [waitOf], rfl⟩
    | _ => cases hbegin
  · simp only [Accounted, hphase] at hacc
    exact Or.inr hacc
  · simp [CancelDue, hphase] at hdue

lemma Lifetime.unpark (hr : Sched.Reasons s.sched) (hphase : s.phase = .parked rest)
    (hrun : s.sched.running θ = some s.owner) (hcode : (s.sched.tasks s.owner).code = .reported w d woke)
    (hnext : Sched.stepCode s.sched θ s.owner .next (s.sched.tasks s.owner).code = some r) : Lifetime { s with
      sched := r, phase := .waiting (if woke = .cancelled then rest.tail else rest) } := by
  -- cancelling ends no wait of this kind, so the task waited for stays first on the list
  have hwoke : woke ≠ .cancelled := by
    rintro rfl
    obtain ⟨w', hw', hflag⟩ := h.parked rest hphase
    have hok := hr.tasks s.owner
    rw [hcode] at hw' hok
    cases hw'
    have hcancellable := (hok.2.2 rfl).1
    rw [hflag] at hcancellable
    cases hcancellable
  have hstep : Sched.Step s.sched (.code θ .next) r := Sched.step_cases (by simpa only [Sched.step, hrun] using hnext)
  rw [if_neg hwoke]
  have hwaiting : Lifetime { s with phase := .waiting rest } := by
    refine h.setPhase (g := s.group) (by simp [hphase]) (by simp [hphase, Phase.afterBody]) (by simp)
      (fun x _ hacc => ?_) fun _ x _ hdue => ?_
    · simp only [Accounted, hphase] at hacc
      exact Or.inr hacc
    · simp [CancelDue, hphase] at hdue
  exact hwaiting.sched hstep (by simp)

lemma Lifetime.taskStep (hc : Sched.Custody s.sched) (hr : Sched.Reasons s.sched) (hok : Orderly s l)
    (hrun : s.sched.running θ = some t) (hstep : TaskStep s θ t l s') : Lifetime s' := by
  cases hstep with
  | scope hphase =>
    refine ⟨fun _ => spawned_of_running hc hrun, h.spawned, fun c hmem => ?_, ?_, ?_, h.left, ?_⟩
    · simpa only [Accounted, hphase, finished] using h.accounted c hmem
    · simp [Phase.afterBody]
    · simp [Phase.afterBody]
    · simp
  | start hphase hspawn => exact h.start hc hok hspawn
  | add hadding hgone => exact h.add hadding hgone
  | bodyReturns hphase howner =>
    refine ⟨fun _ => h.owner (by simp [hphase]), h.spawned, fun c hmem => ?_, fun _ => hok,
      fun _ _ c hmem => ?_, fun c hmem => h.spawned c (mem_filter.mp hmem).1, by simp⟩
    · simpa only [Accounted, hphase, finished] using h.accounted c hmem
    · obtain ⟨hstarted, hunfinished⟩ := mem_filter.mp hmem
      rcases h.accounted c hstarted with hfin | hacc
      · rw [hfin] at hunfinished
        cases hunfinished
      · simp only [Accounted, hphase] at hacc
        refine Or.inr (hacc.resolve_right ?_)
        rintro ⟨u, hu⟩
        rw [show s.adding = [] from hok] at hu
        cases hu
  | takeFailed hphase howner hfailed =>
    have hnone := h.added (by simp [hphase, Phase.afterBody])
    refine h.setPhase (by simp [hphase]) (by simp [hphase, Phase.afterBody]) (by simp) ?_ ?_
    · intro c _ hacc
      simp only [Accounted, hphase, hnone] at hacc
      simpa [Accounted] using Or.inr (a := finished s c = true) hacc
    · intro _ c _ hdue
      simp only [CancelDue, hphase] at hdue
      exact Or.inr (Or.inl hdue)
  | take hphase howner hfailed =>
    have hnone := h.added (by simp [hphase, Phase.afterBody])
    refine h.setPhase (by simp [hphase]) (by simp [hphase, Phase.afterBody]) (by simp) ?_ ?_
    · intro c _ hacc
      simp only [Accounted, hphase, hnone] at hacc
      simpa [Accounted] using Or.inr (a := finished s c = true) hacc
    · intro hf
      rw [hfailed] at hf
      cases hf
  | @cancel c todo all r hphase howner hcancel =>
    cases howner
    exact h.cancel hphase hrun hcancel
  | @cancelled all hphase howner =>
    refine h.setPhase (g := s.group) (by simp [hphase]) (by simp [hphase, Phase.afterBody]) (by simp) ?_ ?_
    · intro c _ hacc
      simp only [Accounted, hphase] at hacc
      exact Or.inr hacc
    · intro _ c _ hdue
      simp only [CancelDue, hphase, not_mem_nil, false_or] at hdue
      exact absurd hdue (not_storing hc (howner ▸ hrun))
  | @finished c rest hphase howner hfinished =>
    refine h.setPhase (g := s.group) (by simp [hphase]) (by simp [hphase, Phase.afterBody]) (by simp) ?_ ?_
    · intro x _ hacc
      simp only [Accounted, hphase, mem_cons] at hacc
      rcases hacc with rfl | hacc
      · exact Or.inl hfinished
      · exact Or.inr hacc
    · intro _ x _ hdue
      simp [CancelDue, hphase] at hdue
  | park hphase howner hbegin =>
    cases howner
    exact h.park hphase hrun hbegin
  | unpark hphase howner hcode hnext =>
    cases howner
    exact h.unpark hr hphase hrun hcode hnext
  | leave hphase howner =>
    refine h.setPhase (g := s.group) (by simp [hphase]) (by simp [hphase, Phase.afterBody]) (by simp) ?_ ?_
    · intro x _ hacc
      simp [Accounted, hphase] at hacc
    · intro _ x _ hdue
      simp [CancelDue, hphase] at hdue

lemma Lifetime.schedStep
    (hallows : s.allows m) (hstep : Sched.step s.sched m = some r) :
    Lifetime { s with sched := r } := by
  refine h.sched (Sched.step_cases hstep) fun rest hphase => ?_
  have hun := h.parked rest hphase
  have howner := (h.owner (by simp [hphase])).2
  rcases (Sched.step_cases hstep).code_eq_or howner with heq | heq | ⟨θ, a, rfl, hloop⟩
  · rw [heq]
    exact hun
  · rw [heq]
    exact hun.resume
  · -- a step of the parked task itself is one of `park`
    simp only [State.allows, hloop, hphase, if_true] at hallows
    cases hrun : s.sched.running θ with
    | none =>
      simp only [Sched.step, hrun] at hstep
      cases hstep
    | some t =>
      have ht := (running_iff.mp hrun).1
      cases hloop.symm.trans ht
      simp only [Sched.step, hrun] at hstep
      exact hun.parks hallows hstep

end

lemma lifetime_initial : Lifetime initial := by
  refine ⟨?_, ?_, ?_, ?_, ?_, ?_, ?_⟩ <;> simp [initial, Phase.afterBody]

lemma lifetime_of_reachable (h : ReachableBy system Orderly s) : Lifetime s := by
  induction h with
  | start hinit =>
    cases hinit
    exact lifetime_initial
  | next hreach hok hstep ih =>
    have hsched := sched_reachable hreach
    rcases step_cases hstep with ⟨m, r, rfl, hallows, hr, rfl⟩ | ⟨θ, t, hrun, htask⟩
    · exact ih.schedStep hallows hr
    · exact ih.taskStep (Sched.custody_of_reachable hsched.reachable) (Sched.reasons_of_reachable hsched) hok hrun htask

/-! ## No task outlives the scope -/

/-- When `scope!` returns, every task started with its `spawn!` has finished, and if the body failed
those that were unfinished when it did have been cancelled. -/
theorem scope_not_outlived (h : Transition.ReachableBy system Orderly s) (hreturned : s.phase = .returned) :
    (∀ c ∈ s.started, (s.sched.tasks c).finished = true) ∧
      (s.failed = true → ∀ c ∈ s.left, (s.sched.tasks c).cancelled = true) := by
  have hlife := lifetime_of_reachable h
  refine ⟨fun c hc => ?_, fun hfailed c hc => ?_⟩
  · refine (hlife.accounted c hc).resolve_right ?_
    simp [Accounted, hreturned]
  · refine (hlife.due ?_ hfailed c hc).resolve_right ?_
    · simp [hreturned, Phase.afterBody]
    · simp [CancelDue, hreturned]

/-- Worker 0 takes the next task and resumes it. -/
def resumes : List Label := [.sched (.take (.worker 0) .pop), .sched (.loop (.worker 0))]

/-- The task on worker 0 opens the scope and starts task 2 in it. -/
def opens : List Label :=
  [.scope (.worker 0), .start (.worker 0), .sched (.op (.worker 0) false), .add (.worker 0) 2 []]

/-- `wait_finished` finds its task running and parks. -/
def parksIn : List Label :=
  [.look (.worker 0), .sched (.code (.worker 0) .next), .sched (.code (.worker 0) .next),
    .sched (.code (.worker 0) .next), .sched (.code (.worker 0) .next),
    .sched (.code (.worker 0) (.park none)), .sched (.code (.worker 0) .next),
    .sched (.code (.worker 0) .next), .sched (.code (.worker 0) .next), .sched (.loop (.worker 0))]

/-- The task on worker 0 returns and is finished, which wakes the task that waits for it. -/
def finishes : List Label :=
  [.sched (.code (.worker 0) .ret), .sched (.loop (.worker 0)), .sched (.loop (.worker 0)),
    .sched (.loop (.worker 0)), .sched (.call (.worker 0) (.wake 1 1)), .sched (.op (.worker 0) false),
    .sched (.op (.worker 0) false), .sched (.op (.worker 0) false), .sched (.op (.worker 0) false),
    .sched (.op (.worker 0) false)]

/-- The scope's task comes back from `park`, finds the task finished, and `scope!` returns. -/
def leaves : List Label :=
  [.sched (.code (.worker 0) (.removeTimer true)), .sched (.code (.worker 0) .next),
    .unpark (.worker 0), .look (.worker 0), .leave (.worker 0)]

/-- The body fails: task 2 is cancelled, and waited for. -/
def failingScope : List Label :=
  resumes ++ opens ++ [.bodyReturns (.worker 0) true, .take (.worker 0), .cancel (.worker 0),
      .sched (.op (.worker 0) false), .sched (.op (.worker 0) false), .cancel (.worker 0)] ++
    parksIn ++ resumes ++ finishes ++ resumes ++ leaves

/-- A scope whose body fails cancels its task and waits for it. -/
theorem scope_not_outlived_failing : ∃ s, Transition.ReachableBy system Orderly s ∧
    s.phase = .returned ∧ s.failed = true ∧ s.left = [2] ∧ (s.sched.tasks 2).finished = true ∧
    (s.sched.tasks 2).cancelled = true := by
  have hrun : (runBy system Orderly initial failingScope).isSome := by decide
  have hreach := ReachableBy.of_runBy (.start rfl) (Option.some_get hrun).symm
  obtain ⟨hfinished, hcancelled⟩ := scope_not_outlived hreach rfl
  exact ⟨_, hreach, rfl, rfl, rfl, hfinished 2 mem_cons_self, hcancelled rfl 2 mem_cons_self⟩

/-- The body returns with task 2 running, and the list taken is [2]. Then task 2 starts task 3 in the
scope, which goes on the emptied list. `scope!` returns when task 2 has finished, and task 3 has not. -/
def lateSpawn : List Label :=
  resumes ++ opens ++ [.bodyReturns (.worker 0) false, .take (.worker 0)] ++ parksIn ++ resumes ++
    [.start (.worker 0), .sched (.op (.worker 0) false), .add (.worker 0) 3 []] ++ finishes ++
    resumes ++ [.sched (.code (.worker 0) .yield), .sched (.loop (.worker 0)),
      .sched (.loop (.worker 0))] ++ resumes ++ leaves

/-- After `lateSpawn`, `scope!` has returned and task 3, started in it, has not finished. -/
theorem late_spawn_outlives : ∃ s, Transition.Reachable system s ∧ s.phase = .returned ∧
    3 ∈ s.started ∧ (s.sched.tasks 3).finished = false := by
  obtain ⟨s, hs, hp⟩ := exists_reachable_of_run system (s := initial) rfl lateSpawn
    (fun s => decide (s.phase = .returned ∧ 3 ∈ s.started ∧ (s.sched.tasks 3).finished = false)) (by decide)
  exact ⟨s, hs, of_decide_eq_true hp⟩

end RocNet.Scope
