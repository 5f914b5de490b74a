import RocNet.Model.Sockets

/-!
# What each step of waiting on sockets can do

The inversion of the step function of `Model.Sockets`, one constructor a step with its guard.
-/

namespace RocNet.Sockets

open Transition

/-- `watch_io` adds its waiter, and goes on holding the lock. -/
def State.begin (s : State) (t : ℕ) (k : Watch) (x : WatchStep) : State :=
  ((s.setWaiters k.socket (s.waiters k.socket ++ [k.waiter t])).setLock k.socket (some t)).setCode t
    (.watching k x)

/-- The steps of the code of task `t` on worker `a`. -/
inductive TaskStep (s : State) (t a : ℕ) : Label → State → Prop
  | yield (hcode : s.code t = .free) : TaskStep s t a (.yield t) ((s.setOn t none).setAct a .idle)
  | suspend (hcode : s.code t = .opened w io ∨ s.code t = .armed w io) :
      TaskStep s t a (.suspend t) (((s.setCode t (.asleep w io)).setOn t none).setAct a .idle)
  | succeed (hcode : s.code t = .free) (hready : s.ready S d = true) :
      TaskStep s t a (.attempt t S d drain) (s.setReady S d !drain)
  | block (hcode : s.code t = .free) (hready : s.ready S d = false) :
      TaskStep s t a (.attempt t S d drain) (s.setTried t ((S, d) :: s.tried t))
  | waitIo (hcode : s.code t = .free) (htried : (S, d) ∈ s.tried t) :
      TaskStep s t a (.waitIo t S d)
        ((State.setWait { s with nextWait := s.nextWait + 1 } t s.nextWait).setCode t (.entering ⟨s.nextWait, false, S,
        d, []⟩))
  | beginMultiWait (hcode : s.code t = .free) :
      TaskStep s t a (.beginMultiWait t) ((State.setWait { s with nextWait := s.nextWait + 1 } t
        s.nextWait).setCode t (.opened s.nextWait []))
  | addIo {io : List ℕ} (hcode : s.code t = .opened w io) :
      TaskStep s t a (.addIo t S d) (s.setCode t (.entering ⟨w, true, S, d, io⟩))
  | abandon {io : List ℕ} (hcode : s.code t = .opened w io ∨ s.code t = .failed w io) :
      TaskStep s t a (.abandon t) ((s.setWait t n).setCode t (.forgetting w io))
  -- `watch_io`, taking the lock: the socket is closed; is watched here; elsewhere, with others
  -- waiting; elsewhere for nobody else; nowhere, or by a worker that has no slot yet
  | closedWait {ok : Bool} (hcode : s.code t = .entering k) (hmulti : k.multi = false) :
      TaskStep s t a (.watch t ok) ((s.setWait t n).setCode t .free)
  | closedAdd (hcode : s.code t = .entering k) (hmulti : k.multi = true) :
      TaskStep s t a (.watch t ok) (s.setCode t k.refused)
  | mine (hcode : s.code t = .entering k) (hlock : s.lock k.socket = none) (howner : s.owner k.socket = some a) :
      TaskStep s t a (.watch t ok) ((s.setWaiters k.socket (s.waiters k.socket ++ [k.waiter t])).setCode t k.added)
  | shared (hcode : s.code t = .entering k) (hlock : s.lock k.socket = none) (howner : s.owner k.socket = some b) :
      TaskStep s t a (.watch t ok) (s.begin t k (.rearm b))
  | alone {ok : Bool} (hcode : s.code t = .entering k) (hlock : s.lock k.socket = none)
      (hwaiters : s.waiters k.socket = []) : TaskStep s t a (.watch t ok) (s.begin t k (.deregister b))
  | unowned (hcode : s.code t = .entering k) (hlock : s.lock k.socket = none) :
      TaskStep s t a (.watch t ok) (s.begin t k .register)
  | rearmed (hcode : s.code t = .watching k (.rearm b)) (hreg : s.registered b k.socket = true) :
      TaskStep s t a (.watch t ok) (((s.arm b k.socket).setLock k.socket none).setCode t k.added)
  | notRearmed (hcode : s.code t = .watching k (.rearm b)) (hfails : ¬ (ok && s.registered b k.socket) = true) :
      TaskStep s t a (.watch t ok) ((s.setLock k.socket none).setCode t k.refused)
  | deregistered (hcode : s.code t = .watching k (.deregister b)) :
      TaskStep s t a (.watch t ok) ((s.disarm b k.socket).setCode t (.watching k .register))
  | notDeregistered (hcode : s.code t = .watching k (.deregister b)) :
      TaskStep s t a (.watch t ok) (s.setCode t (.watching k .register))
  | alreadyExists (hcode : s.code t = .watching k .register) (hreg : s.registered a k.socket = true) :
      TaskStep s t a (.watch t ok) (s.setCode t (.watching k .reregister))
  | registered (hcode : s.code t = .watching k .register) :
      TaskStep s t a (.watch t ok) (((s.setRegistered a k.socket true).arm a k.socket).setCode t (.watching k .store))
  | reregistered (hcode : s.code t = .watching k .reregister) :
      TaskStep s t a (.watch t ok) ((s.arm a k.socket).setCode t (.watching k .store))
  | notRegistered (hcode : s.code t = .watching k .register ∨ s.code t = .watching k .reregister) :
      TaskStep s t a (.watch t ok) (s.setCode t (.watching k .giveUp))
  | store (hcode : s.code t = .watching k .store) :
      TaskStep s t a (.watch t ok) (((s.setOwner k.socket (some a)).setLock k.socket none).setCode t k.added)
  | giveUp (hcode : s.code t = .watching k .giveUp) :
      TaskStep s t a (.watch t ok)
        ((((s.setOwner k.socket none).forget k.socket k.wait).setLock k.socket none).setCode t k.refused)
  | forgotten (hcode : s.code t = .forgetting w []) : TaskStep s t a (.forget t) (s.setCode t .free)
  | forget (hcode : s.code t = .forgetting w (S :: io)) (hlock : s.lock S = none) :
      TaskStep s t a (.forget t) ((s.forget S w).setCode t (.forgetting w io))

/-- The steps of the system. -/
inductive Step (s : State) : Label → State → Prop
  | task (hon : s.on t = some a) (h : TaskStep s t a l s') : Step s l s'
  | resume {a : ℕ} (hact : s.act a = .idle) (hon : s.on t = none) :
      Step s (.resume t a) ((((s.setTried t []).setCode t (s.code t).resumed).setOn t (some a)).setAct a (.running t))
  | claim : Step s (.claim t) (s.setWait t 0)
  | rise : Step s (.rise S d) (s.rise S d)
  | fall : Step s (.fall S d) (s.setReady S d false)
  | observe (hready : s.ready S d = false) : Step s (.observe S d) (s.observe S d)
  | collect (hact : s.act a = .idle) (hreports : Reports s a events) :
      Step s (.collect a events)
        ((s.setPending a fun S d => s.pending a S d && !events.any (·.socket == S)).setAct a (.handling events))
  | done (hact : s.act a = .handling []) : Step s (.handle a) (s.setAct a .idle)
  | handle (hact : s.act a = .handling (e :: todo)) (hlock : s.lock e.socket = none) :
      Step s (.handle a)
        ((s.setWaiters e.socket ((s.waiters e.socket).filter fun x => !e.hits x.writable)).setAct a (.waking e.socket
        (((s.waiters e.socket).filter fun x => e.hits x.writable).map fun x => (x.task, x.wait)) todo))
  | wokeAll (hact : s.act a = .waking S [] todo) : Step s (.wake a) (s.setAct a (.handling todo))
  | wake (hact : s.act a = .waking S ((t, w) :: woken) todo) :
      Step s (.wake a) ((s.setWait t (if s.wait t = w then 0 else s.wait t)).setAct a (.waking S woken todo))
  | close (hlock : s.lock S = none) : Step s (.close S) (s.close S)
  | publish : Step s (.publish a) { s with slot := Function.update s.slot a true }

/-! ## The step function takes no others -/

variable {s s' : State} {t a : ℕ} {k : Watch} {ok : Bool} {l : Label}

lemma enter_cases (hcode : s.code t = .entering k)
    (hlock : s.lock k.socket = none) : TaskStep s t a (.watch t ok) (enter s t a k) := by
  unfold enter
  split
  · split
    · next hmulti => exact .closedAdd hcode hmulti
    · next hmulti => exact .closedWait hcode (Bool.eq_false_iff.mpr hmulti)
  · dsimp only
    split
    · next howner => exact .mine hcode hlock howner
    · split
      · next b howner =>
        split
        · split
          · exact .shared hcode hlock howner
          · next hlen =>
            refine .alone hcode hlock ?_
            simpa using hlen
        · exact .unowned hcode hlock
      · exact .unowned hcode hlock

lemma watchStep_cases (hcode : s.code t = .watching k x) : TaskStep s t a (.watch t ok) (watchStep s t a k ok x) := by
  cases x with
  | rearm b =>
    simp only [watchStep]
    split
    · next hok => exact .rearmed hcode (Bool.and_eq_true _ _ ▸ hok).2
    · next hfails => exact .notRearmed hcode hfails
  | deregister b =>
    cases ok with
    | true => exact .deregistered hcode
    | false => exact .notDeregistered hcode
  | register =>
    simp only [watchStep]
    split
    · next hreg => exact .alreadyExists hcode hreg
    · split
      · exact .registered hcode
      · exact .notRegistered (.inl hcode)
  | reregister =>
    simp only [watchStep]
    split
    · exact .reregistered hcode
    · exact .notRegistered (.inr hcode)
  | store => exact .store hcode
  | giveUp => exact .giveUp hcode

lemma stepTask_cases (hl : l.task = some t) (h : stepTask s t a l = some s') : TaskStep s t a l s' := by
  cases l <;> cases hl <;> simp only [stepTask] at h
  case yield =>
    obtain ⟨hcode, rfl⟩ := of_guard h
    exact .yield hcode
  case suspend =>
    split at h
    · next hcode =>
      cases h
      exact .suspend (.inl hcode)
    · next hcode =>
      cases h
      exact .suspend (.inr hcode)
    · cases h
  case attempt S d drain =>
    split at h
    · next hcode =>
      split at h
      · next hready =>
        cases h
        exact .succeed hcode hready
      · next hready =>
        cases h
        exact .block hcode (Bool.eq_false_iff.mpr hready)
    · cases h
  case waitIo S d =>
    obtain ⟨hcode, rfl⟩ := of_guard h
    exact .waitIo hcode.1 hcode.2
  case beginMultiWait =>
    obtain ⟨hcode, rfl⟩ := of_guard h
    exact .beginMultiWait hcode
  case addIo S d =>
    split at h
    · next hcode =>
      cases h
      exact .addIo hcode
    · cases h
  case abandon =>
    split at h
    · next hcode =>
      cases h
      exact .abandon (.inl hcode)
    · next hcode =>
      cases h
      exact .abandon (.inr hcode)
    · cases h
  case watch ok =>
    split at h
    · next hcode =>
      obtain ⟨hlock, rfl⟩ := of_guard h
      exact enter_cases hcode hlock
    · next hcode =>
      cases h
      exact watchStep_cases hcode
    · cases h
  case forget =>
    split at h
    · next hcode =>
      cases h
      exact .forgotten hcode
    · next hcode =>
      obtain ⟨hlock, rfl⟩ := of_guard h
      exact .forget hcode hlock
    · cases h

lemma step_cases (h : step s l = some s') : Step s l s' := by
  have htask : ∀ t, l.task = some t → ((s.on t).bind fun a => stepTask s t a l) = some s' → Step s l s' := by
    intro t hl hbind
    obtain ⟨a, hon, hstep⟩ := Option.bind_eq_some_iff.mp hbind
    exact .task hon (stepTask_cases hl hstep)
  cases l with
  | resume t a =>
    obtain ⟨hguard, rfl⟩ := of_guard h
    exact .resume hguard.1 hguard.2
  | claim t =>
    cases h
    exact .claim
  | rise S d =>
    cases h
    exact .rise
  | fall S d =>
    cases h
    exact .fall
  | observe S d =>
    simp only [step] at h
    split at h
    · cases h
    · next hready =>
      cases h
      exact .observe (Bool.eq_false_iff.mpr hready)
  | collect a events =>
    obtain ⟨hguard, rfl⟩ := of_guard h
    exact .collect hguard.1 hguard.2
  | handle a =>
    simp only [step] at h
    split at h
    · next hact =>
      cases h
      exact .done hact
    · next hact =>
      obtain ⟨hlock, rfl⟩ := of_guard h
      exact .handle hact hlock
    · cases h
  | wake a =>
    simp only [step] at h
    split at h
    · next hact =>
      cases h
      exact .wokeAll hact
    · next hact =>
      cases h
      exact .wake hact
    · cases h
  | close S =>
    obtain ⟨hlock, rfl⟩ := of_guard h
    exact .close hlock
  | publish a =>
    cases h
    exact .publish
  | yield t | suspend t | attempt t S d drain | waitIo t S d | beginMultiWait t | addIo t S d | abandon t
  | watch t ok | forget t => exact htask t rfl h

end RocNet.Sockets
