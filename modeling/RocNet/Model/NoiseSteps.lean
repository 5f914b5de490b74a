import RocNet.Model.Noise

/-!
# What each step of a Noise stream can do

The inversion of the step function of `Model.Noise`, one constructor a step with its guard.
-/

namespace RocNet.Noise

open Option
open Streams (DropStep dropGuards_cases dropGuards_none)
open Transition

/-- The steps of task `t` in the functions of the stream. -/
inductive TaskStep (c : Cipher) (S : ℕ) (s : State) (t : ℕ) : Label → State → Prop
  | start (hop : s.ops t = .none) : TaskStep c S s t (.start t r) (s.setOp t (.wants r s.stream.watchers.nextId))
  | lock (hop : s.ops t = .wants r first) (hfree : s.stream.locked .read = none) :
      TaskStep c S s t (.lock t) ((s.setStream (s.stream.lock .read t first)).setOp t (.looking r))
  | giveUp (hop : s.ops t = .wants r first) : TaskStep c S s t (.lock t) (s.setOp t .none)
  | filled (hop : s.ops t = .looking .fillBy) : TaskStep c S s t (.look t) (s.setOp t .leaving)
  | unfilled (hop : s.ops t = .looking .fillBy) (hread : s.received.readable = false) :
      TaskStep c S s t (.look t) (s.setOp t (.filling .fillBy))
  | nothing {max : ℕ} {x : Received} (hop : s.ops t = .looking r) (hr : r = .read max ∨ r = .tryRead max)
      (hnext : s.received.next c max = (.ok none, x)) :
      TaskStep c S s t (.look t) ((s.setReceived x).setOp t (.filling r))
  | returned {max : ℕ} {bytes : Bytes} {x : Received} (hop : s.ops t = .looking r)
      (hr : r = .read max ∨ r = .tryRead max) (hnext : s.received.next c max = (.ok (some bytes), x)) :
      TaskStep c S s t (.look t) (((s.setReceived x).report (.ok bytes)).setOp t .leaving)
  | failed {max : ℕ} {e : ReadError} {x : Received} (hop : s.ops t = .looking r) (hr : r = .read max ∨ r = .tryRead max)
      (hnext : s.received.next c max = (.error e, x)) :
      TaskStep c S s t (.look t) (((s.setReceived x).report (.error e)).setOp t .leaving)
  | readSome {drain : Bool} {x : Sockets.State} (hop : s.ops t = .filling r)
      (hstep : Sockets.step s.stream.sock (.attempt t S false drain) = some x)
      (hready : s.stream.sock.ready S false = true) :
      TaskStep c S s t (.readSocket t bytes drain) ((s.takeIn x bytes).setOp t (.got r bytes))
  | blocked {x : Sockets.State} (hop : s.ops t = .filling r)
      (hstep : Sockets.step s.stream.sock (.observe S false) = some x) :
      TaskStep c S s t (.readSocket t bytes drain) (s.setStream (s.stream.setSock x))
  | idle {x : Sockets.State} (hop : s.ops t = .filling r)
      (hstep : Sockets.step s.stream.sock (.observe S false) = some x) :
      TaskStep c S s t (.readSocket t bytes drain) ((s.setStream ((s.stream.setSock x).markIdle t)).setOp t .leaving)
  | fail (hop : s.ops t = .filling r) : TaskStep c S s t (.fail t) (s.setOp t .leaving)
  | extend (hop : s.ops t = .got r bytes) :
      TaskStep c S s t (.extend t) ((s.setReceived (s.received.receive bytes)).setOp t (.looking r))
  | drop (hop : s.ops t = .leaving) (hdrop : DropStep s.stream t x) : TaskStep c S s t (.drop t) (s.setStream x)
  | dropped (hop : s.ops t = .leaving) (hdone : s.stream.waking t = [] ∧ s.stream.held t = []) :
      TaskStep c S s t (.drop t) (s.setOp t .none)
  -- `watch`
  | watch (hop : s.ops t = .none) (hcode : s.stream.sock.code t = .opened w io) :
      TaskStep c S s t (.watch t) ((s.setStream (s.stream.register t w)).setOp t (.watching .added))
  | free (hop : s.ops t = .watching .added) : TaskStep c S s t (.check t) (s.setOp t (.watching .unlocked))
  | busy (hop : s.ops t = .watching .added) (hheld : s.stream.locked .read = some u) :
      TaskStep c S s t (.check t) (s.setOp t (.watching .waiting))
  | readable (hop : s.ops t = .watching x) (hx : x ≠ .joined) :
      TaskStep c S s t (.check t) (s.setOp t (.watching .found))
  | unreadable (hop : s.ops t = .watching .unlocked) (hread : s.received.readable = false) :
      TaskStep c S s t (.check t) (s.setOp t (.watching .checked))
  | notReady (hop : s.ops t = .watching .checked) (hstep : Sockets.step s.stream.sock (.observe S false) = some x) :
      TaskStep c S s t (.check t) ((s.setStream (s.stream.setSock x)).setOp t (.watching .waiting))
  | found {id w : ℕ} (hop : s.ops t = .watching .found) (hreg : s.stream.registered t = some (id, w)) : TaskStep c S s t
      (.check t) ((s.setStream (s.stream.unwatch t id)).setOp t .none)
  | addIo (hop : s.ops t = .watching .waiting) (hstep : Sockets.step s.stream.sock (.addIo t S false) = some x) :
      TaskStep c S s t (.addIo t) ((s.setStream (s.stream.setSock x)).setOp t (.watching .joined))
  | unwatch {id w : ℕ} (hop : s.ops t = .watching .joined) (hreg : s.stream.registered t = some (id, w)) : TaskStep c S
      s t (.unwatch t) ((s.setStream (s.stream.unwatch t id)).setOp t .none)

/-- The steps of the system. -/
inductive Step (c : Cipher) (S : ℕ) (s : State) : Label → State → Prop
  | sock (hallows : allows s l = true) (hstep : Sockets.step s.stream.sock l = some x) :
      Step c S s (.sock l) (s.setStream (s.stream.setSock x))
  | task (hon : (s.stream.sock.on t).isSome = true) (h : TaskStep c S s t l s') : Step c S s l s'

/-! ## The step function takes no others -/

variable {c : Cipher} {S : ℕ} {s s' : State} {t : ℕ} {l : Label}

lemma look_cases (hop : s.ops t = .looking r) : TaskStep c S s t (.look t) (look c s t r) := by
  have hfound : ∀ {r : Reader} {max : ℕ}, s.ops t = .looking r → r = .read max ∨ r = .tryRead max →
      TaskStep c S s t (.look t) (look.found s t r (s.received.next c max)) := by
    intro r max hop hr
    match hnext : s.received.next c max with
    | (.ok none, x) => exact .nothing hop hr hnext
    | (.ok (some bytes), x) => exact .returned hop hr hnext
    | (.error e, x) => exact .failed hop hr hnext
  cases r with
  | read max => exact hfound hop (.inl rfl)
  | tryRead max => exact hfound hop (.inr rfl)
  | fillBy =>
    simp only [look]
    split
    · exact .filled hop
    · next hread => exact .unfilled hop (Bool.eq_false_iff.mpr hread)

lemma readSocket_cases (hop : s.ops t = .filling r) (h : readSocket S s t r bytes drain = some s') :
    TaskStep c S s t (.readSocket t bytes drain) s' := by
  unfold readSocket at h
  split at h
  · next hready =>
    obtain ⟨x, hstep, rfl⟩ := map_eq_some_iff.mp h
    exact .readSome hop hstep hready
  · obtain ⟨x, hstep, rfl⟩ := map_eq_some_iff.mp h
    split
    · exact .idle hop hstep
    · exact .blocked hop hstep

lemma check_cases {id w : ℕ} (hop : s.ops t = .watching x) (hreg : s.stream.registered t = some (id, w))
    (h : check S s t id x = some s') : TaskStep c S s t (.check t) s' := by
  cases x with
  | added =>
    simp only [check] at h
    split at h
    · cases h
      exact .free hop
    · next hheld =>
      cases h
      obtain ⟨u, hu⟩ := ne_none_iff_exists'.mp hheld
      exact .busy hop hu
  | unlocked =>
    simp only [check] at h
    split at h
    · cases h
      exact .readable hop nofun
    · next hread =>
      cases h
      exact .unreadable hop (Bool.eq_false_iff.mpr hread)
  | checked =>
    simp only [check] at h
    split at h
    · cases h
      exact .readable hop nofun
    · obtain ⟨y, hstep, rfl⟩ := map_eq_some_iff.mp h
      exact .notReady hop hstep
  | found =>
    cases h
    exact .found hop hreg
  | waiting | joined => cases h

lemma stepTask_cases (hl : l.task = some t) (h : stepTask c S s t l = some s') : TaskStep c S s t l s' := by
  cases l <;> cases hl <;> simp only [stepTask] at h
  case start r =>
    obtain ⟨hguard, rfl⟩ := of_guard h
    exact .start hguard.1
  case lock =>
    split at h
    · next r first hop =>
      split at h
      · next hfree =>
        cases h
        exact .lock hop hfree
      · obtain ⟨-, rfl⟩ := of_guard h
        exact .giveUp hop
    · cases h
  case look =>
    split at h
    · next hop =>
      cases h
      exact look_cases hop
    · cases h
  case readSocket bytes drain =>
    split at h
    · next hop =>
      split at h
      · exact readSocket_cases hop h
      · cases h
    · cases h
  case fail =>
    split at h
    · next hop =>
      obtain ⟨-, rfl⟩ := of_guard h
      exact .fail hop
    · cases h
  case extend =>
    split at h
    · next hop =>
      cases h
      exact .extend hop
    · cases h
  case drop =>
    split at h
    · next hop =>
      split at h
      · next hdrop =>
        cases h
        exact .drop hop (dropGuards_cases hdrop)
      · next hdone =>
        cases h
        exact .dropped hop (dropGuards_none hdone)
    · cases h
  case watch =>
    split at h
    · next hop hcode =>
      cases h
      exact .watch hop hcode
    · cases h
  case check =>
    split at h
    · next hop hreg => exact check_cases hop hreg h
    · cases h
  case addIo =>
    split at h
    · next hop =>
      obtain ⟨x, hstep, rfl⟩ := map_eq_some_iff.mp h
      exact .addIo hop hstep
    · cases h
  case unwatch =>
    split at h
    · next hop hreg =>
      obtain ⟨-, rfl⟩ := of_guard h
      exact .unwatch hop hreg
    · cases h

lemma step_cases (h : step c S s l = some s') : Step c S s l s' := by
  have htask : ∀ t, l.task = some t → (if (s.stream.sock.on t).isSome then stepTask c S s t l else none) = some s' →
      Step c S s l s' := by
    intro t hl hif
    split at hif
    · next hon => exact .task hon (stepTask_cases hl hif)
    · cases hif
  cases l with
  | sock l =>
    simp only [step] at h
    split at h
    · next hallows =>
      obtain ⟨x, hstep, rfl⟩ := map_eq_some_iff.mp h
      exact .sock hallows hstep
    · cases h
  | start t r | lock t | look t | readSocket t bytes drain | fail t | extend t | drop t | watch t
  | check t | addIo t | unwatch t => exact htask t rfl h

end RocNet.Noise
