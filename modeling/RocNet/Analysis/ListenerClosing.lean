import RocNet.Analysis.ResourceWaiting
import RocNet.Model.ListenerSteps
import RocNet.Model.SocketSteps

/-!
# Closing a listener

`closing` is held from before the socket is replaced until its waiters are woken (`Control`), so a call that failed on
the placeholder, and waits for `closing`, finds `closed` set after it.
-/

open Function Bool

namespace RocNet.Sockets

variable {s s' : State} {S : ℕ} {l : Label}

lemma closed_of_step (hstep : step s l = some s') (hclosed : s.closed S) : s'.closed S := by
  cases step_cases hstep with
  | task hon h => cases h <;> exact hclosed
  | @close T hlock =>
    by_cases hS : S = T
    · simp [hS]
    · simpa [hS] using hclosed
  | _ => exact hclosed

end RocNet.Sockets

namespace RocNet.Listener

open Sched (TaskId Woke)
open Resource (Heap HeapStep Registered)

variable {S : ℕ} {s s' : State} {t u : TaskId} {c : Call} {x : Place} {l : Label} {o : Op}

/-! ## The steps, seen from the heap and the socket -/

lemma Step.heapStep (h : Step S s l s') : HeapStep s.heap s'.heap := by
  cases h with
  | grab hfree | enterGot _ hfree | poll _ _ hfree => exact .take hfree
  | give | finish => exact .free
  | cancel => exact .cancel
  | claim hparked => exact .claim hparked
  | enterPark _ hparked hfree => exact .park hparked hfree
  | relockGot _ hparked hfree => exact .takeAgain hparked hfree
  | relockPark _ hparked hfree => exact .parkAgain hparked hfree
  | relockCancelled _ hparked hwait | relockGivesUp _ hparked hwait => exact .giveUp hparked hwait
  | deliver => exact .occupy
  | _ => exact .same

lemma Step.sock_cases (h : Step S s l s') :
    s'.sock = s.sock ∨ s'.sock = s.sock.replace S ∨ ∃ m, Sockets.step s.sock m = some s'.sock := by
  cases h with
  | sock _ h | stream _ _ h | block _ _ _ h | wait _ h | wake _ h => exact .inr (.inr ⟨_, h⟩)
  | replace => exact .inr (.inl rfl)
  | _ => exact .inl rfl

lemma Step.sock_closed (h : Step S s l s') (hclosed : s.sock.closed S) : s'.sock.closed S := by
  rcases h.sock_cases with hsame | hsame | ⟨m, hm⟩
  · rwa [hsame]
  · rw [hsame]
    exact hclosed
  · exact Sockets.closed_of_step hm hclosed

/-! ## Who holds `closing` -/

structure Control (S : ℕ) (s : State) : Prop where
  holder : ∀ t z, s.ops t = .closing z → z ≠ .locking → s.closing = some t
  held : ∀ t, s.closing = some t → ∃ z, s.ops t = .closing z ∧ z ≠ .locking
  replacing : ∀ t, s.ops t = .closing .replacing → s.replaced = false
  storing : ∀ t, s.ops t = .closing .storing → s.replaced = true ∧ s.closed = false
  waking : ∀ t, s.ops t = .closing .waking → s.closed = true ∧ s.shut = false
  replaced : s.replaced = true → s.closed = true ∨ ∃ t, s.ops t = .closing .storing
  closed : s.closed = true → s.replaced = true ∧ (s.shut = true ∨ ∃ t, s.ops t = .closing .waking)
  shut : s.shut = true → s.closed = true ∧ s.sock.closed S = true

variable {z : CloseStep}

lemma Control.unique (h : Control S s) (ht : s.ops t = .closing z) (hz : z ≠ .locking) (hu : s.ops u = .closing z')
    (hz' : z' ≠ .locking) : u = t := by
  have hholder := h.holder t z ht hz
  rw [h.holder u z' hu hz'] at hholder
  exact Option.some.inj hholder

lemma Control.frame (h : Control S s)
    (hops : ∀ u z, z ≠ .locking → (s'.ops u = .closing z ↔ s.ops u = .closing z))
    (hclosing : s'.closing = s.closing) (hreplaced : s'.replaced = s.replaced) (hclosed : s'.closed = s.closed)
    (hshut : s'.shut = s.shut) (hsock : s.sock.closed S → s'.sock.closed S) : Control S s' where
  holder := by
    intro u z hu hz
    rw [hclosing]
    exact h.holder u z ((hops u z hz).mp hu) hz
  held := by
    intro u hu
    rw [hclosing] at hu
    obtain ⟨z, hz, hne⟩ := h.held u hu
    exact ⟨z, (hops u z hne).mpr hz, hne⟩
  replacing := by
    intro u hu
    rw [hreplaced]
    exact h.replacing u ((hops u .replacing nofun).mp hu)
  storing := by
    intro u hu
    rw [hreplaced, hclosed]
    exact h.storing u ((hops u .storing nofun).mp hu)
  waking := by
    intro u hu
    rw [hclosed, hshut]
    exact h.waking u ((hops u .waking nofun).mp hu)
  replaced := by
    rw [hreplaced, hclosed]
    intro hr
    exact (h.replaced hr).imp_right fun ⟨u, hu⟩ => ⟨u, (hops u .storing nofun).mpr hu⟩
  closed := by
    rw [hclosed, hreplaced, hshut]
    intro hc
    obtain ⟨hr, hnext⟩ := h.closed hc
    exact ⟨hr, hnext.imp_right fun ⟨u, hu⟩ => ⟨u, (hops u .waking nofun).mpr hu⟩⟩
  shut := by
    rw [hshut, hclosed]
    intro hs
    exact ⟨(h.shut hs).1, hsock (h.shut hs).2⟩

lemma closing_update_iff (hold : ∀ z ≠ .locking, s.ops t ≠ .closing z) (hnew : ∀ z ≠ .locking, o ≠ .closing z)
    (u : TaskId) (z : CloseStep) (hz : z ≠ .locking) : update s.ops t o u = .closing z ↔ s.ops u = .closing z := by
  obtain rfl | hu := eq_or_ne u t
  · simp [hold z hz, hnew z hz]
  · simp [hu]

lemma granted_ne_closing (a : Option Bool) (i : ℕ) (z : CloseStep) : granted a i ≠ .closing z := by
  cases a <;> simp [granted]

section

variable (h : Control S s)

include h

lemma Control.update_iff (hop : s.ops t = .closing z) (hz : z ≠ .locking) (u : TaskId)
    (z' : CloseStep) (hz' : z' ≠ .locking) : update s.ops t o u = .closing z' ↔ u = t ∧ o = .closing z' := by
  obtain rfl | hu := eq_or_ne u t
  · simp
  · rw [update_of_ne hu]
    constructor
    · intro hother
      exact absurd (h.unique hop hz hother hz') hu
    · rintro ⟨rfl, -⟩
      exact absurd rfl hu

lemma Control.lock (hop : s.ops t = .closing .locking) (hclosing : s.closing = none) :
    Control S ((s.setClosing (some t)).setOp t (.closing .loading)) := by
  have hnobody : ∀ u z, z ≠ .locking → s.ops u ≠ .closing z := by
    intro u z hz hu
    rw [h.holder u z hu hz] at hclosing
    cases hclosing
  have hops : ∀ u z, z ≠ .locking → (update s.ops t (.closing .loading) u = .closing z ↔ u = t ∧ z = .loading) := by
    intro u z hz
    obtain rfl | hu := eq_or_ne u t
    · simp [eq_comm]
    · simp [hu, hnobody u z hz]
  have hclosed : s.closed → s.replaced ∧ s.shut := by
    intro hc
    obtain ⟨hr, hs | ⟨u, hu⟩⟩ := h.closed hc
    · exact ⟨hr, hs⟩
    · exact absurd hu (hnobody u .waking nofun)
  refine ⟨?_, ?_, ?_, ?_, ?_, ?_, ?_, h.shut⟩
  · intro u z hu hz
    obtain ⟨rfl, -⟩ := (hops u z hz).mp hu
    rfl
  · intro u hu
    obtain rfl : t = u := Option.some.inj hu
    exact ⟨.loading, by simp, nofun⟩
  · intro u hu
    cases ((hops u .replacing nofun).mp hu).2
  · intro u hu
    cases ((hops u .storing nofun).mp hu).2
  · intro u hu
    cases ((hops u .waking nofun).mp hu).2
  · intro hr
    rcases h.replaced hr with hc | ⟨u, hu⟩
    · exact .inl hc
    · exact absurd hu (hnobody u .storing nofun)
  · intro hc
    exact ⟨(hclosed hc).1, .inl (hclosed hc).2⟩

section

variable (hop : s.ops t = .closing z) (hz : z ≠ .locking)

include hop hz

/-- `close_now` returns, with the socket closed or as it was. -/
theorem Control.done (hreplaced : s.replaced → s.closed) (hclosed : s.closed → s.replaced ∧ (s.shut || ok))
    (hshut : (s.shut || ok) → s.closed ∧ y.closed S) : Control S ((s.setSock y).closeDone t ok) := by
  have hops : ∀ u z', z' ≠ .locking → update s.ops t .none u ≠ .closing z' := by
    intro u z' hz' hu
    cases ((h.update_iff hop hz u z' hz').mp hu).2
  refine ⟨?_, nofun, ?_, ?_, ?_, ?_, ?_, hshut⟩
  · intro u z' hu hz'
    exact absurd hu (hops u z' hz')
  · intro u hu
    exact absurd hu (hops u .replacing nofun)
  · intro u hu
    exact absurd hu (hops u .storing nofun)
  · intro u hu
    exact absurd hu (hops u .waking nofun)
  · intro hr
    exact .inl (hreplaced hr)
  · intro hc
    exact ⟨(hclosed hc).1, .inl (hclosed hc).2⟩

lemma Control.goOn (z' : CloseStep) (hz' : z' ≠ .locking) (hops : s'.ops = update s.ops t (.closing z'))
    (hclosing : s'.closing = s.closing) (hreplacing : z' = .replacing → s'.replaced = false)
    (hstoring : z' = .storing → s'.replaced ∧ s'.closed = false) (hwaking : z' = .waking → s'.closed ∧ s'.shut = false)
    (hreplaced : s'.replaced → s'.closed ∨ z' = .storing) (hclosed : s'.closed → s'.replaced ∧ z' = .waking)
    (hshut : s'.shut → s'.closed ∧ s'.sock.closed S) : Control S s' := by
  have hiff : ∀ u w, w ≠ .locking → (s'.ops u = .closing w ↔ u = t ∧ z' = w) := by
    intro u w hw
    rw [hops, h.update_iff hop hz u w hw, Op.closing.injEq]
  have hself : s'.ops t = .closing z' := (hiff t z' hz').mpr ⟨rfl, rfl⟩
  have hholder : s'.closing = some t := by rw [hclosing, h.holder t z hop hz]
  refine ⟨?_, ?_, ?_, ?_, ?_, ?_, ?_, hshut⟩
  · intro u w hu hw
    obtain ⟨rfl, -⟩ := (hiff u w hw).mp hu
    exact hholder
  · intro u hu
    rw [hholder] at hu
    obtain rfl : t = u := Option.some.inj hu
    exact ⟨z', hself, hz'⟩
  · intro u hu
    exact hreplacing ((hiff u .replacing nofun).mp hu).2
  · intro u hu
    exact hstoring ((hiff u .storing nofun).mp hu).2
  · intro u hu
    exact hwaking ((hiff u .waking nofun).mp hu).2
  · intro hr
    rcases hreplaced hr with hc | rfl
    · exact .inl hc
    · exact .inr ⟨t, hself⟩
  · intro hc
    obtain ⟨hr, rfl⟩ := hclosed hc
    exact ⟨hr, .inr ⟨t, hself⟩⟩

lemma Control.unreplaced (hnot : z ≠ .storing) (hclosed : s.closed = false) : s.replaced = false := by
  rw [← not_eq_true]
  intro hr
  rcases h.replaced hr with hc | ⟨u, hu⟩
  · rw [hclosed] at hc
    cases hc
  · obtain rfl := h.unique hop hz hu nofun
    rw [hop] at hu
    cases hu
    exact hnot rfl

end

lemma Control.not_shut (hclosed : s.closed = false) : s.shut = false := by
  rw [← not_eq_true]
  intro hs
  have hc := (h.shut hs).1
  rw [hclosed] at hc
  cases hc

lemma Control.updated (hold : ∀ z, s.ops t ≠ .closing z) (hnew : ∀ z ≠ .locking, o ≠ .closing z)
    (hops : s'.ops = update s.ops t o) (hclosing : s'.closing = s.closing)
    (hreplaced : s'.replaced = s.replaced) (hclosed : s'.closed = s.closed) (hshut : s'.shut = s.shut)
    (hsock : s.sock.closed S → s'.sock.closed S) : Control S s' := by
  refine h.frame ?_ hclosing hreplaced hclosed hshut hsock
  rw [hops]
  exact closing_update_iff (fun z _ => hold z) hnew

lemma Control.step (hstep : Step S s l s') : Control S s' := by
  have hsock := hstep.sock_closed
  cases hstep with
  | same => exact h
  | sock | grab | give | cancel | claim | enterPark | relockPark | pollFull =>
    exact h.frame (fun _ _ _ => Iff.rfl) rfl rfl rfl rfl hsock
  | enterGot hop | relockGot hop =>
    exact h.updated (by simp [hop]) (fun z _ => granted_ne_closing _ _ z) rfl rfl rfl rfl rfl hsock
  | close hop =>
    refine h.updated (by simp [hop]) ?_ rfl rfl rfl rfl rfl hsock
    rintro z hz heq
    exact hz (Op.closing.inj heq).symm
  | begins hop | relockCancelled hop | relockGivesUp hop | poll hop | move hop | finish hop | stream hop | block hop
  | wait hop | deliver hop =>
    exact h.updated (by simp [hop]) (by simp) rfl rfl rfl rfl rfl hsock
  | lock hop hclosing => exact h.lock hop hclosing
  | already hop hclosed =>
    have hshut : s.shut := by
      obtain ⟨-, hs | ⟨u, hu⟩⟩ := h.closed hclosed
      · exact hs
      · obtain rfl := h.unique hop nofun hu nofun
        rw [hop] at hu
        cases hu
    exact h.done (y := s.sock) hop nofun (fun _ => hclosed) (fun _ => ⟨(h.closed hclosed).1, by simp⟩)
      (fun _ => h.shut hshut)
  | load hop hclosed =>
    have hreplaced := h.unreplaced hop nofun nofun hclosed
    exact h.goOn hop nofun .replacing nofun rfl rfl (fun _ => hreplaced) nofun nofun (by simp [hreplaced])
      (by simp [hclosed]) h.shut
  | replace hop =>
    have hreplaced := h.replacing _ hop
    have hclosed : s.closed = false := by
      rw [← not_eq_true]
      intro hc
      rw [(h.closed hc).1] at hreplaced
      cases hreplaced
    exact h.goOn hop nofun .storing nofun rfl rfl nofun (fun _ => ⟨rfl, hclosed⟩) nofun (by simp) (by simp [hclosed])
      h.shut
  | closeFails hop =>
    have hreplaced := h.replacing _ hop
    have hclosed : s.closed → False := by
      intro hc
      rw [(h.closed hc).1] at hreplaced
      cases hreplaced
    refine h.done (y := s.sock) hop nofun (by simp [hreplaced]) (fun hc => (hclosed hc).elim) ?_
    intro hs
    exact h.shut (by simpa using hs)
  | store hop =>
    obtain ⟨hreplaced, hclosed⟩ := h.storing _ hop
    have hshut := h.not_shut hclosed
    exact h.goOn hop nofun .waking nofun rfl rfl nofun nofun (fun _ => ⟨rfl, hshut⟩) (by simp) (by simp [hreplaced])
      (by simp [hshut])
  | @wake _ t y hop hclose =>
    obtain ⟨hclosed, -⟩ := h.waking _ hop
    have hy : y.closed S := by
      obtain ⟨-, rfl⟩ := Transition.of_guard hclose
      simp
    exact h.done hop nofun (fun _ => hclosed) (fun _ => ⟨(h.closed hclosed).1, by simp⟩) (fun _ => ⟨hclosed, hy⟩)

end

lemma control_initial (capacity : ℕ) : Control S (initial capacity) := by
  constructor <;> simp [initial]

/-! ## Waits that ended by cancelling -/

/-- Only the waits of cancelled tasks end so. -/
def Cancelled (h : Heap) : Prop :=
  ∀ t id w, h.parked t = some (id, w) → h.waits w = some (.claimed .cancelled) → h.cancelled t = true

section Cancelled

variable {h : Heap} {id : ℕ}

lemma Cancelled.freeSlot (hc : Cancelled h) (i : ℕ) : Cancelled (h.freeSlot i) := by
  intro t id w hparked hwait
  apply hc t id w hparked
  rcases h.waiters.wakeOne_cases h.waits with ⟨-, -, hsame⟩ | ⟨a, -, -, hwoken, -⟩
  · rwa [Heap.freeSlot_waits, hsame] at hwait
  · rw [Heap.freeSlot_waits, hwoken, Waits.wake_apply] at hwait
    split at hwait
    · cases hwait
    · exact hwait

lemma Cancelled.claim (hc : Cancelled h) (hreg : Registered h) (hparked : h.parked t = some (id, w))
    (hcancelled : h.cancelled t) : Cancelled (h.setWaits (h.waits.wake w .cancelled)) := by
  intro u id' w' hu hwait
  rw [Heap.setWaits_waits, Waits.wake_apply] at hwait
  split at hwait
  · next heq =>
    obtain ⟨rfl, -⟩ := heq
    obtain rfl : u = t := hreg.sole u t _ _ _ hu hparked
    exact hcancelled
  · exact hc u id' w' hu hwait

lemma Cancelled.park (hc : Cancelled h) (hreg : Registered h) (t : TaskId) : Cancelled (h.park t) := by
  intro u id' w' hu hwait
  rcases Resource.parked_park_iff.mp hu with ⟨rfl, -, rfl⟩ | ⟨-, hu⟩
  · rw [Heap.park_waits, update_self] at hwait
    split at hwait
    · next hcancelled => exact hcancelled
    · cases hwait
  · rw [Resource.park_waits_of_lt (hreg.fresh u id' w' hu)] at hwait
    exact hc u id' w' hu hwait

lemma Cancelled.unpark (hc : Cancelled h) (t : TaskId) (id : ℕ) : Cancelled (h.unpark t id) := by
  intro u id' w' hu hwait
  exact hc u id' w' (Resource.parked_unpark_iff.mp hu).2 hwait

end Cancelled

lemma Cancelled.step (hc : Cancelled s.heap) (hreg : Registered s.heap) (hstep : Step S s l s') :
    Cancelled s'.heap := by
  cases hstep with
  | give | finish => exact hc.freeSlot _
  | @cancel t =>
    intro u id w hu hwait
    have hbefore := hc u id w hu hwait
    by_cases hut : u = t <;> simp [hut, hbefore]
  | claim hparked hcancelled => exact hc.claim hreg hparked hcancelled
  | enterPark => exact hc.park hreg _
  | @relockGot _ t _ _ id | @relockCancelled _ t _ id | @relockGivesUp _ t id => exact hc.unpark t id
  | relockPark _ hparked => exact (hc.unpark _ _).park (hreg.unpark hparked) _
  | _ => exact hc

lemma Step.cancelled (h : Step S s l s') (hcancelled : s.heap.cancelled u) : s'.heap.cancelled u := by
  cases h with
  | @cancel t => by_cases hut : u = t <;> simp [hut, hcancelled]
  | _ => exact hcancelled

/-! ## What calls return -/

/-- `NotConnected`, or what the old socket gave a call that began before the close, or what has nothing to do
with the listener. -/
def Report.Expected (h : Heap) (r : Report) : Prop :=
  r.outcome = .notConnected ∨ (r.old = true ∧ r.late = false) ∨ r.outcome = .tooManySockets ∨
    (r.outcome = .cancelled ∧ h.cancelled r.task = true)

/-- What there is to say of a task by where it is: a call that began after the close gets no further than
loading `closed`, and one that failed on the placeholder finds it set. -/
def OpOk (s : State) : Op → Prop
  | .run c x => (c.late = true → s.shut = true ∧ x = .top) ∧
      (∀ e, x = .settling e false → s.replaced = true) ∧ ∀ e, x = .settled e false → s.closed = true
  | .reserving a => a = some true → s.shut = true
  | _ => True

structure Answers (s : State) : Prop where
  ops : ∀ t, OpOk s (s.ops t)
  reports : ∀ r ∈ s.reports, r.Expected s.heap

lemma Step.flags (h : Step S s l s') : (s.replaced → s'.replaced) ∧ (s.closed → s'.closed) ∧ (s.shut → s'.shut) := by
  cases h <;> simp_all

lemma OpOk.mono (hok : OpOk s o) (hreplaced : s.replaced → s'.replaced)
    (hclosed : s.closed → s'.closed) (hshut : s.shut → s'.shut) : OpOk s' o := by
  cases o with
  | run c x =>
    obtain ⟨hlate, hsettling, hsettled⟩ := hok
    exact ⟨fun h => ⟨hshut (hlate h).1, (hlate h).2⟩, fun e h => hreplaced (hsettling e h),
      fun e h => hclosed (hsettled e h)⟩
  | reserving a => exact fun h => hshut (hok h)
  | none | closing z => trivial

lemma Report.Expected.mono {r : Report} (h : r.Expected s.heap) (hstep : Step S s l s') : r.Expected s'.heap := by
  rcases h with h | h | h | ⟨h, hcancelled⟩
  · exact .inl h
  · exact .inr (.inl h)
  · exact .inr (.inr (.inl h))
  · exact .inr (.inr (.inr ⟨h, hstep.cancelled hcancelled⟩))

lemma Answers.updated (h : Answers s) (hstep : Step S s l s') (hops : s'.ops = update s.ops t o)
    (ho : OpOk s' o) (hreports : ∀ r ∈ s'.reports, r ∈ s.reports ∨ r.Expected s'.heap) : Answers s' := by
  obtain ⟨hreplaced, hclosed, hshut⟩ := hstep.flags
  refine ⟨?_, ?_⟩
  · rw [hops, forall_update_iff s.ops fun _ o => OpOk s' o]
    exact ⟨ho, fun u _ => (h.ops u).mono hreplaced hclosed hshut⟩
  · intro r hr
    rcases hreports r hr with hbefore | hnew
    · exact (h.reports r hbefore).mono hstep
    · exact hnew

lemma Answers.same (h : Answers s) (hstep : Step S s l s') (hops : s'.ops = s.ops)
    (hreports : ∀ r ∈ s'.reports, r ∈ s.reports ∨ r.Expected s'.heap) : Answers s' := by
  refine h.updated (t := 0) (o := s.ops 0) hstep ?_ ?_ hreports
  · rw [hops, update_eq_self]
  · obtain ⟨hreplaced, hclosed, hshut⟩ := hstep.flags
    exact (h.ops 0).mono hreplaced hclosed hshut

lemma Moves.opOk {x' : Place} (h : Moves s t c x x') (hcontrol : Control S s) (hok : OpOk s (.run c x)) :
    OpOk s (.run c x') := by
  obtain ⟨hlate, hsettling, hsettled⟩ := hok
  have hclosed : c.late → s.closed := fun hl => (hcontrol.shut (hlate hl).1).1
  cases h with
  | load hopen =>
    refine ⟨?_, by simp, by simp⟩
    intro hl
    rw [hclosed hl] at hopen
    cases hopen
  | refused hold =>
    refine ⟨fun hl => absurd (hlate hl).2 nofun, ?_, by simp⟩
    intro e he
    cases he
    simpa using hold
  | waitFailed hcode =>
    refine ⟨fun hl => absurd (hlate hl).2 nofun, ?_, by simp⟩
    intro e he
    simp only [Place.settling.injEq, not_eq_false'] at he
    exact he.2
  | wokeClosed hc =>
    exact ⟨fun hl => absurd (hlate hl).2 nofun, fun _ _ => (hcontrol.closed hc).1, by simp⟩
  | settle hclosing =>
    refine ⟨fun hl => absurd (hlate hl).2 nofun, by simp, ?_⟩
    intro e he
    obtain ⟨rfl, rfl⟩ := Place.settled.inj he
    -- `closing` is free, so that the close that replaced the socket is over
    rcases hcontrol.replaced (hsettling _ rfl) with hc | ⟨u, hu⟩
    · exact hc
    · rw [hcontrol.holder u _ hu nofun] at hclosing
      cases hclosing
  | waited | woke | again | nap | napped => exact ⟨fun hl => absurd (hlate hl).2 nofun, by simp, by simp⟩

lemma Ends.expected {outcome : Outcome} {old : Bool} (h : Ends s t x outcome old) (hok : OpOk s (.run c x)) :
    (⟨t, outcome, c.late, old⟩ : Report).Expected s.heap := by
  obtain ⟨hlate, hsettling, hsettled⟩ := hok
  have hearly : x ≠ .top → c.late = false := by
    intro hx
    rw [← not_eq_true]
    exact fun hl => hx (hlate hl).2
  cases h with
  | closed => exact .inl rfl
  | @failed e old hclosed | @notReady e old hclosed =>
    right
    left
    refine ⟨?_, hearly nofun⟩
    cases old with
    | true => rfl
    | false =>
      rw [hsettled e rfl] at hclosed
      cases hclosed
  | cancelled hcancelled => exact .inr (.inr (.inr ⟨rfl, hcancelled⟩))
  | undelivered => exact .inr (.inl ⟨rfl, hearly nofun⟩)

lemma Answers.reports_append {r' : Report} {hp : Heap} (hnew : r'.Expected hp) (r : Report)
    (hr : r ∈ s.reports ++ [r']) : r ∈ s.reports ∨ r.Expected hp := by
  rcases List.mem_append.mp hr with hbefore | hself
  · exact .inl hbefore
  · cases List.mem_singleton.mp hself
    exact .inr hnew

lemma opOk_granted (hok : OpOk s (.reserving a)) (i : ℕ) : OpOk s (granted a i) := by
  cases a with
  | none => trivial
  | some late =>
    refine ⟨?_, by simp, by simp⟩
    rintro rfl
    exact ⟨hok rfl, rfl⟩

lemma Answers.step (h : Answers s) (hcontrol : Control S s) (hcancelled : Cancelled s.heap)
    (hstep : Step S s l s') : Answers s' := by
  have hkept := hstep
  have hold : ∀ {t o}, s.ops t = o → OpOk s o := by
    intro t o ho
    rw [← ho]
    exact h.ops t
  cases hstep with
  | same => exact h
  | sock | grab | give | cancel | claim | enterPark | relockPark => exact h.same hkept rfl fun _ => .inl
  | pollFull =>
    exact h.same hkept rfl (Answers.reports_append (.inr (.inr (.inl rfl))))
  | begins hop hcode hlate => exact h.updated hkept rfl hlate fun _ => .inl
  | enterGot hop | relockGot hop => exact h.updated hkept rfl (opOk_granted (hold hop) _) fun _ => .inl
  | @relockCancelled _ t late id w hop hparked hwait =>
    have hnew : (⟨t, .cancelled, late, false⟩ : Report).Expected (s.heap.unpark t id) :=
      .inr (.inr (.inr ⟨rfl, hcancelled t id w hparked hwait⟩))
    exact h.updated hkept rfl trivial (Answers.reports_append hnew)
  | relockGivesUp | close | lock | already | load | replace | closeFails | store | wake =>
    exact h.updated hkept rfl trivial fun _ => .inl
  | poll =>
    refine h.updated hkept rfl ⟨?_, by simp, by simp⟩ fun _ => .inl
    intro hl
    exact ⟨hl, rfl⟩
  | move hop hmoves => exact h.updated hkept rfl (hmoves.opOk hcontrol (hold hop)) fun _ => .inl
  | finish hop hends =>
    have hnew := (hends.expected (hold hop)).mono hkept
    exact h.updated hkept rfl trivial (Answers.reports_append hnew)
  | @stream _ t c _ _ hop | @wait _ t c _ hop =>
    obtain ⟨hlate, -, -⟩ := hold hop
    exact h.updated hkept rfl ⟨fun hl => absurd (hlate hl).2 nofun, by simp, by simp⟩ fun _ => .inl
  | @block _ t c x y hop hreplaced hready hattempt hplace =>
    obtain ⟨hlate, -, -⟩ := hold hop
    refine h.updated hkept rfl ⟨fun hl => absurd (hlate hl).2 nofun, ?_, ?_⟩ fun _ => .inl
    · rintro e rfl
      simp at hplace
    · rintro e rfl
      simp at hplace
  | @deliver _ t c hop =>
    obtain ⟨hlate, -, -⟩ := hold hop
    have hearly : c.late = false := by
      rw [← not_eq_true]
      exact fun hl => absurd (hlate hl).2 nofun
    have hnew : (⟨t, .accepted, c.late, true⟩ : Report).Expected (s.heap.occupy c.slot) := .inr (.inl ⟨rfl, hearly⟩)
    exact h.updated hkept rfl trivial (Answers.reports_append hnew)

/-! ## Every run -/

structure Closing (S : ℕ) (s : State) : Prop where
  registered : Registered s.heap
  promised : Resource.Promised s.heap
  cancelled : Cancelled s.heap
  control : Control S s
  answers : Answers s

lemma Closing.step (h : Closing S s) (hstep : Step S s l s') : Closing S s' where
  registered := h.registered.step hstep.heapStep
  promised := h.promised.step h.registered hstep.heapStep
  cancelled := h.cancelled.step h.registered hstep
  control := h.control.step hstep
  answers := h.answers.step h.control h.cancelled hstep

lemma closing_initial (capacity : ℕ) : Closing S (initial capacity) where
  registered := Resource.registered_new capacity
  promised := Resource.promised_new capacity
  cancelled := nofun
  control := control_initial capacity
  answers := ⟨fun _ => trivial, nofun⟩

end RocNet.Listener
