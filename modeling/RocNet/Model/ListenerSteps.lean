import RocNet.Model.Listener
import RocNet.Model.ResourceSteps

/-!
# Listeners: the steps, taken apart

What a step can do, with what it found: the moves of a call that change nothing else (`Moves`), the returns
without a connection (`Ends`), and the steps of the whole system (`Step`).
-/

namespace RocNet.Listener

open Sched (TaskId Woke)
open Resource (Heap)
open Option Transition Bool

/-- A call goes from one place to another. -/
inductive Moves (s : State) (t : TaskId) (c : Call) : Place → Place → Prop
  | load (hclosed : s.closed = false) : Moves s t c .top .trying
  | refused {old : Bool} (hold : old = !s.replaced) : Moves s t c .trying (.settling e old)
  | waited (hcode : s.sock.code t = .free) : Moves s t c .waiting .woke
  | waitFailed (hcode : s.sock.code t = .free) : Moves s t c .waiting (.settling e !s.replaced)
  | woke (hclosed : s.closed = false) : Moves s t c .woke .trying
  | wokeClosed (hclosed : s.closed = true) : Moves s t c .woke (.settling .other false)
  | settle (hclosing : s.closing = none) : Moves s t c (.settling e old) (.settled e old)
  | again (hclosed : s.closed = false) : Moves s t c (.settled e old) .top
  | nap (hclosed : s.closed = false) : Moves s t c (.settled e old) .napping
  | napped : Moves s t c .napping .top

/-- A call returns, and whether with what the old socket gave. -/
inductive Ends (s : State) (t : TaskId) : Place → Outcome → Bool → Prop
  | closed (hplace : x = .top ∨ ∃ e old, x = .settled e old) (hclosed : s.closed = true) :
      Ends s t x .notConnected false
  | failed (hclosed : s.closed = false) : Ends s t (.settled e old) (.failed e) old
  | notReady (hclosed : s.closed = false) : Ends s t (.settled e old) .notReady old
  | cancelled (hcancelled : s.heap.cancelled t = true) : Ends s t .napping .cancelled false
  | undelivered : Ends s t .got (.failed .other) true

inductive Step (S : ℕ) (s : State) : Label → State → Prop
  | same (hreplaced : s.replaced = false) : Step S s l s
  | sock (hallow : allows S s m = true) (h : Sockets.step s.sock m = some y) : Step S s (.sock m) (s.setSock y)
  | grab (hfree : s.heap.free = i :: rest) : Step S s .grab (s.setHeap (s.heap.setFree rest))
  | give : Step S s (.give i) (s.setHeap (s.heap.freeSlot i))
  | cancel : Step S s (.cancel t) (s.setHeap (s.heap.cancel t))
  | claim {id w : ℕ} (hparked : s.heap.parked t = some (id, w)) (hcancelled : s.heap.cancelled t = true) :
      Step S s (.claim t) (s.setHeap (s.heap.setWaits (s.heap.waits.wake w .cancelled)))
  | begins {t : TaskId} {a : Option Bool} (hop : s.ops t = .none) (hcode : s.sock.code t = .free)
      (hlate : a = some true → s.shut = true) (hl : l.task = some t) : Step S s l (s.setOp t (.reserving a))
  | enterGot {t : TaskId} {a : Option Bool} {i : ℕ} {rest : List ℕ} (hop : s.ops t = .reserving a)
      (hfree : s.heap.free = i :: rest) (hl : l.task = some t) (hparked : s.heap.parked t = none) :
      Step S s l ((s.setHeap (s.heap.setFree rest)).setOp t (granted a i))
  | enterPark {t : TaskId} {a : Option Bool} (hop : s.ops t = .reserving a) (hparked : s.heap.parked t = none)
      (hfree : s.heap.free = []) (hl : l.task = some t) : Step S s l (s.setHeap (s.heap.park t))
  | relockGot {t : TaskId} {a : Option Bool} {i id w : ℕ} {rest : List ℕ} (hop : s.ops t = .reserving a)
      (hparked : s.heap.parked t = some (id, w)) (hfree : s.heap.free = i :: rest) (hl : l.task = some t) :
      Step S s l ((s.setHeap ((s.heap.unpark t id).setFree rest)).setOp t (granted a i))
  | relockPark {t : TaskId} {a : Option Bool} {id w : ℕ} (hop : s.ops t = .reserving a)
      (hparked : s.heap.parked t = some (id, w)) (hfree : s.heap.free = []) (hl : l.task = some t) :
      Step S s l (s.setHeap ((s.heap.unpark t id).park t))
  | relockCancelled {t : TaskId} {late : Bool} {id w : ℕ} (hop : s.ops t = .reserving (some late))
      (hparked : s.heap.parked t = some (id, w)) (hwait : s.heap.waits w = some (.claimed .cancelled))
      (hl : l.task = some t) :
      Step S s l (((s.setHeap (s.heap.unpark t id)).setOp t .none).report ⟨t, .cancelled, late, false⟩)
  | relockGivesUp {t : TaskId} {id w : ℕ} (hop : s.ops t = .reserving none) (hparked : s.heap.parked t = some (id, w))
      (hwait : s.heap.waits w = some (.claimed .cancelled)) (hl : l.task = some t) :
      Step S s l ((s.setHeap (s.heap.unpark t id)).setOp t .none)
  | poll {t : TaskId} {i : ℕ} {rest : List ℕ} (hop : s.ops t = .none) (hcode : s.sock.code t = .free)
      (hfree : s.heap.free = i :: rest) (hl : l.task = some t) :
      Step S s l ((s.setHeap (s.heap.setFree rest)).setOp t (.run ⟨.tryAccept, i, s.shut⟩ .top))
  | pollFull (hop : s.ops t = .none) (hfree : s.heap.free = []) :
      Step S s (.tryAccept t) (s.report ⟨t, .tooManySockets, s.shut, false⟩)
  | move {t : TaskId} {c : Call} {x x' : Place} (hop : s.ops t = .run c x) (h : Moves s t c x x')
      (hl : l.task = some t) : Step S s l (s.setOp t (.run c x'))
  | finish {t : TaskId} {c : Call} {x : Place} {o : Outcome} {old : Bool} (hop : s.ops t = .run c x)
      (h : Ends s t x o old) (hl : l.task = some t) : Step S s l (s.finish t c o old)
  | stream {t : TaskId} {c : Call} {last : Bool} {y : Sockets.State} (hop : s.ops t = .run c .trying)
      (hreplaced : s.replaced = false) (h : Sockets.step s.sock (.attempt t S false last) = some y)
      (hl : l.task = some t) : Step S s l ((s.setSock y).setOp t (.run c .got))
  | block {t : TaskId} {c : Call} {x : Place} {y : Sockets.State} (hop : s.ops t = .run c .trying)
      (hreplaced : s.replaced = false) (hready : s.sock.ready S false = false)
      (h : Sockets.step s.sock (.attempt t S false false) = some y)
      (hplace : x = .blocked ∨ x = .settling .wouldBlock true) (hl : l.task = some t) :
      Step S s l ((s.setSock y).setOp t (.run c x))
  | wait {t : TaskId} {c : Call} {y : Sockets.State} (hop : s.ops t = .run c .blocked)
      (h : Sockets.step s.sock (.waitIo t S false) = some y) (hl : l.task = some t) :
      Step S s l ((s.setSock y).setOp t (.run c .waiting))
  | deliver {t : TaskId} {c : Call} (hop : s.ops t = .run c .got) (hl : l.task = some t) : Step S s l (s.deliver t c)
  | close {t : TaskId} {a : ℕ} (hop : s.ops t = .none) (hcode : s.sock.code t = .free) (hon : s.sock.on t = some a)
      (hl : l.task = some t) : Step S s l (s.setOp t (.closing .locking))
  | lock {t : TaskId} (hop : s.ops t = .closing .locking) (hclosing : s.closing = none) (hl : l.task = some t) :
      Step S s l ((s.setClosing (some t)).setOp t (.closing .loading))
  | already {t : TaskId} (hop : s.ops t = .closing .loading) (hclosed : s.closed = true) (hl : l.task = some t) :
      Step S s l (s.closeDone t true)
  | load {t : TaskId} (hop : s.ops t = .closing .loading) (hclosed : s.closed = false) (hl : l.task = some t) :
      Step S s l (s.setOp t (.closing .replacing))
  | replace {t : TaskId} (hop : s.ops t = .closing .replacing) (hl : l.task = some t) : Step S s l (s.replace t S)
  | closeFails {t : TaskId} (hop : s.ops t = .closing .replacing) (hl : l.task = some t) :
      Step S s l (s.closeDone t false)
  | store {t : TaskId} (hop : s.ops t = .closing .storing) (hl : l.task = some t) : Step S s l (s.store t)
  | wake {t : TaskId} {y : Sockets.State} (hop : s.ops t = .closing .waking)
      (h : Sockets.step s.sock (.close S) = some y) (hl : l.task = some t) : Step S s l ((s.setSock y).closeDone t true)

variable {S : ℕ} {s s' : State} {t : TaskId} {c : Call} {x : Place} {l : Label}

lemma enter_step (hop : s.ops t = .reserving a) (hparked : s.heap.parked t = none) (hl : l.task = some t) :
    Step S s l (s.reserved t a (s.heap.reservePass t)) := by
  unfold Heap.reservePass
  cases hfree : s.heap.free with
  | nil =>
    rw [Resource.tryReserve_nil hfree]
    exact .enterPark hop hparked hfree hl
  | cons i rest =>
    rw [Resource.tryReserve_cons hfree]
    exact .enterGot hop hfree hl hparked

lemma relock_step (hop : s.ops t = .reserving a) (hl : l.task = some t)
    (hstep : (s.heap.relock t reported).map (s.reserved t a) = some s') : Step S s l s' := by
  obtain ⟨r, hrelock, rfl⟩ := map_eq_some_iff.mp hstep
  unfold Heap.relock at hrelock
  split at hrelock
  · next id w hparked =>
    obtain ⟨hwait, rfl⟩ := of_guard hrelock
    split
    · next hreported =>
      cases a with
      | some late => exact .relockCancelled hop hparked (hwait hreported) hl
      | none => exact .relockGivesUp hop hparked (hwait hreported) hl
    · unfold Heap.reservePass
      cases hfree : s.heap.free with
      | nil =>
        rw [Resource.tryReserve_nil (by simpa using hfree)]
        exact .relockPark hop hparked hfree hl
      | cons i rest =>
        rw [Resource.tryReserve_cons (i := i) (by simpa using hfree)]
        exact .relockGot hop hparked hfree hl
  · cases hrelock

lemma afterError_step (hop : s.ops t = .run c (.settled e old)) (hclosed : s.closed = false) (hl : l.task = some t) :
    Step S s l (afterError s t c e old) := by
  unfold afterError
  split
  · exact .move hop (.again hclosed) hl
  · exact .move hop (.again hclosed) hl
  · exact .move hop (.nap hclosed) hl
  · exact .finish hop (.notReady hclosed) hl
  · exact .finish hop (.failed hclosed) hl

lemma next_step (hop : s.ops t = .run c x) (hl : l.task = some t) (hstep : next s t c x = some s') :
    Step S s l s' := by
  cases x with
  | top =>
    cases hstep
    split
    · next hclosed => exact .finish hop (.closed (.inl rfl) hclosed) hl
    · next hclosed => exact .move hop (.load (eq_false_iff.mpr hclosed)) hl
  | woke =>
    cases hstep
    split
    · next hclosed => exact .move hop (.wokeClosed hclosed) hl
    · next hclosed => exact .move hop (.woke (eq_false_iff.mpr hclosed)) hl
  | settling e old =>
    obtain ⟨hclosing, rfl⟩ := of_guard hstep
    exact .move hop (.settle hclosing) hl
  | settled e old =>
    cases hstep
    split
    · next hclosed => exact .finish hop (.closed (.inr ⟨e, old, rfl⟩) hclosed) hl
    · next hclosed => exact afterError_step hop (eq_false_iff.mpr hclosed) hl
  | _ => cases hstep

lemma take_step (hop : s.ops t = .run c .trying) (hl : l.task = some t) (hstep : take S s t c y = some s') :
    Step S s l s' := by
  unfold take at hstep
  split at hstep
  · simp only [ite_none_right_eq_some, map_eq_some_iff] at hstep
    obtain ⟨⟨hreplaced, -⟩, y, h, rfl⟩ := hstep
    exact .stream hop hreplaced h hl
  · simp only [ite_none_right_eq_some, map_eq_some_iff] at hstep
    obtain ⟨⟨hreplaced, hready⟩, y, h, rfl⟩ := hstep
    refine .block hop hreplaced hready h ?_ hl
    split
    · exact .inl rfl
    · exact .inr rfl
  · simp only [ite_none_left_eq_some, Option.some.injEq] at hstep
    obtain ⟨hreplaced, rfl⟩ := hstep
    split
    · exact .same (eq_false_iff.mpr hreplaced)
    · exact .move hop (.refused (by simp [hreplaced])) hl
  · cases hstep
    exact .move hop (.refused rfl) hl

lemma closeNext_step (hop : s.ops t = .closing z) (hl : l.task = some t) (hstep : closeNext S s t ok z = some s') :
    Step S s l s' := by
  cases z with
  | locking =>
    obtain ⟨hclosing, rfl⟩ := of_guard hstep
    exact .lock hop hclosing hl
  | loading =>
    cases hstep
    split
    · next hclosed => exact .already hop hclosed hl
    · next hclosed => exact .load hop (eq_false_iff.mpr hclosed) hl
  | replacing =>
    cases hstep
    split
    · exact .replace hop hl
    · exact .closeFails hop hl
  | storing =>
    cases hstep
    exact .store hop hl
  | waking =>
    obtain ⟨y, h, rfl⟩ := map_eq_some_iff.mp hstep
    exact .wake hop h hl

lemma stepTask_step (hon : s.sock.on t = some a) (hl : l.task = some t) (hstep : stepTask S s t l = some s') :
    Step S s l s' := by
  cases l <;> cases hl <;> simp only [stepTask] at hstep
  case accept =>
    obtain ⟨⟨hop, hcode⟩, rfl⟩ := of_guard hstep
    exact .begins hop hcode (by simp) rfl
  case reserve =>
    obtain ⟨⟨hop, hcode⟩, rfl⟩ := of_guard hstep
    exact .begins hop hcode nofun rfl
  case enter =>
    split at hstep
    · next a hop =>
      obtain ⟨hparked, rfl⟩ := of_guard hstep
      exact enter_step hop hparked rfl
    · cases hstep
  case relock reported =>
    split at hstep
    · next a hop => exact relock_step hop rfl hstep
    · cases hstep
  case tryAccept =>
    obtain ⟨⟨hop, hcode⟩, hstep⟩ := ite_none_right_eq_some.mp hstep
    cases hfree : s.heap.free with
    | nil =>
      rw [Resource.tryReserve_nil hfree] at hstep
      cases hstep
      exact .pollFull hop hfree
    | cons i rest =>
      rw [Resource.tryReserve_cons hfree] at hstep
      cases hstep
      exact .poll hop hcode hfree rfl
  case next =>
    split at hstep
    · next hop => exact next_step hop rfl hstep
    · cases hstep
  case take y =>
    split at hstep
    · next hop => exact take_step hop rfl hstep
    · cases hstep
  case wait =>
    split at hstep
    · next hop =>
      obtain ⟨y, h, rfl⟩ := map_eq_some_iff.mp hstep
      exact .wait hop h rfl
    · cases hstep
  case waited e =>
    split at hstep
    · next hop =>
      obtain ⟨hcode, rfl⟩ := of_guard hstep
      cases e with
      | none => exact .move hop (.waited hcode) rfl
      | some e => exact .move hop (.waitFailed hcode) rfl
    · cases hstep
  case napped cancelled =>
    split at hstep
    · next hop =>
      obtain ⟨hcancelled, rfl⟩ := of_guard hstep
      split
      · next hreported => exact .finish hop (.cancelled (hcancelled hreported)) rfl
      · exact .move hop .napped rfl
    · cases hstep
  case deliver ok =>
    split at hstep
    · next hop =>
      cases hstep
      split
      · exact .deliver hop rfl
      · exact .finish hop .undelivered rfl
    · cases hstep
  case close =>
    obtain ⟨⟨hop, hcode⟩, rfl⟩ := of_guard hstep
    exact .close hop hcode hon rfl
  case closeNext ok =>
    split at hstep
    · next hop => exact closeNext_step hop rfl hstep
    · cases hstep

lemma step_cases (hstep : step S s l = some s') : Step S s l s' := by
  have htask : ∀ t, l.task = some t → (if (s.sock.on t).isSome then stepTask S s t l else none) = some s' →
      Step S s l s' := by
    intro t hl hstep
    simp only [ite_none_right_eq_some] at hstep
    obtain ⟨a, hon⟩ := isSome_iff_exists.mp hstep.1
    exact stepTask_step hon hl hstep.2
  cases l with
  | sock m =>
    simp only [step, ite_none_right_eq_some, map_eq_some_iff] at hstep
    obtain ⟨hallow, y, h, rfl⟩ := hstep
    exact .sock hallow h
  | grab =>
    obtain ⟨⟨i, h⟩, htake, rfl⟩ := map_eq_some_iff.mp hstep
    cases hfree : s.heap.free with
    | nil =>
      rw [Resource.tryReserve_nil hfree] at htake
      cases htake
    | cons j rest =>
      rw [Resource.tryReserve_cons hfree] at htake
      cases htake
      exact .grab hfree
  | give i =>
    cases hstep
    exact .give
  | cancel t =>
    cases hstep
    exact .cancel
  | claim t =>
    obtain ⟨h, hclaim, rfl⟩ := map_eq_some_iff.mp hstep
    unfold Heap.claim at hclaim
    split at hclaim
    · next id w hparked =>
      obtain ⟨hcancelled, rfl⟩ := of_guard hclaim
      exact .claim hparked hcancelled
    · cases hclaim
  | _ => exact htask _ rfl hstep

end RocNet.Listener
