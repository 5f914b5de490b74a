import RocNet.Model.Channel

/-!
# What each step of a channel can do

`Step` lists the steps of `Channel.step` with the facts that hold when each is taken. A pass of the loops of send and
receive comes after taking the mutex (`SendEntry`, `ReceiveEntry`), and ends in one of four ways each.
-/

namespace RocNet.Channel

open Sched (TaskId WaitId Instant Woke)
open Function Transition Bool

/-! ## The two loops -/

/-- A send has the mutex and is about to look at the channel. -/
inductive SendEntry (s : State) (t : TaskId) (v : Value) : State → Prop
  | first (hop : s.ops t = .send v wait) : SendEntry s t v s
  | again {id : ℕ} {w : WaitId} (hop : s.ops t = .sendParked v id w) :
      SendEntry s t v (s.unpark t .sender id (.send v true))

inductive SendPass (s : State) (t : TaskId) (v : Value) : State → Prop
  | closed (hclosed : s.sendingClosed = true ∨ s.receiverGone = true) : SendPass s t v (s.setOp t (.leaving v .closed))
  | sent (hopen : s.sendingClosed = false) (hhere : s.receiverGone = false) (hroom : s.queue.length < s.capacity) :
      SendPass s t v (((s.enqueue v).valueAdded).setOp t .none)
  | full (hfull : s.capacity ≤ s.queue.length) : SendPass s t v (s.setOp t (.leaving v .full))
  | park (hopen : s.sendingClosed = false) (hhere : s.receiverGone = false) (hfull : s.capacity ≤ s.queue.length) :
      SendPass s t v (s.park t .sender (.sendParked v))

inductive ReceiveEntry (s : State) (t : TaskId) (deadline : Option Instant) : State → Prop
  | first (hop : s.ops t = .receive deadline) : ReceiveEntry s t deadline s
  | again {id : ℕ} {w : WaitId} (hop : s.ops t = .receiveParked deadline id w) :
      ReceiveEntry s t deadline (s.unpark t .receiver id (.receive deadline))

inductive ReceivePass (s : State) (t : TaskId) (deadline : Option Instant) : State → Prop
  | ok (hqueue : s.queue = v :: rest) : ReceivePass s t deadline (((s.setQueue rest).roomMade).returns t (.ok v))
  | closed (hqueue : s.queue = []) (hclosed : s.sendingClosed = true) : ReceivePass s t deadline (s.returns t .closed)
  | timedOut (hqueue : s.queue = []) : ReceivePass s t deadline (s.returns t .timedOut)
  | park (hqueue : s.queue = []) (hopen : s.sendingClosed = false) :
      ReceivePass s t deadline (s.park t .receiver (.receiveParked deadline))

/-! ## All steps -/

inductive Step (s : State) : State → Prop
  | same : Step s s
  | tick : Step s { s with now := s.now + 1 }
  | cancel : Step s { s with cancelled := update s.cancelled t true }
  | claim (hwait : (s.ops t).wait = some w) (hready : r = .ready → ∃ ws, s.ops t = .select w ws) :
      Step s (s.setWaits (s.waits.wake w r))
  | send (hop : s.ops t = .none) : Step s { s.setOp t (.send s.nextValue wait) with nextValue := s.nextValue + 1 }
  | receive (hop : s.ops t = .none) : Step s (s.setOp t (.receive deadline))
  | sendPass (hin : SendEntry s t v r) (hpass : SendPass r t v s') : Step s s'
  | receivePass (hin : ReceiveEntry s t deadline r) (hpass : ReceivePass r t deadline s') : Step s s'
  | sendCancelled {id : ℕ} {w : WaitId} (hop : s.ops t = .sendParked v id w)
      (hwait : s.waits w = some (.claimed .cancelled)) :
      Step s ((s.unpark t .sender id (.send v true)).setOp t (.leaving v .cancelled))
  | receiveCancelled {id : ℕ} {w : WaitId} (hop : s.ops t = .receiveParked deadline id w)
      (hwait : s.waits w = some (.claimed .cancelled)) :
      Step s ((s.unpark t .receiver id (.receive deadline)).returns t .cancelled)
  | leave {t : TaskId} {v : Value} {r : SendResult} (hop : s.ops t = .leaving v r) : Step s { s.setOp t .none with
        released := s.released ++ [v], results := update s.results v (some r) }
  | close : Step s (closeSending s)
  | releaseSender : Step s { closeSending s with senderReleased := true }
  | releaseReceiver (hhere : s.receiverGone = false) : Step s (dropReceiver s)
  | dropUndelivered : Step s { s with undelivered := [], released := s.released ++ s.undelivered }
  | select (hop : s.ops t = .none) : Step s ((s.beginWait t).setOp t (.select s.nextWait []))
  | watch (hop : s.ops t = .select w ws) (hhere : s.gone e = false) (hready : ready s e = false) :
      Step s
        ((s.setList (.watchers e) ((s.lists (.watchers e)).addWaker w)).setOp t (.select w ((e, (s.lists (.watchers
        e)).nextId) :: ws)))
  | abandon (hop : s.ops t = .select w ws) (hwait : s.waits w = none) :
      Step s (s.setWaits (update s.waits w (some .abandoned)))
  | unwatch {id : ℕ} (hop : s.ops t = .select w ws) (hmem : (e, id) ∈ ws) :
      Step s ((s.setList (.watchers e) ((s.lists (.watchers e)).remove id)).setOp t (.select w (ws.erase (e, id))))
  | selected (hop : s.ops t = .select w []) : Step s (s.setOp t .none)

/-! ## The step function takes no others -/

variable {s s' r : State} {t : TaskId} {v : Value} {deadline : Option Instant}

lemma SendEntry.op (h : SendEntry s t v r) : ∃ wait, r.ops t = .send v wait := by
  cases h with
  | first hop => exact ⟨_, hop⟩
  | again _ => exact ⟨true, by simp⟩

lemma sendPass_cases (s : State) (t : TaskId) (v : Value) (wait : Bool) : SendPass s t v (sendPass s t v wait) := by
  unfold sendPass
  split
  · next hclosed => exact .closed hclosed
  · next hopen =>
    obtain ⟨hopen, hhere⟩ := not_or.mp hopen
    split
    · next hroom => exact .sent (eq_false_iff.mpr hopen) (eq_false_iff.mpr hhere) hroom
    · next hfull =>
      split
      · exact .full (not_lt.mp hfull)
      · exact .park (eq_false_iff.mpr hopen) (eq_false_iff.mpr hhere) (not_lt.mp hfull)

lemma ReceiveEntry.op (h : ReceiveEntry s t deadline r) : r.ops t = .receive deadline := by
  cases h with
  | first hop => exact hop
  | again _ => simp

lemma receivePass_cases (s : State) (t : TaskId) (deadline : Option Instant) :
    ReceivePass s t deadline (receivePass s t deadline) := by
  unfold receivePass
  split
  · next hqueue => exact .ok hqueue
  · next hqueue =>
    split
    · next hclosed => exact .closed hqueue hclosed
    · next hopen =>
      split
      · exact .timedOut hqueue
      · exact .park hqueue (eq_false_iff.mpr hopen)

lemma relock_cases (h : relock s t reported = some s') : Step s s' := by
  unfold relock at h
  split at h
  · next v id w hop =>
    obtain ⟨hreported, rfl⟩ := of_guard h
    split
    · next hcancelled => exact .sendCancelled hop (hreported hcancelled)
    · exact .sendPass (.again hop) (sendPass_cases _ t v true)
  · next deadline id w hop =>
    obtain ⟨hreported, rfl⟩ := of_guard h
    split
    · next hcancelled => exact .receiveCancelled hop (hreported hcancelled)
    · exact .receivePass (.again hop) (receivePass_cases _ t deadline)
  · cases h

lemma stepSelect_cases (hop : s.ops t = .select w ws) (h : stepSelect s t w ws l = some s') : Step s s' := by
  cases l with
  | watch u e =>
    simp only [stepSelect] at h
    split at h
    · cases h
    · next hhere =>
      split at h
      · cases h
        exact .same
      · next hready =>
        cases h
        exact .watch hop (eq_false_iff.mpr hhere) (eq_false_iff.mpr hready)
  | abandon u =>
    simp only [stepSelect] at h
    cases h
    split
    · next hwait => exact .abandon hop hwait
    · exact .same
  | unwatch u e id =>
    obtain ⟨hmem, rfl⟩ := of_guard h
    exact .unwatch hop hmem
  | selected u =>
    obtain ⟨hnil, rfl⟩ := of_guard h
    exact .selected (hnil ▸ hop)
  | _ => cases h

lemma step_cases (h : step s l = some s') : Step s s' := by
  cases l with
  | tick =>
    cases h
    exact .tick
  | cancel t =>
    cases h
    exact .cancel
  | claim t r =>
    simp only [step] at h
    split at h
    · next w hwait =>
      obtain ⟨hmay, rfl⟩ := of_guard h
      refine .claim hwait ?_
      -- the channel alone tells plain waiters that something is ready
      rintro rfl
      cases hop : s.ops t with
      | select w' ws =>
        rw [hop] at hwait
        cases hwait
        exact ⟨ws, rfl⟩
      | _ => simp [mayClaim, hop] at hmay
    · cases h
  | send t wait =>
    obtain ⟨hguard, rfl⟩ := of_guard h
    exact .send hguard.1
  | receive t deadline =>
    obtain ⟨hguard, rfl⟩ := of_guard h
    exact .receive hguard.1
  | enter t =>
    simp only [step] at h
    split at h
    · next v wait hop =>
      cases h
      exact .sendPass (.first hop) (sendPass_cases s t v wait)
    · next deadline hop =>
      cases h
      exact .receivePass (.first hop) (receivePass_cases s t deadline)
    · cases h
  | relock t reported => exact relock_cases h
  | leave t =>
    simp only [step] at h
    split at h
    · next hop =>
      cases h
      exact .leave hop
    · cases h
  | close =>
    simp only [step] at h
    split at h
    · cases h
    · cases h
      exact .close
  | releaseSender =>
    simp only [step] at h
    split at h
    · cases h
    · cases h
      exact .releaseSender
  | releaseReceiver =>
    simp only [step] at h
    split at h
    · cases h
    · next hhere =>
      cases h
      exact .releaseReceiver (eq_false_iff.mpr hhere)
  | dropUndelivered =>
    cases h
    exact .dropUndelivered
  | select t =>
    obtain ⟨hop, rfl⟩ := of_guard h
    exact .select hop
  | watch t e | abandon t | unwatch t e id | selected t =>
    simp only [step] at h
    split at h
    · next hop => exact stepSelect_cases hop h
    · cases h

lemma Step.ops_eq (h : Step s s') : ∃ t o, s'.ops = update s.ops t o := by
  cases h with
  | same | tick | cancel | claim _ _ | close | releaseSender | releaseReceiver _ | dropUndelivered
  | abandon _ _ => exact ⟨0, s.ops 0, (update_eq_self 0 s.ops).symm⟩
  | send _ | receive _ | leave _ | select _ | watch _ _ _ | unwatch _ _ | selected _ => exact ⟨_, _, rfl⟩
  | sendCancelled _ _ | receiveCancelled _ _ => exact ⟨_, _, update_idem _ _ _⟩
  | sendPass hin hpass | receivePass hin hpass =>
    cases hin with
    | first _ => cases hpass <;> exact ⟨_, _, rfl⟩
    | again _ => cases hpass <;> exact ⟨_, _, update_idem _ _ _⟩

end RocNet.Channel
