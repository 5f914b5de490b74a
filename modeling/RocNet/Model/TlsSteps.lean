import RocNet.Model.Tls

/-!
# What each step of a TLS stream can do

The inversion of the step function of `Model.Tls`. Steps that only move a task on are grouped by where
it goes (`Moves`), and so are those that only release `inner` (`Exits`); the steps that change
something else with `inner` held are `SectionStep`.
-/

namespace RocNet.Tls

open Streams (DropStep dropGuards_cases dropGuards_none)
open Function Option Transition Bool

/-- Inside the handshake, past the check that it is still to be done. -/
def Section.shakes : Section → Bool
  | .running _ | .alert | .alertNow => true
  | _ => false

/-- The bytes that were read from the socket and are about to be kept. -/
def Section.hand : Section → Option Bytes
  | .store _ bytes => some bytes
  | _ => none

/-- In the loop of the handshake, or sending its alert. -/
def Section.goesOn : Section → Bool
  | .running _ | .alert | .alertNow | .handshakeNow _ _ => true
  | _ => false

/-! ## The kinds of steps -/

/-- A task goes on, and nothing else changes. -/
inductive Moves (S : ℕ) (s : State) : Op → Op → Prop
  | start (g : Goal) : Moves S s .none g.start
  | load (f : Load) : Moves S s (.load f) (f.next s.handshaken s.aborted)
  | sample (w : Want) : Moves S s (.sample w) (.wants w s.stream.watchers.nextId)
  | refused {u : ℕ} (hblocks : w.blocks = false) (hheld : s.stream.locked w.lock = some u) :
      Moves S s (.wants w first) w.refused
  | shake (hnot : s.handshaken = false) : Moves S s (.inside (.handshake g)) (.inside (.running g))
  | fail (g : Goal) : Moves S s (.reading g) (.leaving .done)
  | stored (g : Goal) (ended : Bool) :
      Moves S s (.stored g ended) (if ended then .inner (.eof g) else .leaving (.again g))
  | sent (w : Want) : Moves S s (.sending w []) w.sent
  | unlocked : Moves S s (.watching .added) (.watching (.unlocked s.handshaken))
  | busy (hheld : s.stream.locked (busyLock s.handshaken) = some u) :
      Moves S s (.watching .added) (.watching (.waiting false))
  | buffered (hs : Bool) : Moves S s (.watching (.inspecting hs)) (.watching (.found hs))
  | unbuffered (hcalm : s.buffered = false) : Moves S s (.watching (.inspecting hs)) (.watching (.probing hs))
  | ready (hs : Bool) : Moves S s (.watching (.probing hs)) (.watching (.found hs))

/-- A task releases `inner`, and nothing else changes. -/
inductive Exits (s : State) : Section → Op → Prop
  | handshaken (hdone : s.handshaken = true) : Exits s (.handshake g) (.leaving (.proceed g))
  | finished (next : After) : Exits s (.finished next) (.leaving next)
  | done (hx : x.hand = none) : Exits s x (.leaving .done)
  | again (hx : x.hand = none) (g : Goal) : Exits s x (.leaving (.again g))
  | send (g : Goal) : Exits s (.look g) (.sample (.send g))
  | read (hx : x = .look g ∨ x = .recheck g) (hcalm : s.buffered = false) : Exits s x (.reading g)
  | flush (g : Goal) : Exits s (.ask g) (.sample (.flush g))
  | recheck (g : Goal) : Exits s (.ask g) (.inner (.recheck g))
  | query : Exits s .query .none

/-- The steps of task `t` with `inner` held. -/
inductive SectionStep (S : ℕ) (s : State) (t : ℕ) : Section → State → Prop
  | exit (hexits : Exits s x o) : SectionStep S s t x (s.exit t o)
  | emit {x x' : Section} {y : Sockets.State} {drain : Bool} {count : ℕ} (hx : x.goesOn = true) (hx' : x'.goesOn = true)
      (hnot : x.shakes = true ∨ s.handshaken = false) (hstep : Sockets.step s.stream.sock (.attempt t S true drain) =
      some y) : SectionStep S s t x ((s.emit y count).setOp t (.inside x'))
  | absorb {x x' : Section} {y : Sockets.State} {drain : Bool} {bytes : Bytes} {d : Digest} (hx : x.goesOn = true)
      (hx' : x'.goesOn = true) (hnot : x.shakes = true ∨ s.handshaken = false)
      (hstep : Sockets.step s.stream.sock (.attempt t S false drain) = some y) : SectionStep S s t x
      ((s.absorb y bytes d).setOp t (.inside x'))
  | wait {x : Section} {y : Sockets.State} {d : Bool} (hx : x.shakes = true)
      (hstep : Sockets.step s.stream.sock (.observe S d) = some y) :
      SectionStep S s t x ((s.setSock y).setOp t (.inside x))
  | finish (next : After) (hx : x.goesOn = true) :
      SectionStep S s t x (s.setHandshaken.setOp t (.inside (.finished next)))
  | ended {x : Section} {y : Sockets.State} {drain : Bool} (hx : x.goesOn = true)
      (hstep : Sockets.step s.stream.sock (.attempt t S false drain) = some y) :
      SectionStep S s t x
        (((s.setSock y).setConn { s.conn with ended := true }).exit t (.leaving .done))
  | blocked {y : Sockets.State} {d : Bool} (hstep : Sockets.step s.stream.sock (.observe S d) = some y) :
      SectionStep S s t (.handshakeNow g progress) ((s.setSock y).exit t (.leaving (.again g)))
  | blockedIdle {y : Sockets.State} {d : Bool} (hstep : Sockets.step s.stream.sock (.observe S d) = some y) :
      SectionStep S s t (.handshakeNow g progress) (((s.setSock y).markIdle t).exit t (.leaving .done))
  | alerted {drain : Bool} {count : ℕ} (hstep : Sockets.step s.stream.sock (.attempt t S true drain) = some y) :
      SectionStep S s t .alertNow ((s.emit y count).exit t (.leaving .done))
  | returned (g : Goal) (rest : Bytes) (hrest : s.conn.plaintext = [] → rest = []) : SectionStep S s t (.tryRead g)
        ((s.setConn { s.conn with plaintext := rest }).exit t (.leaving .done))
  | idle (g : Goal) : SectionStep S s t (.tryRead g) ((s.markIdle t).exit t (.leaving (.fill g)))
  | feed {count : ℕ} {d : Digest} (hpending : s.pending ≠ []) :
      SectionStep S s t (.tryRead g) ((s.feed count d).setOp t (.inside (.tryRead g)))
  | fed {count : ℕ} {d : Digest} {next : After} (hnext : next = .done ∨ next = .fill g) (hpending : s.pending ≠ []) :
      SectionStep S s t (.tryRead g) ((s.feed count d).exit t (.leaving next))
  | store (g : Goal) (bytes : Bytes) :
      SectionStep S s t (.store g bytes) ((s.store bytes).exit t (.stored g bytes.isEmpty))
  | eof {next : After} (hnext : next = .done ∨ next = .again g) :
      SectionStep S s t (.eof g) ((s.setConn { s.conn with ended := true }).exit t (.leaving next))
  | flushed {y : Sockets.State} {drain : Bool} {count : ℕ}
      (hstep : Sockets.step s.stream.sock (.attempt t S true drain) = some y) :
      SectionStep S s t (.flush g) ((s.emit y count).exit t (.leaving (.again g)))
  | full (hfull : s.stream.sock.ready S true = false) (hready : s.stream.sock.ready S false = true) :
      SectionStep S s t (.flush g) ((s.markIdle t).exit t (.leaving .done))
  | fullEmpty {y : Sockets.State} (hfull : s.stream.sock.ready S true = false)
      (hstep : Sockets.step s.stream.sock (.observe S false) = some y) :
      SectionStep S s t (.flush g) (((s.setSock y).markIdle t).exit t (.leaving .done))
  | queued (w : Want) (queued : Bytes) : SectionStep S s t (.take w)
        ((s.setConn { s.conn with output := s.conn.output ++ queued }).exit t (.leaving .done))
  | taken (w : Want) (queued : Bytes) : SectionStep S s t (.take w)
        ((s.takeRecords queued).exit t (.sending w (s.conn.output ++ queued)))

/-- The steps of task `t` in the functions of the stream. -/
inductive TaskStep (S : ℕ) (s : State) (t : ℕ) : Label → State → Prop
  | move {o o' : Op} (hop : s.ops t = o) (hmoves : Moves S s o o') : TaskStep S s t l (s.setOp t o')
  | lock (hop : s.ops t = .wants w first) (hfree : s.stream.locked w.lock = none) :
      TaskStep S s t (.lock t) ((s.setStream (s.stream.lock w.lock t first)).setOp t w.taken)
  | lockInner (hop : s.ops t = .inner x) (hinner : s.inner = none) :
      TaskStep S s t (.lockInner t) (s.enter t (.inside x))
  | inside {s' : State} (hop : s.ops t = .inside x) (hstep : SectionStep S s t x s') : TaskStep S s t (.run t i) s'
  | readSome {i : Input} {y : Sockets.State} (hop : s.ops t = .reading g)
      (hstep : Sockets.step s.stream.sock (.attempt t S false i.drain) = some y) :
      TaskStep S s t (.run t i) ((s.readFrom y i.bytes).setOp t (.inner (.store g i.bytes)))
  | readBlocked {y : Sockets.State} (hop : s.ops t = .reading g)
      (hstep : Sockets.step s.stream.sock (.observe S false) = some y) :
      TaskStep S s t (.run t i) ((s.setSock y).setOp t (.reading g))
  | readIdle {y : Sockets.State} (hop : s.ops t = .reading g)
      (hstep : Sockets.step s.stream.sock (.observe S false) = some y) :
      TaskStep S s t (.run t i) (((s.setSock y).markIdle t).setOp t (.leaving .done))
  | interrupted (hop : s.ops t = .reading g) (hi : i.interrupted = true) :
      TaskStep S s t (.run t i) ((s.markIdle t).setOp t (.leaving .done))
  | writeSome {i : Input} {y : Sockets.State} (hop : s.ops t = .sending w bytes)
      (hstep : Sockets.step s.stream.sock (.attempt t S true i.drain) = some y) :
      TaskStep S s t (.run t i) ((s.writeTo y (bytes.take i.count)).setOp t (.sending w (bytes.drop i.count)))
  | writeBlocked {y : Sockets.State} (hop : s.ops t = .sending w bytes)
      (hstep : Sockets.step s.stream.sock (.observe S true) = some y) :
      TaskStep S s t (.run t i) ((s.setSock y).setOp t (.sending w bytes))
  | writeFails (hop : s.ops t = .sending w bytes) :
      TaskStep S s t (.run t i) (s.setWriteFailed.setOp t (.leaving .done))
  | drop (hop : s.ops t = .leaving next) (hdrop : DropStep s.stream t x) : TaskStep S s t (.drop t) (s.setStream x)
  | dropped (hop : s.ops t = .leaving next) (hdone : s.stream.waking t = [] ∧ s.stream.held t = []) :
      TaskStep S s t (.drop t) (s.setOp t next.op)
  -- `watch`
  | watch (hop : s.ops t = .none) (hcode : s.stream.sock.code t = .opened w io) :
      TaskStep S s t (.watch t) ((s.setStream (s.stream.register t w)).setOp t (.watching .added))
  | tryInner (hop : s.ops t = .watching (.unlocked hs)) (hinner : s.inner = none) :
      TaskStep S s t (.check t) (s.enter t (.watching (.inspecting hs)))
  | passed (hop : s.ops t = .watching (.unlocked hs)) (hinner : s.inner = some u) :
      TaskStep S s t (.check t) (s.setOp t (.watching (.waiting false)))
  | notReady (hop : s.ops t = .watching (.probing hs))
      (hstep : Sockets.step s.stream.sock (.observe S false) = some y) :
      TaskStep S s t (.check t) ((s.setSock y).exit t (.watching (.waiting s.conn.wantsWrite)))
  | found {id w : ℕ} (hop : s.ops t = .watching (.found hs)) (hreg : s.stream.registered t = some (id, w)) :
      TaskStep S s t (.check t) ((s.setStream (s.stream.unwatch t id)).exit t .none)
  | foundBusy (hop : s.ops t = .watching (.found hs)) (hheld : s.stream.locked (busyLock hs) = some u) :
      TaskStep S s t (.check t) (s.exit t (.watching (.waiting s.conn.wantsWrite)))
  | addIo (hop : s.ops t = .watching (.waiting b)) (hstep : Sockets.step s.stream.sock (.addIo t S false) = some y) :
      TaskStep S s t (.addIo t) ((s.setSock y).setOp t (.watching .joined))
  | unwatch {id w : ℕ} (hop : s.ops t = .watching .joined) (hreg : s.stream.registered t = some (id, w)) : TaskStep S s
      t (.unwatch t) ((s.setStream (s.stream.unwatch t id)).setOp t .none)

/-- The steps of the system. -/
inductive Step (S : ℕ) (s : State) : Label → State → Prop
  | sock (hallows : allows s l = true) (hstep : Sockets.step s.stream.sock l = some y) :
      Step S s (.sock l) (s.setSock y)
  | abort : Step S s .abort { s with aborted := true }
  | task (hon : (s.stream.sock.on t).isSome = true) (h : TaskStep S s t l s') : Step S s l s'

variable {S : ℕ} {s s' : State} {t : ℕ} {l : Label} {i : Input}

lemma TaskStep.ops (h : TaskStep S s t l s') : ∃ o, s'.ops = update s.ops t o := by
  cases h with
  | inside _ hstep => cases hstep <;> exact ⟨_, rfl⟩
  | drop _ _ => exact ⟨s.ops t, (update_eq_self t s.ops).symm⟩
  | _ => exact ⟨_, rfl⟩

/-! ## The step function takes no others -/

lemma setOp_self (hop : s.ops t = o) : s.setOp t o = s := by
  rw [State.setOp, ← hop, update_eq_self]

section Sections

lemma runHandshake_cases (hop : s.ops t = .inside (.running g)) (h : runHandshake S s t g i = some s') :
    SectionStep S s t (.running g) s' := by
  have hwait : ∀ {d : Bool} {y : Sockets.State}, Sockets.step s.stream.sock (.observe S d) = some y →
      SectionStep S s t (.running g) (s.setSock y) := by
    intro d y hstep
    have hself : (s.setSock y).ops t = .inside (.running g) := hop
    rw [← setOp_self hself]
    exact .wait rfl hstep
  unfold runHandshake at h
  split at h
  · cases h
    exact .exit (.done rfl)
  split at h
  · split at h
    · obtain ⟨y, hstep, rfl⟩ := map_eq_some_iff.mp h
      have hself : (s.emit y i.count).ops t = .inside (.running g) := hop
      rw [← setOp_self hself]
      exact .emit rfl rfl (.inl rfl) hstep
    · obtain ⟨y, hstep, rfl⟩ := map_eq_some_iff.mp h
      exact hwait hstep
  split at h
  · cases h
    exact .finish _ rfl
  split at h
  · obtain ⟨y, hstep, rfl⟩ := map_eq_some_iff.mp h
    split
    · exact .ended rfl hstep
    split
    · exact .absorb rfl rfl (.inl rfl) hstep
    · have hself : (s.absorb y i.bytes i.digest).ops t = .inside (.running g) := hop
      rw [← setOp_self hself]
      exact .absorb rfl rfl (.inl rfl) hstep
  · obtain ⟨y, hstep, rfl⟩ := map_eq_some_iff.mp h
    exact hwait hstep

lemma runAlert_cases (hop : s.ops t = .inside .alert) (h : runAlert S s t i = some s') :
    SectionStep S s t .alert s' := by
  unfold runAlert at h
  split at h
  · cases h
    exact .exit (.done rfl)
  split at h
  · obtain ⟨y, hstep, rfl⟩ := map_eq_some_iff.mp h
    have hself : (s.emit y i.count).ops t = .inside .alert := hop
    rw [← setOp_self hself]
    exact .emit rfl rfl (.inl rfl) hstep
  · obtain ⟨y, hstep, rfl⟩ := map_eq_some_iff.mp h
    have hself : (s.setSock y).ops t = .inside .alert := hop
    rw [← setOp_self hself]
    exact .wait rfl hstep

lemma blockedNow_cases (hstep : Sockets.step s.stream.sock (.observe S d) = some y) :
    SectionStep S s t (.handshakeNow g progress) (blockedNow (s.setSock y) t g progress) := by
  unfold blockedNow
  split
  · exact .blocked hstep
  · exact .blockedIdle hstep

lemma runHandshakeNow_cases (h : runHandshakeNow S s t g progress i = some s') :
    SectionStep S s t (.handshakeNow g progress) s' := by
  unfold runHandshakeNow at h
  split at h
  · cases h
    exact .exit (.again rfl g)
  next hnot =>
  have hnot' : s.handshaken = false := eq_false_iff.mpr hnot
  split at h
  · cases h
    exact .exit (.done rfl)
  split at h
  · split at h
    · obtain ⟨y, hstep, rfl⟩ := map_eq_some_iff.mp h
      exact .emit rfl rfl (.inr hnot') hstep
    · obtain ⟨y, hstep, rfl⟩ := map_eq_some_iff.mp h
      exact blockedNow_cases hstep
  split at h
  · cases h
    exact .finish _ rfl
  split at h
  · obtain ⟨y, hstep, rfl⟩ := map_eq_some_iff.mp h
    split
    · exact .ended rfl hstep
    split
    · exact .absorb rfl rfl (.inr hnot') hstep
    · exact .absorb rfl rfl (.inr hnot') hstep
  · obtain ⟨y, hstep, rfl⟩ := map_eq_some_iff.mp h
    exact blockedNow_cases hstep

lemma runAlertNow_cases (h : runAlertNow S s t i = some s') : SectionStep S s t .alertNow s' := by
  unfold runAlertNow at h
  split at h
  · obtain ⟨y, hstep, rfl⟩ := map_eq_some_iff.mp h
    exact .alerted hstep
  · cases h
    exact .exit (.done rfl)

lemma runTryRead_cases (hop : s.ops t = .inside (.tryRead g)) :
    SectionStep S s t (.tryRead g) (runTryRead s t g i) := by
  unfold runTryRead
  split
  · exact .returned g _ fun hnil => by rw [hnil, List.drop_nil]
  split
  · exact .exit (.done rfl)
  split
  · exact .idle g
  next hpending =>
  have hpending' : s.pending ≠ [] := by simpa using hpending
  split
  · exact .exit (.done rfl)
  split
  · exact .fed (.inl rfl) hpending'
  split
  · exact .fed (.inr rfl) hpending'
  · have hself : (s.feed i.count i.digest).ops t = .inside (.tryRead g) := hop
    rw [← setOp_self hself]
    exact .feed hpending'

/-- What `fill_by` and `fill_now` do once nothing is to be sent. -/
theorem runRecheck_exits (hx : x = .look g ∨ x = .recheck g) : ∃ o, Exits s x o ∧ runRecheck s t g = s.exit t o := by
  have hstore : x.hand = none := by
    rcases hx with rfl | rfl <;> rfl
  unfold runRecheck
  split
  · exact ⟨_, .again hstore g, rfl⟩
  split
  · exact ⟨_, .done hstore, rfl⟩
  split
  · exact ⟨_, .again hstore g, rfl⟩
  · refine ⟨_, .read hx ?_, rfl⟩
    simp_all [State.buffered]

lemma runLook_cases : SectionStep S s t (.look g) (runLook s t g) := by
  have hlook : runLook s t g = if s.conn.wantsWrite then s.exit t (.sample (.send g)) else runRecheck s t g := rfl
  rw [hlook]
  split
  · exact .exit (.send g)
  · obtain ⟨o, hexits, heq⟩ := runRecheck_exits (s := s) (t := t) (x := .look g) (.inl rfl)
    rw [heq]
    exact .exit hexits

lemma runRecheck_cases : SectionStep S s t (.recheck g) (runRecheck s t g) := by
  obtain ⟨o, hexits, heq⟩ := runRecheck_exits (s := s) (t := t) (x := .recheck g) (.inr rfl)
  rw [heq]
  exact .exit hexits

lemma runFlush_cases (h : runFlush S s t g i = some s') : SectionStep S s t (.flush g) s' := by
  unfold runFlush at h
  split at h
  · cases h
    exact .exit (.again rfl g)
  split at h
  · cases h
    exact .exit (.done rfl)
  split at h
  · obtain ⟨y, hstep, rfl⟩ := map_eq_some_iff.mp h
    exact .flushed hstep
  next hfull =>
  cases h
  split
  · next hready => exact .full (eq_false_iff.mpr hfull) hready
  · next hready =>
    exact .fullEmpty (eq_false_iff.mpr hfull) (by simp [Sockets.step, hready])

lemma runSection_cases (hop : s.ops t = .inside x) (h : runSection S s t i x = some s') :
    TaskStep S s t (.run t i) s' := by
  cases x with
  | handshake g =>
    cases h
    unfold runCheck
    split
    · next hdone => exact .inside hop (.exit (.handshaken hdone))
    · next hnot => exact .move hop (.shake (eq_false_iff.mpr hnot))
  | running g => exact .inside hop (runHandshake_cases hop h)
  | alert => exact .inside hop (runAlert_cases hop h)
  | alertNow => exact .inside hop (runAlertNow_cases h)
  | finished next =>
    cases h
    exact .inside hop (.exit (.finished next))
  | handshakeNow g progress => exact .inside hop (runHandshakeNow_cases h)
  | tryRead g =>
    cases h
    exact .inside hop (runTryRead_cases hop)
  | look g =>
    cases h
    exact .inside hop runLook_cases
  | ask g =>
    cases h
    unfold runAsk
    split
    · exact .inside hop (.exit (.flush g))
    · exact .inside hop (.exit (.recheck g))
  | recheck g =>
    cases h
    exact .inside hop runRecheck_cases
  | store g bytes =>
    cases h
    exact .inside hop (.store g bytes)
  | eof g =>
    cases h
    unfold runEof
    split
    · exact .inside hop (.eof (.inl rfl))
    · exact .inside hop (.eof (.inr rfl))
  | take w =>
    cases h
    simp only [runTake]
    split
    · exact .inside hop (.queued w _)
    · exact .inside hop (.taken w _)
  | flush g => exact .inside hop (runFlush_cases h)
  | query =>
    cases h
    exact .inside hop (.exit .query)

end Sections

lemma runReading_cases (hop : s.ops t = .reading g) (h : runReading S s t g i = some s') :
    TaskStep S s t (.run t i) s' := by
  unfold runReading at h
  split at h
  · cases h
    exact .move hop (.fail g)
  split at h
  · next hi =>
    cases h
    exact .interrupted hop (and_eq_true_iff.mp hi).2
  split at h
  · obtain ⟨y, hstep, rfl⟩ := map_eq_some_iff.mp h
    exact .readSome hop hstep
  · obtain ⟨y, hstep, rfl⟩ := map_eq_some_iff.mp h
    split
    · exact .readIdle hop hstep
    · have hself : (s.setSock y).ops t = .reading g := hop
      rw [← setOp_self hself]
      exact .readBlocked hop hstep

lemma runSending_cases (hop : s.ops t = .sending w bytes) (h : runSending S s t w bytes i = some s') :
    TaskStep S s t (.run t i) s' := by
  unfold runSending at h
  split at h
  · next hnil =>
    cases h
    obtain rfl := List.isEmpty_iff.mp hnil
    exact .move hop (.sent w)
  split at h
  · cases h
    exact .writeFails hop
  split at h
  · obtain ⟨y, hstep, rfl⟩ := map_eq_some_iff.mp h
    exact .writeSome hop hstep
  · obtain ⟨y, hstep, rfl⟩ := map_eq_some_iff.mp h
    have hself : (s.setSock y).ops t = .sending w bytes := hop
    rw [← setOp_self hself]
    exact .writeBlocked hop hstep

lemma check_cases {id w : ℕ} (hop : s.ops t = .watching x) (hreg : s.stream.registered t = some (id, w))
    (h : check S s t id x = some s') : TaskStep S s t (.check t) s' := by
  cases x <;> simp only [check] at h
  case added =>
    split at h
    · cases h
      exact .move hop .unlocked
    · next hheld =>
      cases h
      obtain ⟨u, hu⟩ := ne_none_iff_exists'.mp hheld
      exact .move hop (.busy hu)
  case unlocked hs =>
    split at h
    · next hinner =>
      cases h
      exact .tryInner hop hinner
    · next hinner =>
      cases h
      obtain ⟨u, hu⟩ := ne_none_iff_exists'.mp hinner
      exact .passed hop hu
  case inspecting hs =>
    split at h
    · cases h
      exact .move hop (.buffered hs)
    · next hcalm =>
      cases h
      exact .move hop (.unbuffered (eq_false_iff.mpr hcalm))
  case probing hs =>
    split at h
    · cases h
      exact .move hop (.ready hs)
    · obtain ⟨y, hstep, rfl⟩ := map_eq_some_iff.mp h
      exact .notReady hop hstep
  case found hs =>
    split at h
    · cases h
      exact .found hop hreg
    · next hheld =>
      cases h
      obtain ⟨u, hu⟩ := ne_none_iff_exists'.mp hheld
      exact .foundBusy hop hu
  case waiting b => cases h
  case joined => cases h

lemma run_cases (h : stepTask S s t (.run t i) = some s') : TaskStep S s t (.run t i) s' := by
  simp only [stepTask] at h
  split at h
  · split at h
    · next hop => exact runSection_cases hop h
    · next hop => exact runReading_cases hop h
    · next hop =>
      cases h
      exact .move hop (.stored _ _)
    · next hop => exact runSending_cases hop h
    · cases h
  · cases h

lemma stepTask_cases (hl : l.task = some t) (h : stepTask S s t l = some s') : TaskStep S s t l s' := by
  cases l <;> cases hl <;> simp only [stepTask] at h
  case start g =>
    obtain ⟨hguard, rfl⟩ := of_guard h
    exact .move hguard.1 (.start g)
  case load =>
    split at h
    · next hop =>
      cases h
      exact .move hop (.load _)
    · cases h
  case sample =>
    split at h
    · next hop =>
      cases h
      exact .move hop (.sample _)
    · cases h
  case lock =>
    split at h
    · next hop =>
      split at h
      · next hfree =>
        cases h
        exact .lock hop hfree
      next hheld =>
      split at h
      · cases h
      · next hblocks =>
        cases h
        obtain ⟨u, hu⟩ := ne_none_iff_exists'.mp hheld
        exact .move hop (.refused (eq_false_iff.mpr hblocks) hu)
    · cases h
  case lockInner =>
    split at h
    · next hop =>
      obtain ⟨hinner, rfl⟩ := of_guard h
      exact .lockInner hop hinner
    · cases h
  case run i =>
    exact run_cases h
  case drop =>
    split at h
    · next hop =>
      split at h
      · next hdrop =>
        cases h
        exact .drop hop (dropGuards_cases hdrop)
      · next hdone =>
        cases h
        exact .dropped hop (dropGuards_none hdone)
    · cases h
  case watch =>
    split at h
    · next hop hcode =>
      cases h
      exact .watch hop hcode
    · cases h
  case check =>
    split at h
    · next hop hreg => exact check_cases hop hreg h
    · cases h
  case addIo =>
    split at h
    · next hop =>
      obtain ⟨y, hstep, rfl⟩ := map_eq_some_iff.mp h
      exact .addIo hop hstep
    · cases h
  case unwatch =>
    split at h
    · next hop hreg =>
      obtain ⟨-, rfl⟩ := of_guard h
      exact .unwatch hop hreg
    · cases h

lemma step_cases (h : step S s l = some s') : Step S s l s' := by
  have htask : ∀ t, l.task = some t →
      (if (s.stream.sock.on t).isSome then stepTask S s t l else none) = some s' → Step S s l s' := by
    intro t hl hif
    split at hif
    · next hon => exact .task hon (stepTask_cases hl hif)
    · cases hif
  cases l with
  | sock l =>
    simp only [step] at h
    split at h
    · next hallows =>
      obtain ⟨y, hstep, rfl⟩ := map_eq_some_iff.mp h
      exact .sock hallows hstep
    · cases h
  | abort =>
    cases h
    exact .abort
  | start t g | load t | sample t | lock t | lockInner t | run t i | drop t | watch t | check t | addIo t
  | unwatch t => exact htask t rfl h

end RocNet.Tls
