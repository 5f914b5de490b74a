import RocNet.Analysis.NoiseGuards

/-!
# A `Select` on a Noise stream does not sleep on what the stream holds

A watcher can rely on one of two things: that nothing was to be had when somebody last looked (`Quiet`), or that
somebody will wake it (`Streams.Covers`). `Safe` says that every `Select` that `watch` told to wait can.

What was received changes only while a task that is not idle holds the read lock, which covers everybody. A hold turns
idle when the socket is found empty with nothing readable, so then everybody registered is quiet.
-/

namespace RocNet.Noise

open Function State
open Sockets (Open Later Joined readiness_of_reachable)
open Streams (Kept Covers Change DropStep covers_of_busy covers_of_first_le later_of_step
  seen_of_observe)
open Transition

variable {c : Cipher} {S : ℕ} {s s' : State} {t u id w : ℕ} {x : Check} {o : Op} {l : Label}

/-! ## What a `Select` relies on -/

/-- Nothing is readable, and the socket was seen empty since task `t` was resumed. -/
def Quiet (S : ℕ) (s : State) (t : ℕ) : Prop :=
  s.received.readable = false ∧ (S, false) ∈ s.stream.sock.tried t

/-- What the `Select` of task `t` relies on, by where it stands. -/
def Relies (S : ℕ) (s : State) (t id w : ℕ) : Check → Prop
  | .added | .unlocked | .found => True
  | .checked => s.received.readable = false ∨ Covers s.stream t id w
  | .waiting => Quiet S s t ∨ Covers s.stream t id w
  | .joined => (Quiet S s t ∨ Covers s.stream t id w) ∧ Joined S s.stream.sock t w

structure Safe (S : ℕ) (s : State) : Prop where
  -- during the rest of an idle hold, those registered before it are quiet
  idle : ∀ u, ∀ h ∈ s.stream.held u, h.guard = true → h.idle = true → ∀ t id w,
    s.stream.registered t = some (id, w) → Open s.stream.sock t w → id < h.first → Quiet S s t
  relies : ∀ t x id w, s.ops t = .watching x → s.stream.registered t = some (id, w) →
    Open s.stream.sock t w → Relies S s t id w x

/-- What is relied on stays if what is readable stays or is covered, and who was covered is. -/
theorem Relies.mono (h : Relies S s t id w x) (hread : s.received.readable = false →
      s'.received.readable = false ∨ Covers s'.stream t id w) (htried : s.stream.sock.tried t ⊆ s'.stream.sock.tried t)
    (hcovers : Covers s.stream t id w → Covers s'.stream t id w)
    (hjoined : Joined S s.stream.sock t w → Joined S s'.stream.sock t w) : Relies S s' t id w x := by
  have hquiet : Quiet S s t ∨ Covers s.stream t id w → Quiet S s' t ∨ Covers s'.stream t id w := by
    rintro (hq | hc)
    · exact (hread hq.1).imp_left fun hr => ⟨hr, htried hq.2⟩
    · exact .inr (hcovers hc)
  cases x with
  | added | unlocked | found => trivial
  | checked =>
    rcases h with hr | hc
    · exact hread hr
    · exact .inr (hcovers hc)
  | waiting => exact hquiet h
  | joined => exact ⟨hquiet h.1, hjoined h.2⟩

/-- **The rule for steps that change nothing readable**, mark no hold idle and register nobody. -/
theorem Safe.mono (h : Safe S s) (hk : Kept s.stream) (hl : Later s.stream.sock s'.stream.sock)
    (hread : s'.received = s.received) (hheld : ∀ u, ∀ h ∈ s'.stream.held u, h.guard → h.idle → h ∈ s.stream.held u)
    (hreg : ∀ u id w, s'.stream.registered u = some (id, w) → s.stream.registered u = some (id, w))
    (hcovers : ∀ u id w, s.stream.registered u = some (id, w) → Open s'.stream.sock u w →
      Covers s.stream u id w → Covers s'.stream u id w)
    (hjoined : ∀ u w, Open s'.stream.sock u w → Joined S s.stream.sock u w →
      Joined S s'.stream.sock u w) (hops : ∀ u x id w, s'.ops u = .watching x → s'.stream.registered u = some (id, w) →
      Open s'.stream.sock u w → s.ops u = .watching x ∨ Relies S s' u id w x) : Safe S s' := by
  refine ⟨fun u g hmem hguard hidle t id w hr ho hid => ?_, fun u x id w hop hr ho => ?_⟩
  · have hr' := hreg t id w hr
    obtain ⟨ho', htried⟩ := hk.open_back hl hr' ho
    have hq := h.idle u g (hheld u g hmem hguard hidle) hguard hidle t id w hr' ho' hid
    exact ⟨hread ▸ hq.1, htried hq.2⟩
  · rcases hops u x id w hop hr ho with hold | hnew
    · have hr' := hreg u id w hr
      obtain ⟨ho', htried⟩ := hk.open_back hl hr' ho
      exact (h.relies u x id w hold hr' ho').mono (fun hq => .inl (hread ▸ hq)) htried
        (hcovers u id w hr' ho) (hjoined u w ho)
    · exact hnew

lemma Safe.setOp (h : Safe S s) (hk : Kept s.stream)
    (ho : ∀ x id w, o = .watching x → s.stream.registered t = some (id, w) →
      Open s.stream.sock t w → Relies S (s.setOp t o) t id w x) : Safe S (s.setOp t o) := by
  refine h.mono hk (.refl _) rfl (fun _ _ hmem _ _ => hmem) (fun _ _ _ hr => hr)
    (fun _ _ _ _ _ hc => hc) (fun _ _ _ hj => hj) fun u x id w hop hr hopen => ?_
  obtain rfl | hu := eq_or_ne u t
  · exact .inr (ho x id w (by simpa using hop) hr hopen)
  · exact .inl (by simpa [hu] using hop)

lemma Safe.setSock (h : Safe S s) (hk : Kept s.stream) (hr : Reachable Sockets.system s.stream.sock)
    (hstep : Sockets.step s.stream.sock m = some y) : Safe S (s.setStream (s.stream.setSock y)) := by
  have hready := readiness_of_reachable hr
  exact h.mono hk (later_of_step hr hstep) rfl (fun _ _ hmem _ _ => hmem) (fun _ _ _ hr => hr) (fun _ _ _ _ _ hc => hc)
    (fun _ _ hopen hj => hj.step hready.watched hready.owned (Sockets.step_cases hstep) hopen) fun _ _ _ _ hop _ _ =>
    .inl hop

lemma Safe.setReceived (h : Safe S s) (hp : Placed s) (hk : Kept s.stream) (r : Received)
    (results : List (Except ReadError Bytes)) (hholds : (s.ops t).holds)
    (ho : ∀ x, o ≠ .watching x) : Safe S ({ s.setReceived r with results := results }.setOp t o) := by
  refine ⟨fun u g hmem hguard hidle v id w _ _ _ => ?_, fun u x id w hop hr hopen => ?_⟩
  · -- an idle guard of the read lock would be this task's, which is not idle
    obtain ⟨-, first, hheld⟩ := hp.holding t hholds
    have hlock := hk.guarded t ⟨.read, true, first, false⟩ (by simp [hheld]) rfl
    have hlock' := hk.guarded u g hmem hguard
    rw [hp.read u g hmem, hlock] at hlock'
    cases hlock'
    have hg : g ∈ s.stream.held t := hmem
    rw [hheld, List.mem_singleton] at hg
    rw [hg] at hidle
    cases hidle
  · have hu : u ≠ t := by
      rintro rfl
      exact ho x (by simpa using hop)
    refine (h.relies u x id w (by simpa [hu] using hop) hr hopen).mono (fun _ => .inr ?_)
      (fun _ hmem => hmem) (fun hc => hc) fun hj => hj
    exact hp.covers hholds

section

variable (h : Safe S s) (hk : Kept s.stream)

include h hk

/-- After a poll found the socket empty with nothing readable, everybody is quiet. -/
theorem Safe.markIdle (hr : Reachable Sockets.system s.stream.sock) (hread : s.received.readable = false)
    (hstep : Sockets.step s.stream.sock (.observe S false) = some y) (ho : ∀ x, o ≠ .watching x) :
    Safe S ((s.setStream ((s.stream.setSock y).markIdle t)).setOp t o) := by
  have hready := readiness_of_reachable hr
  have hl := later_of_step hr hstep
  have hseen := seen_of_observe hstep
  refine ⟨fun u g hmem hguard hidle v id w _ _ _ => ⟨hread, hseen v⟩, fun u x id w hop hr' hopen => ?_⟩
  have hu : u ≠ t := by
    rintro rfl
    exact ho x (by simpa using hop)
  have hold := h.relies u x id w (by simpa [hu] using hop) hr' (hl.opened u w (hk.issued u id w hr').2 hopen)
  cases x with
  | added | unlocked | found => trivial
  | checked => exact .inl hread
  | waiting => exact .inl ⟨hread, hseen u⟩
  | joined =>
    exact ⟨.inl ⟨hread, hseen u⟩, hold.2.step hready.watched hready.owned (Sockets.step_cases hstep) hopen⟩

lemma Safe.dropStep (hr : Reachable Sockets.system s.stream.sock) (hd : DropStep s.stream t y) :
    Safe S (s.setStream y) := by
  have hready := readiness_of_reachable hr
  have hstream : Change S s.stream t y := .drop hd
  have hl := hstream.later hr
  exact h.mono hk hl rfl (fun _ _ hmem hguard _ => hd.held_back hmem hguard) (fun _ _ _ hreg => hd.registered ▸ hreg)
    (fun _ _ _ hreg hopen hc => hc.dropStep hk hl hready.owned hreg hopen hd)
    (fun _ _ hopen hj => hstream.joined hr hopen hj) fun _ _ _ _ hop _ _ => .inl hop

/-- A `Select` that finds the lock held is quiet, or will be woken. -/
theorem Safe.of_locked (hlocked : s.stream.locked .read = some u) (hreg : s.stream.registered t = some (id, w))
    (hopen : Open s.stream.sock t w) : Quiet S s t ∨ Covers s.stream t id w := by
  obtain ⟨g, hmem, -, hguard⟩ := hk.holder .read u hlocked
  cases hidle : g.idle with
  | false => exact .inr (covers_of_busy hmem hidle)
  | true =>
    by_cases hid : id < g.first
    · exact .inl (h.idle u g hmem hguard hidle t id w hreg hopen hid)
    · exact .inr (covers_of_first_le hmem (not_lt.mp hid))

lemma Safe.unwatch (ho : ∀ x, o ≠ .watching x) : Safe S ((s.setStream (s.stream.unwatch t id)).setOp t o) := by
  refine h.mono hk (.refl _) rfl (fun _ _ hmem _ _ => hmem) (fun u id' w hreg => ?_)
    (fun _ _ _ _ _ hc => hc) (fun _ _ _ hj => hj) fun u x id' w hop _ _ => .inl ?_
  · by_cases hu : u = t
    · simp [hu] at hreg
    · simpa [hu] using hreg
  · have hu : u ≠ t := by
      rintro rfl
      exact ho x (by simpa using hop)
    simpa [hu] using hop

end

lemma Safe.taskStep (h : Safe S s) (hp : Placed s) (hk : Kept s.stream)
    (hr : Reachable Sockets.system s.stream.sock) (hstep : TaskStep c S s t l s') : Safe S s' := by
  have hready := readiness_of_reachable hr
  cases hstep with
  | start hop | giveUp hop | filled hop | unfilled hop hread | fail hop | dropped hop hdone => exact h.setOp hk nofun
  | @lock r first hop hfree =>
    refine h.mono hk (.refl _) rfl (fun u g hmem _ hidle => ?_) (fun _ _ _ hreg => hreg)
      (fun _ _ _ _ _ hc => hc.lock) (fun _ _ _ hj => hj) fun u x id w hop' _ _ => .inl ?_
    · rcases Streams.mem_update_held hmem with ⟨rfl, hmem'⟩ | ⟨-, hmem'⟩
      · rcases List.mem_cons.mp hmem' with rfl | hmem'
        · cases hidle
        · exact hmem'
      · exact hmem'
    · have hu : u ≠ t := by
        rintro rfl
        simp at hop'
      simpa [hu] using hop'
  | @nothing r max y hop _ hnext =>
    exact h.setReceived (o := .filling r) hp hk y s.results (by rw [hop]; rfl) nofun
  | returned hop _ hnext | failed hop _ hnext => exact h.setReceived hp hk _ _ (by rw [hop]; rfl) nofun
  | @readSome r bytes drain y hop hstep =>
    have hsock := h.setSock hk hr hstep
    have htaken : Safe S (s.takeIn y bytes) := ⟨hsock.idle, hsock.relies⟩
    exact htaken.setOp (hk.setSock (later_of_step hr hstep)) nofun
  | blocked hop hstep => exact h.setSock hk hr hstep
  | idle hop hstep => exact h.markIdle hk hr (hp.unreadable t _ hop) hstep nofun
  | @extend r bytes hop =>
    exact h.setReceived (o := .looking r) hp hk (s.received.receive bytes) s.results
      (by rw [hop]; rfl) nofun
  | drop hop hdrop => exact h.dropStep hk hr hdrop
  | @watch w io hop hcode =>
    refine ⟨fun u g hmem hguard hidle v id w' hreg hopen hid => ?_, fun u x id w' hop' hreg hopen => ?_⟩
    · by_cases hv : v = t
      · -- it registers after the id was read
        subst hv
        simp only [setOp_stream, setStream_stream, Streams.State.register_registered,
          update_self, Option.some.injEq, Prod.mk.injEq] at hreg
        exact absurd (hreg.1 ▸ hid) (not_lt.mpr (hk.sampled u g hmem))
      · exact h.idle u g hmem hguard hidle v id w' (by simpa [hv] using hreg) hopen hid
    · obtain rfl | hu := eq_or_ne u t
      · simp only [setOp_ops, update_self] at hop'
        cases hop'
        trivial
      · refine (h.relies u x id w' (by simpa [hu] using hop') (by simpa [hu] using hreg) hopen).mono
          .inl (fun _ hm => hm) (fun hc => hc) fun hj => hj
  | free hop | readable hop => exact h.setOp hk fun x _ _ hx _ _ => by cases hx; trivial
  | busy hop hheld =>
    refine h.setOp hk fun x id w hx hreg hopen => ?_
    cases hx
    exact h.of_locked hk hheld hreg hopen
  | unreadable hop hread => exact h.setOp hk fun x _ _ hx _ _ => by cases hx; exact .inl hread
  | @notReady y hop hstep =>
    have hl := later_of_step hr hstep
    refine (h.setSock hk hr hstep).setOp (hk.setSock hl) fun x id w hx hreg hopen => ?_
    cases hx
    have hopen' := hl.opened t w (hk.issued t id w hreg).2 hopen
    exact (h.relies t .checked id w hop hreg hopen').imp_left fun hread => ⟨hread, seen_of_observe hstep t⟩
  | found hop hreg | unwatch hop hreg => exact h.unwatch hk nofun
  | @addIo y hop hstep =>
    have hl := later_of_step hr hstep
    refine (h.setSock hk hr hstep).setOp (hk.setSock hl) fun x id w hx hreg hopen => ?_
    cases hx
    have hlt := (hk.issued t id w hreg).2
    have hold := h.relies t .waiting id w hop hreg (hl.opened t w hlt hopen)
    refine ⟨?_, .inl ?_⟩
    · exact hold.imp_left fun hq => ⟨hq.1, hl.tried t w hlt hopen hq.2⟩
    · cases Sockets.step_cases hstep with
      | task hon htask =>
        cases htask with
        | @addIo w' _ _ io hcode =>
          have hw : w' = w := by simpa [Sockets.Code.wait] using hopen.wait
          exact ⟨_, update_self _ _ _, rfl, by rw [← hw]; rfl⟩

/-! ## Runs -/

structure Watchful (S : ℕ) (s : State) : Prop where
  sock : Reachable Sockets.system s.stream.sock
  kept : Kept s.stream
  placed : Placed s
  safe : Safe S s

lemma watchful_initial : Watchful S (initial nonce) := by
  refine ⟨.start rfl, Streams.kept_initial,
    ⟨fun t _ => ⟨rfl, rfl⟩, nofun, nofun, nofun, ?_, nofun, nofun⟩, nofun, nofun⟩
  exact fun t hreg => absurd rfl hreg

lemma Watchful.step (h : Watchful S s) (hstep : Step c S s l s') : Watchful S s' := by
  cases hstep with
  | sock hallows hstep =>
    exact ⟨Streams.reachable_of_step h.sock hstep, h.kept.setSock (later_of_step h.sock hstep),
      h.placed.setSock hallows hstep, h.safe.setSock h.kept h.sock hstep⟩
  | task hon hstep =>
    have hstream := hstep.stream (h.placed.sampled _)
    exact ⟨hstream.reachable h.sock, hstream.kept h.sock h.kept, h.placed.taskStep h.kept hon hstep,
      h.safe.taskStep h.placed h.kept h.sock hstep⟩

lemma watchful_of_reachable (h : Reachable (system c S nonce) s) : Watchful S s := by
  refine Reachable.invariant (fun r hr => ?_) (fun r l r' hr hs => ?_) h
  · cases hr
    exact watchful_initial
  · exact hr.step (step_cases hs)

/-- A `Select` that is suspended has gone through `watch` and `add_io`. -/
theorem Watchful.joined (h : Watchful S s) (hreg : s.stream.registered t = some (id, w))
    (hcode : s.stream.sock.code t = .asleep w io) : s.ops t = .watching .joined := by
  obtain ⟨x, hop⟩ := h.placed.registered t (by simp [hreg])
  cases x with
  | joined => exact hop
  | _ =>
    have hawake := h.placed.awake t (by rw [hop]; rfl)
    rw [Sockets.suspended_of_reachable h.sock t w io hcode] at hawake
    cases hawake

/-- **A `Select` on a Noise stream misses nothing.** In every state of every run in which no task holds the read
lock or has guards to drop, and no watcher of the stream or event of its socket is being woken or handled: if a
task is suspended, unclaimed, in a `Select` that watches the stream, nothing is readable in what the stream
received, and if the socket has unread data, an event for it is pending. -/
theorem noise_select_misses_nothing {nonce : ℕ} {io : List ℕ} (h : Transition.Reachable (system c S nonce) s)
    (hidle : ∀ u, s.stream.held u = [] ∧ s.stream.waking u = []) (hhandled : ¬ Sockets.Handling s.stream.sock S false)
    (hreg : s.stream.registered t = some (id, w)) (hcode : s.stream.sock.code t = .asleep w io)
    (hwait : s.stream.sock.wait t = w) : s.received.readable = false ∧
      (s.stream.sock.ready S false = true → Sockets.PendingAtOwner s.stream.sock S false) := by
  have hw := watchful_of_reachable h
  have hopen : Open s.stream.sock t w := ⟨by rw [hcode]; rfl, hwait⟩
  obtain ⟨hrelies, hjoined⟩ := hw.safe.relies t .joined id w (hw.joined hreg hcode) hreg hopen
  rcases hrelies with ⟨hread, hseen⟩ | ⟨u, g, hmem, -⟩ | ⟨u, hmem⟩
  · refine ⟨hread, fun hready => ?_⟩
    have hsleeps := hjoined.sleeps hcode hwait hhandled
    exact ((readiness_of_reachable hw.sock).sleeper hsleeps hseen hready).resolve_right hhandled
  · rw [(hidle u).1] at hmem
    cases hmem
  · rw [(hidle u).2] at hmem
    cases hmem

/-- Task 1 registers with the stream; a poll of task 2 makes it wait without having looked, finds the socket
empty, and passes it over with its idle release. Task 1 goes to sleep. Then data arrives. -/
def passedOver : List Label :=
  [.sock (.resume 1 0), .sock (.beginMultiWait 1), .watch 1, .sock (.resume 2 1),
    .start 2 (.tryRead 10), .lock 2, .check 1, .look 2, .readSocket 2 [] false, .drop 2, .drop 2,
    .drop 2, .addIo 1, .sock (.watch 1 true), .sock (.watch 1 true), .sock (.watch 1 true),
    .sock (.suspend 1), .sock (.rise 5 false)]

def clear : Cipher := ⟨fun _ bytes => bytes, fun _ bytes => some bytes⟩

/-- After `passedOver` a select sleeps with nothing to read, and the event that wakes it is pending. -/
theorem noise_select_misses_nothing_passedOver : ∃ s, Transition.Reachable (system clear 5 0) s ∧
    s.stream.registered 1 = some (1, 1) ∧ s.stream.sock.code 1 = .asleep 1 [5] ∧
    s.stream.sock.wait 1 = 1 ∧ s.received.readable = false ∧ Sockets.PendingAtOwner s.stream.sock 5 false := by
  have hrun : (run (system clear 5 0) (initial 0) passedOver).isSome := by decide
  have hreach := Reachable.of_run (.start rfl) (Option.some_get hrun).symm
  have hidle : ∀ u, ((run (system clear 5 0) (initial 0) passedOver).get hrun).stream.held u = [] ∧
      ((run (system clear 5 0) (initial 0) passedOver).get hrun).stream.waking u = []
    | 0 | 1 | 2 | _ + 3 => ⟨rfl, rfl⟩
  have hhandled : ¬ Sockets.Handling
      ((run (system clear 5 0) (initial 0) passedOver).get hrun).stream.sock 5 false := by
    rintro (⟨_ | _ | a, e, he, -⟩ | ⟨_ | _ | a, woken, todo, hact⟩)
    all_goals first | cases he | cases hact
  have hreg : ((run (system clear 5 0) (initial 0) passedOver).get hrun).stream.registered 1 = some (1, 1) := rfl
  have hcode : ((run (system clear 5 0) (initial 0) passedOver).get hrun).stream.sock.code 1 = .asleep 1 [5] := rfl
  obtain ⟨hread, hpending⟩ := noise_select_misses_nothing hreach hidle hhandled hreg hcode rfl
  exact ⟨_, hreach, hreg, hcode, rfl, hread, hpending rfl⟩

end RocNet.Noise
