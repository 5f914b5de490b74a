import RocNet.Analysis.TlsWatchers

/-!
# A `Select` on a TLS stream and what the stream holds

In runs whose steps are `Sound`, a `Select` on a handshaken stream sleeps on nothing that the stream holds.
-/

namespace RocNet.Tls

open Sockets (Open)
open Transition

variable {S : ℕ} {s s' : State} {t id w : ℕ} {l : Label}

/-! ## Runs -/

structure Watchful (S : ℕ) (s : State) : Prop where
  orderly : Orderly s
  settled : Settled s
  calm : Calm s
  safe : Safe S s

lemma watchful_initial : Watchful S (initial true conn) :=
  ⟨orderly_initial, ⟨rfl, fun _ => rfl⟩, nofun, nofun, nofun⟩

lemma Watchful.step (h : Watchful S s) (hsound : Sound S s l) (hstep : Step S s l s') : Watchful S s' := by
  refine ⟨h.orderly.step hstep, ?_, ?_, ?_⟩
  all_goals cases hstep
  case refine_1.sock => exact ⟨h.settled.done, h.settled.places⟩
  case refine_1.abort => exact ⟨h.settled.done, h.settled.places⟩
  case refine_1.task hstep => exact h.settled.taskStep hstep
  case refine_2.sock => exact h.calm
  case refine_2.abort => exact h.calm
  case refine_2.task hstep => exact h.calm.taskStep h.settled h.orderly hstep
  case refine_3.sock hstep => exact h.safe.setSock h.orderly hstep
  case refine_3.abort => exact ⟨h.safe.idle, h.safe.relies⟩
  case refine_3.task hstep => exact h.safe.taskStep h.orderly h.settled h.calm hsound hstep

lemma watchful_of_reachableBy (h : ReachableBy (system S true) (Sound S) s) : Watchful S s := by
  refine ReachableBy.invariant (fun r hr => ?_) (fun r l r' hok hr hs => ?_) h
  · obtain ⟨conn, rfl⟩ := hr
    exact watchful_initial
  · exact hr.step hok (step_cases hs)

/-- A `Select` that is suspended has gone through `watch` and `add_io`. -/
theorem Watchful.joined (h : Watchful S s) (hreg : s.stream.registered t = some (id, w))
    (hcode : s.stream.sock.code t = .asleep w io) : s.ops t = .watching .joined := by
  obtain ⟨c, hop⟩ := h.orderly.placed.registered t (by simp [hreg])
  cases c with
  | joined => exact hop
  | _ =>
    have hawake := h.orderly.placed.awake t (by rw [hop]; rfl)
    rw [Sockets.suspended_of_reachable h.orderly.sock t w io hcode] at hawake
    cases hawake

/-- The task is about to take a lock, or `inner`. -/
def Op.takes : Op → Bool
  | .load _ | .sample _ | .wants _ _ | .inner _ | .leaving (.fill _) => true
  | _ => false

lemma takes_of_refills {o : Op} (h : o.refills) : o.takes := by
  cases o with
  | leaving next => cases next <;> first | rfl | cases h
  | load f | sample w | wants w first => rfl
  | _ => cases h

/-- **A `Select` on a TLS stream misses nothing, in sound runs.** In every state of such a run in which no task
has guards to drop or is about to take a lock or `inner`, and no watcher of the stream or event of its socket is
being woken or handled: if a task is suspended, unclaimed, in a `Select` that watches the stream, there is no
plaintext to read, no pending ciphertext and no closed session, and if the socket has unread data, an event for
it is pending. -/
theorem tls_select_misses_nothing {io : List ℕ} (h : Transition.ReachableBy (system S true) (Sound S) s)
    (hidle : ∀ u, s.stream.held u = [] ∧ s.stream.waking u = []) (htakes : ∀ u, (s.ops u).takes = false)
    (hhandled : ¬ Sockets.Handling s.stream.sock S false) (hreg : s.stream.registered t = some (id, w))
    (hcode : s.stream.sock.code t = .asleep w io) (hwait : s.stream.sock.wait t = w) :
    s.conn.plaintext = [] ∧ s.pending = [] ∧ s.conn.closed = false ∧
      (s.stream.sock.ready S false = true → Sockets.PendingAtOwner s.stream.sock S false) := by
  have hw := watchful_of_reachableBy h
  have hopen : Open s.stream.sock t w := ⟨by rw [hcode]; rfl, hwait⟩
  obtain ⟨hrelies, hjoined⟩ := hw.safe.relies t .joined id w (hw.joined hreg hcode) hreg hopen
  rcases hrelies with ⟨hcalm, hseen⟩ | (⟨u, g, hmem, -⟩ | ⟨u, hmem⟩) | ⟨u, hu⟩
  · obtain ⟨hpending, -, hplain, hclosed⟩ := buffered_eq_false.mp hcalm
    refine ⟨hplain, hpending, hclosed, fun hready => ?_⟩
    have hsleeps := hjoined.sleeps hcode hwait hhandled
    have hreadiness := Sockets.readiness_of_reachable hw.orderly.sock
    exact (hreadiness.sleeper hsleeps hseen hready).resolve_right hhandled
  · rw [(hidle u).1] at hmem
    cases hmem
  · rw [(hidle u).2] at hmem
    cases hmem
  · cases (htakes u).symm.trans (takes_of_refills hu)

/-- Task 1 registers with the stream; a poll of task 2 makes it wait without having looked, finds nothing in the
stream, then the socket empty, and passes it over both times. Task 1 goes to sleep, and then data arrives. -/
def passedOver : List Label :=
  [.sock (.resume 1 0), .sock (.beginMultiWait 1), .watch 1, .sock (.resume 2 1), .start 2 (.poll 10),
    .load 2, .sample 2, .lock 2, .check 1, .lockInner 2, .run 2 {}, .drop 2, .drop 2, .drop 2, .load 2,
    .sample 2, .lock 2, .lockInner 2, .run 2 {}, .lockInner 2, .run 2 {}, .run 2 {}, .drop 2, .drop 2,
    .drop 2, .addIo 1, .sock (.watch 1 true), .sock (.watch 1 true), .sock (.watch 1 true),
    .sock (.suspend 1), .sock (.rise 5 false)]

/-- After `passedOver` a select sleeps with no plaintext, and the event that wakes it is pending. -/
theorem tls_select_misses_nothing_passedOver : ∃ s,
    Transition.ReachableBy (system 5 true) (Sound 5) s ∧ s.stream.registered 1 = some (1, 1) ∧
    s.stream.sock.code 1 = .asleep 1 [5] ∧ s.stream.sock.wait 1 = 1 ∧ s.conn.plaintext = [] ∧
    Sockets.PendingAtOwner s.stream.sock 5 false := by
  have hrun : (runBy (system 5 true) (Sound 5) (initial true (.idle false)) passedOver).isSome
      = true := by decide
  have hinit : (system 5 true).init (initial true (.idle false)) := ⟨.idle false, rfl⟩
  have hreach := ReachableBy.of_runBy (.start hinit) (Option.some_get hrun).symm
  generalize hs : (runBy (system 5 true) (Sound 5) (initial true (.idle false))
    passedOver).get hrun = s at hreach
  have hidle : ∀ u, s.stream.held u = [] ∧ s.stream.waking u = [] := by
    subst hs
    exact fun | 0 | 1 | 2 | _ + 3 => ⟨rfl, rfl⟩
  have htakes : ∀ u, (s.ops u).takes = false := by
    subst hs
    exact fun | 0 | 1 | 2 | _ + 3 => rfl
  have hhandled : ¬ Sockets.Handling s.stream.sock 5 false := by
    subst hs
    rintro (⟨_ | _ | a, e, he, -⟩ | ⟨_ | _ | a, woken, todo, hact⟩)
    all_goals first | cases he | cases hact
  have hreg : s.stream.registered 1 = some (1, 1) := by
    subst hs
    rfl
  have hcode : s.stream.sock.code 1 = .asleep 1 [5] := by
    subst hs
    rfl
  have hwait : s.stream.sock.wait 1 = 1 := by
    subst hs
    rfl
  have hready : s.stream.sock.ready 5 false := by
    subst hs
    rfl
  obtain ⟨hplain, -, -, hpending⟩ := tls_select_misses_nothing hreach hidle htakes hhandled hreg hcode hwait
  exact ⟨s, hreach, hreg, hcode, hwait, hplain, hpending hready⟩

/-- Task 2 reads, and leaves a byte of what it decrypted, while a poll of task 1 finds the read lock
held. Task 1 then calls `watch` while task 3 asks for the server's name. -/
def queried : List Label :=
  [.sock (.rise 5 false), .sock (.resume 2 1), .start 2 (.read 1), .load 2, .sample 2, .lock 2,
    .lockInner 2, .run 2 {}, .drop 2, .drop 2, .drop 2, .load 2, .sample 2, .lock 2, .lockInner 2,
    .run 2 {}, .run 2 { bytes := [9], drain := true }, .lockInner 2, .run 2 {}, .run 2 {}, .drop 2,
    .drop 2, .drop 2, .load 2, .sample 2, .lock 2, .sock (.resume 1 0), .start 1 (.poll 10), .load 1,
    .sample 1, .lock 1, .load 1, .sample 1, .lock 1, .lockInner 2,
    .run 2 { count := 1, digest := { plaintext := [1, 2] } }, .run 2 {}, .drop 2, .drop 2, .drop 2,
    .sock (.beginMultiWait 1), .watch 1, .check 1, .sock (.resume 3 2), .start 3 .query, .load 3,
    .lockInner 3, .check 1, .run 3 {}, .addIo 1, .sock (.watch 1 true), .sock (.watch 1 true),
    .sock (.watch 1 true), .sock (.suspend 1)]

/-- **A `Select` that sleeps on what the stream holds.** Nobody holds or is about to take a lock or
`inner`, and nobody is being woken, and yet the `Select` of task 1 sleeps with plaintext to read and no
event to come. -/
theorem tls_select_sleeps_on_plaintext : ∃ s, Transition.Reachable (system 5 true) s ∧
    (∀ u, s.stream.held u = [] ∧ s.stream.waking u = []) ∧ (∀ u, (s.ops u).takes = false) ∧
    s.inner = none ∧ ¬ Sockets.Handling s.stream.sock 5 false ∧
    s.stream.registered 1 = some (1, 1) ∧ s.stream.sock.code 1 = .asleep 1 [5] ∧
    s.stream.sock.wait 1 = 1 ∧ s.conn.plaintext = [2] ∧ s.stream.sock.ready 5 false = false := by
  have hrun : (run (system 5 true) (initial true (.idle false)) queried).isSome := by
    decide
  have hinit : (system 5 true).init (initial true (.idle false)) := ⟨.idle false, rfl⟩
  have hreach := Reachable.of_run (.start hinit) (Option.some_get hrun).symm
  refine ⟨_, hreach, ?_, ?_, rfl, ?_, rfl, rfl, rfl, rfl, rfl⟩
  · exact fun | 0 | 1 | 2 | 3 | _ + 4 => ⟨rfl, rfl⟩
  · exact fun | 0 | 1 | 2 | 3 | _ + 4 => rfl
  · rintro (⟨_ | _ | _ | a, e, he, -⟩ | ⟨_ | _ | _ | a, woken, todo, hact⟩)
    all_goals first | cases he | cases hact

end RocNet.Tls
