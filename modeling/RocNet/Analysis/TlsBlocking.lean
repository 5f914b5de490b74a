import RocNet.Analysis.TlsLocks

/-!
# TLS streams block no worker

Only a task that runs the handshake is suspended with `inner` held, and meanwhile nobody blocks on `inner`. Locks are
taken in order: the read or the handshake lock with no other held, the write lock with the read lock at most, `inner`
last.
-/

namespace RocNet.Tls

open List Option
open Streams (LockName Kept)
open Transition

variable {S : ℕ} {s s' : State} {t u : ℕ} {l : Label}

/-! ## Runs -/

/-- What the steps keep of the locks. -/
structure Orderly (s : State) : Prop where
  sock : Reachable Sockets.system s.stream.sock
  kept : Kept s.stream
  placed : Placed s

variable {handshaken : Bool} {locks : List LockName} {L : LockName}

lemma orderly_initial : Orderly (initial handshaken conn) := by
  refine ⟨.start rfl, Streams.kept_initial, ?_⟩
  refine ⟨fun t locks h => ?_, nofun, fun t h => absurd rfl h, fun t => ⟨nofun, nofun⟩, nofun, nofun,
    fun _ => rfl, nofun⟩
  cases h
  exact ⟨rfl, rfl, nofun⟩

/-- The sockets go on: a task is suspended only where its place allows. -/
theorem Placed.setSock (hp : Placed s) (hallows : allows s m) (hstep : Sockets.step s.stream.sock m = some y) :
    Placed (s.setSock y) := by
  refine ⟨fun t locks h => ?_, hp.sampled, hp.registered, hp.inner, hp.after, hp.shaking, hp.formed, fun t h => ?_⟩
  · have hold := hp.guarded t locks h
    exact ⟨hold.waking, hold.held, hold.busy⟩
  · obtain ⟨a, ha⟩ := isSome_iff_exists.mp (hp.awake t h)
    have htask : m.task ≠ some t := by
      intro hm
      have hwaits : (s.ops t).waits := by simpa [allows, hm] using hallows
      cases hwaits.symm.trans h
    rw [State.setSock_stream, Streams.State.setSock_sock, ((Sockets.step_cases hstep).frame htask ha).1]
    rfl

lemma Orderly.step (h : Orderly s) (hstep : Step S s l s') : Orderly s' := by
  cases hstep with
  | sock hallows hstep =>
    exact ⟨Streams.reachable_of_step h.sock hstep,
      h.kept.setSock (Streams.later_of_step h.sock hstep), h.placed.setSock hallows hstep⟩
  | abort =>
    exact ⟨h.sock, h.kept, h.placed.guarded, h.placed.sampled, h.placed.registered, h.placed.inner,
      h.placed.after, h.placed.shaking, h.placed.formed, h.placed.awake⟩
  | task hon hstep =>
    have hchange := hstep.stream (h.placed.sampled _)
    exact ⟨hchange.reachable h.sock, hchange.kept h.sock h.kept, h.placed.taskStep hon hstep⟩

lemma orderly_of_reachable (h : Reachable (system S handshaken) s) : Orderly s := by
  refine Reachable.invariant (fun r hr => ?_) (fun r l r' hr hs => ?_) h
  · obtain ⟨conn, rfl⟩ := hr
    exact orderly_initial
  · exact hr.step (step_cases hs)

/-! ## Holding and waiting -/

lemma Orderly.locked (h : Orderly s)
    (hlocks : (s.ops t).locks = some locks) (hL : L ∈ locks) : s.stream.locked L = some t := by
  have hguarded := h.placed.guarded t locks hlocks
  rw [← hguarded.held] at hL
  obtain ⟨g, hg, rfl⟩ := List.mem_map.mp hL
  exact h.kept.guarded t g hg (hguarded.busy g hg).1

lemma Orderly.mem_locks (h : Orderly s)
    (hheld : s.stream.locked L = some t) (hlocks : (s.ops t).locks = some locks) : L ∈ locks := by
  obtain ⟨g, hg, rfl, -⟩ := h.kept.holder L t hheld
  rw [← (h.placed.guarded t locks hlocks).held]
  exact List.mem_map_of_mem hg

variable {o : Op}

lemma locks_of_shakes (h : o.shakes) : o.locks = some [.handshake] := by
  cases o with
  | inside x => cases x <;> first | rfl | cases h
  | _ => cases h

lemma shakes_of_waits (hwaits : o.waits) (hinner : o.holdsInner) : o.shakes := by
  cases o with
  | inside x => cases x <;> first | rfl | cases hwaits
  | watching c => cases c <;> simp [Op.waits, Op.holdsInner] at hwaits hinner
  | _ => cases hinner

lemma after_or_handshake (x : Section) : x.after ∨ x.locks = [.handshake] := by
  cases x <;> first | exact .inl rfl | exact .inr rfl

/-- Task `t` waits for a lock that task `u` holds. -/
inductive WaitsFor (s : State) (t u : ℕ) : Prop
  | lock (hop : s.ops t = .wants w first) (hblocks : w.blocks = true) (hheld : s.stream.locked w.lock = some u)
  | inner (hop : s.ops t = .inner x) (hheld : s.inner = some u)

/-- Locks in the order they are taken, before `inner`. -/
def level : LockName → ℕ
  | .read | .handshake => 0
  | .write => 1

/-- The level of the lock a task waits for; past all of them if it waits for none. -/
def Op.level : Op → ℕ
  | .wants w _ => Tls.level w.lock
  | .inner _ => 2
  | _ => 3

lemma level_lt_before {w : Want} (h : L ∈ w.before) : level L < level w.lock := by
  cases w with
  | send g | flush g =>
    obtain rfl := mem_singleton.mp h
    exact Nat.one_pos
  | _ => cases h

/-- Whoever holds a lock waits for a later one, if it waits. -/
theorem Orderly.level_lt (h : Orderly s) (hheld : s.stream.locked L = some u) : level L < (s.ops u).level := by
  have hmem : ∀ locks, (s.ops u).locks = some locks → L ∈ locks := fun _ => h.mem_locks hheld
  have htop : level L < 2 := by cases L <;> decide
  cases hop : s.ops u with
  | wants w first =>
    rw [hop] at hmem
    exact level_lt_before (hmem _ rfl)
  | inner x => exact htop
  | _ => exact Nat.lt_succ_of_lt htop

lemma Orderly.level_waitsFor (h : Orderly s) (hw : WaitsFor s t u) : (s.ops t).level < (s.ops u).level := by
  cases hw with
  | lock hop _ hheld =>
    rw [hop]
    exact h.level_lt hheld
  | inner hop hheld =>
    have hin := (h.placed.inner u).mpr hheld
    rw [hop]
    cases hu : s.ops u with
    | inside x | watching c => exact Nat.lt_succ_self 2
    | _ =>
      rw [hu] at hin
      cases hin

lemma Orderly.level_transGen (h : Orderly s) (hw : Relation.TransGen (WaitsFor s) t u) :
    (s.ops t).level < (s.ops u).level := by
  induction hw with
  | single hw => exact h.level_waitsFor hw
  | tail _ hw ih => exact ih.trans (h.level_waitsFor hw)

/-- **No TLS operation blocks a worker, or deadlocks.** In every state of every run, if the task that
holds `inner` is suspended, it has the handshake lock, the stream is not handshaken, and no other task
is about to block on `inner`; and no task waits, through whatever chain of locks, for itself. -/
theorem tls_blocks_no_worker {handshaken : Bool} (h : Transition.Reachable (system S handshaken) s) :
    (∀ u, s.inner = some u → s.stream.sock.on u = none → s.stream.locked .handshake = some u ∧ s.handshaken = false ∧
        ∀ v x, v ≠ u → s.ops v ≠ .inner x) ∧ ∀ t, ¬ Relation.TransGen (WaitsFor s) t t := by
  have ho := orderly_of_reachable h
  refine ⟨fun u hinner hon => ?_, fun t hw => lt_irrefl _ (ho.level_transGen hw)⟩
  have hwaits : (s.ops u).waits := by
    by_contra hnot
    have hawake := ho.placed.awake u (Bool.eq_false_iff.mpr hnot)
    rw [hon] at hawake
    cases hawake
  have hshakes := shakes_of_waits hwaits ((ho.placed.inner u).mpr hinner)
  have hlocked := ho.locked (locks_of_shakes hshakes) mem_cons_self
  have hnot := ho.placed.shaking u hshakes
  refine ⟨hlocked, hnot, fun v x hv hop => ?_⟩
  rcases after_or_handshake x with hafter | hlocks
  · have hdone := ho.placed.after v (by rw [hop]; exact hafter)
    cases hnot.symm.trans hdone
  · have hlocks' : (s.ops v).locks = some [.handshake] := by rw [hop, ← hlocks]; rfl
    have hheld := ho.locked hlocks' mem_cons_self
    exact hv (Option.some.inj (hheld.symm.trans hlocked))

/-- Task 1 waits for the peer in the handshake, holding `inner`; task 2, about to read, waits for the
handshake. -/
def shaking : List Label :=
  [.sock (.resume 1 0), .start 1 .handshake, .load 1, .sample 1, .lock 1, .lockInner 1, .run 1 {},
    .run 1 {}, .sock (.waitIo 1 5 false), .sock (.watch 1 true), .sock (.watch 1 true),
    .sock (.watch 1 true), .sock (.suspend 1), .sock (.resume 2 0), .start 2 (.read 10), .load 2,
    .load 2, .load 2, .sample 2]

/-- While task 1 is suspended in the handshake with `inner` locked, task 2 waits for it. -/
theorem tls_blocks_no_worker_shaking : ∃ s, Transition.Reachable (system 5 false) s ∧
    s.inner = some 1 ∧ s.stream.sock.on 1 = none ∧ WaitsFor s 2 1 ∧
    s.stream.locked .handshake = some 1 ∧ s.handshaken = false ∧ ∀ t, ¬ Relation.TransGen (WaitsFor s) t t := by
  have hrun : (run (system 5 false) (initial false (.idle true)) shaking).isSome := by
    decide
  have hinit : (system 5 false).init (initial false (.idle true)) := ⟨.idle true, rfl⟩
  have hreach := Reachable.of_run (.start hinit) (some_get hrun).symm
  obtain ⟨hsuspended, hcycles⟩ := tls_blocks_no_worker hreach
  have hinner : ((run (system 5 false) (initial false (.idle true)) shaking).get hrun).inner = some 1 := rfl
  obtain ⟨hlocked, hnot, -⟩ := hsuspended 1 hinner rfl
  have hop : ((run (system 5 false) (initial false (.idle true)) shaking).get hrun).ops 2
      = .wants (.handshake (.read 10)) 1 := rfl
  exact ⟨_, hreach, hinner, rfl, .lock hop rfl hlocked, hlocked, hnot, hcycles⟩

end RocNet.Tls
