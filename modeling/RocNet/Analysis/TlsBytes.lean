import RocNet.Analysis.TlsBlocking

/-!
# TLS streams keep both byte orders

At most one task carries bytes in each direction, as it does so under the read or the write lock (`Carried`).
-/

namespace RocNet.Tls

open Streams (LockName)
open Function List Option Transition

variable {S : ℕ} {s s' : State} {t u : ℕ} {o o' : Op} {x : Section} {l : Label}

/-! ## Bytes on the way -/

/-- The bytes are those one task carries, or none if nobody does. -/
def Carried (ops : ℕ → Op) (carries : Op → Option Bytes) (bytes : Bytes) : Prop :=
  (bytes = [] ∧ ∀ t, carries (ops t) = none) ∨ ∃ t, carries (ops t) = some bytes ∧ ∀ u, u ≠ t → carries (ops u) = none

section Carried

variable {ops : ℕ → Op} {carries : Op → Option Bytes} {bytes : Bytes}

lemma Carried.updated (h : Carried ops carries bytes) (ho : carries o = carries (ops t)) :
    Carried (update ops t o) carries bytes := by
  have hsame : ∀ u, carries (update ops t o u) = carries (ops u) := by
    intro u
    obtain rfl | hu := eq_or_ne u t
    · rw [update_self, ho]
    · rw [update_of_ne hu]
  simpa only [Carried, hsame] using h

lemma Carried.eq (h : Carried ops carries bytes) (hothers : ∀ u ≠ t, carries (ops u) = none) :
    bytes = (carries (ops t)).getD [] := by
  rcases h with ⟨rfl, hnone⟩ | ⟨u, hu, -⟩
  · rw [hnone t]
    rfl
  · obtain rfl | hut := eq_or_ne u t
    · rw [hu]
      rfl
    · cases (hothers u hut).symm.trans hu

/-- Task `t`, the only one that may, goes on carrying what its new place says. -/
theorem carried_update (hothers : ∀ u ≠ t, carries (ops u) = none) :
    Carried (update ops t o) carries ((carries o).getD []) := by
  have hothers' : ∀ u ≠ t, carries (update ops t o u) = none := by
    intro u hu
    rw [update_of_ne hu]
    exact hothers u hu
  cases ho : carries o with
  | none =>
    refine .inl ⟨rfl, fun u => ?_⟩
    obtain rfl | hu := eq_or_ne u t
    · rw [update_self, ho]
    · exact hothers' u hu
  | some bytes => exact .inr ⟨t, by rw [update_self, ho]; rfl, hothers'⟩

end Carried

/-! ## Who may carry bytes -/

lemma read_mem_of_hand (h : o.hand = some bytes) : ∃ locks, o.locks = some locks ∧ .read ∈ locks := by
  cases o with
  | inner x | inside x => cases x <;> first | exact ⟨_, rfl, mem_cons_self⟩ | cases h
  | _ => cases h

lemma after_of_hand (h : o.hand = some bytes) : o.after := by
  cases o with
  | inner x | inside x => cases x <;> first | rfl | cases h
  | _ => cases h

variable {locks : List LockName} {handshaken : Bool}

lemma Orderly.hand_of_ne (h : Orderly s) (hlocks : (s.ops t).locks = some locks)
    (hread : .read ∈ locks) : ∀ u ≠ t, (s.ops u).hand = none := by
  intro u hu
  by_contra hne
  obtain ⟨bytes, hbytes⟩ := ne_none_iff_exists'.mp hne
  obtain ⟨locks', hlocks', hread'⟩ := read_mem_of_hand hbytes
  have hmine := h.locked hlocks hread
  exact hu (Option.some.inj ((h.locked hlocks' hread').symm.trans hmine))

lemma Orderly.sends_of_ne (h : Orderly s) (hlocks : (s.ops t).locks = some locks)
    (hwrite : .write ∈ locks) : ∀ u ≠ t, (s.ops u).sends = none := by
  intro u hu
  cases hop : s.ops u with
  | sending w bytes =>
    have hformed := h.placed.formed u
    rw [hop, Op.formed, beq_iff_eq] at hformed
    have hlocks' : (s.ops u).locks = some (.write :: w.before) := by rw [hop, ← hformed]; rfl
    have hmine := h.locked hlocks' mem_cons_self
    exact absurd (Option.some.inj (hmine.symm.trans (h.locked hlocks hwrite))) hu
  | _ => rfl

lemma Orderly.hand_of_not_handshaken (h : Orderly s) (hnot : s.handshaken = false) (u : ℕ) :
    (s.ops u).hand = none := by
  by_contra hne
  obtain ⟨bytes, hbytes⟩ := ne_none_iff_exists'.mp hne
  cases hnot.symm.trans (h.placed.after u (after_of_hand hbytes))

lemma Orderly.sends_of_not_handshaken (h : Orderly s) (hnot : s.handshaken = false) (u : ℕ) :
    (s.ops u).sends = none := by
  cases hop : s.ops u with
  | sending w bytes => cases hnot.symm.trans (h.placed.after u (by rw [hop]; rfl))
  | _ => rfl

/-! ## Every byte is accounted for -/

structure Conserved (s : State) : Prop where
  read : ∃ hand, Carried s.ops Op.hand hand ∧ s.received = s.given ++ s.pending ++ hand
  unread : s.handshaken = false → s.pending = []
  written : s.writeFailed = false → ∃ rest, Carried s.ops Op.sends rest ∧ s.emitted = s.written ++ rest

/-- What was read from the socket: all of it, what rustls was given, and what is pending. -/
def State.reads (s : State) : Bytes × Bytes × Bytes := (s.received, s.given, s.pending)

/-- What rustls emitted, what of it was written, and whether a write failed. -/
def State.writes (s : State) : Bytes × Bytes × Bool := (s.emitted, s.written, s.writeFailed)

section

variable (h : Conserved s) (hops : s'.ops = update s.ops t o)

include h hops

/-- What was read, given and is pending stays, and the task's place carries the same. -/
theorem Conserved.read_same (ho : o.hand = (s.ops t).hand) (hreads : s'.reads = s.reads) :
    ∃ hand, Carried s'.ops Op.hand hand ∧ s'.received = s'.given ++ s'.pending ++ hand := by
  simp only [State.reads, Prod.mk.injEq] at hreads
  obtain ⟨hand, hcarried, hbytes⟩ := h.read
  exact ⟨hand, hops ▸ hcarried.updated ho, by rw [hreads.1, hreads.2.1, hreads.2.2, hbytes]⟩

lemma Conserved.written_same (ho : o.sends = (s.ops t).sends) (hwrites : s'.writes = s.writes) :
    s'.writeFailed = false → ∃ rest, Carried s'.ops Op.sends rest ∧ s'.emitted = s'.written ++ rest := by
  simp only [State.writes, Prod.mk.injEq] at hwrites
  intro hok
  obtain ⟨rest, hcarried, hbytes⟩ := h.written (hwrites.2.2.symm.trans hok)
  exact ⟨rest, hops ▸ hcarried.updated ho, by rw [hwrites.1, hwrites.2.1, hbytes]⟩

lemma Conserved.advance (hhand : o.hand = (s.ops t).hand) (hsends : o.sends = (s.ops t).sends)
    (hshaken : s'.handshaken = false → s.handshaken = false) (hreads : s'.reads = s.reads)
    (hwrites : s'.writes = s.writes) : Conserved s' :=
  ⟨h.read_same hops hhand hreads, fun hnot => (congrArg (·.2.2) hreads).trans (h.unread (hshaken hnot)),
    h.written_same hops hsends hwrites⟩

lemma Conserved.emit (hhand : o.hand = (s.ops t).hand) (ho : o.sends = none) (hold : (s.ops t).sends = none)
    (hothers : ∀ u ≠ t, (s.ops u).sends = none) (hshaken : s'.handshaken = s.handshaken) (hreads : s'.reads = s.reads)
    (hwrites : s'.writes = (s.emit y n).writes) : Conserved s' := by
  simp only [State.writes, Prod.mk.injEq] at hwrites
  obtain ⟨hemitted, hwritten, hfailed⟩ := hwrites
  refine ⟨h.read_same hops hhand hreads,
    fun hnot => (congrArg (·.2.2) hreads).trans (h.unread (hshaken.symm.trans hnot)), fun hok => ?_⟩
  obtain ⟨rest, hcarried, hbytes⟩ := h.written (hfailed.symm.trans hok)
  have hrest := hcarried.eq hothers
  rw [hold] at hrest
  refine ⟨_, hops ▸ carried_update hothers, ?_⟩
  rw [hemitted, hwritten, ho, State.emit_emitted, State.emit_written, hbytes, hrest]
  simp

lemma Conserved.feed {count : ℕ}
    (hhand : o.hand = (s.ops t).hand) (hsends : o.sends = (s.ops t).sends) (hshaken : s'.handshaken = s.handshaken)
    (hreceived : s'.received = s.received) (hgiven : s'.given = s.given ++ s.pending.take count)
    (hpending : s'.pending = s.pending.drop count) (hwrites : s'.writes = s.writes) : Conserved s' := by
  obtain ⟨hand, hcarried, hbytes⟩ := h.read
  refine ⟨⟨hand, hops ▸ hcarried.updated hhand, ?_⟩, fun hnot => ?_, h.written_same hops hsends hwrites⟩
  · rw [hreceived, hgiven, hpending, hbytes]
    simp
  · rw [hpending, h.unread (hshaken.symm.trans hnot), drop_nil]

end

lemma hand_of_goesOn (h : x.goesOn) : x.hand = none := by
  cases x <;> first | rfl | cases h

lemma Exits.hand (h : Exits s x o) : o.hand = x.hand := by
  cases h with
  | done hx | again hx g => exact hx.symm
  | read hx _ =>
    rcases hx with rfl | rfl <;> rfl
  | _ => rfl

lemma Exits.sends (h : Exits s x o) : o.sends = none := by
  cases h <;> rfl

lemma Conserved.sectionStep (h : Conserved s) (ho : Orderly s) (hop : s.ops t = .inside x)
    (hstep : SectionStep S s t x s') : Conserved s' := by
  have hhand : (s.ops t).hand = x.hand := by rw [hop]; rfl
  have hsends : (s.ops t).sends = none := by rw [hop]; rfl
  have hlocks : (s.ops t).locks = some x.locks := by rw [hop]; rfl
  have hquiet : ∀ {o : Op} {s' : State}, s'.ops = update s.ops t o → o.hand = x.hand →
      o.sends = none → (s'.handshaken = false → s.handshaken = false) → s'.reads = s.reads →
      s'.writes = s.writes → Conserved s' :=
    fun hops hh hs => h.advance hops (hh.trans hhand.symm) (hs.trans hsends.symm)
  cases hstep with
  | exit hexits => exact hquiet rfl hexits.hand hexits.sends id rfl rfl
  | @emit _ x' y drain count hx hx' hnot _ =>
    have hnot' := ho.placed.not_handshaken hop hnot
    refine h.emit (y := y) (n := count) rfl ?_ rfl hsends (fun u _ => ho.sends_of_not_handshaken hnot' u) rfl rfl rfl
    rw [hhand, hand_of_goesOn hx]
    exact hand_of_goesOn hx'
  | @absorb _ x' y drain bytes d hx hx' hnot _ =>
    have hnot' := ho.placed.not_handshaken hop hnot
    have hnone := fun u (_ : u ≠ t) => ho.hand_of_not_handshaken hnot' u
    obtain ⟨hand, hcarried, hbytes⟩ := h.read
    have heq := hcarried.eq hnone
    rw [ho.hand_of_not_handshaken hnot' t] at heq
    refine ⟨⟨_, carried_update hnone, ?_⟩, fun _ => h.unread hnot', h.written_same rfl hsends.symm rfl⟩
    have hhand' : (Op.inside x').hand = none := hand_of_goesOn hx'
    show s.received ++ bytes = s.given ++ bytes ++ s.pending ++ _
    rw [hhand', hbytes, heq, h.unread hnot']
    simp
  | wait _ _ | blocked _ | blockedIdle _ | returned g rest _ | idle g | eof _ | full _ _ | fullEmpty _ _
  | queued w _ => exact hquiet rfl rfl rfl id rfl rfl
  | finish next hx => exact hquiet rfl (hand_of_goesOn hx).symm rfl nofun rfl rfl
  | ended hx _ => exact hquiet rfl (hand_of_goesOn hx).symm rfl id rfl rfl
  | @alerted y drain count _ =>
    have hnot' := ho.placed.not_handshaken hop (.inl rfl)
    exact h.emit (y := y) (n := count) rfl hhand.symm rfl hsends
      (fun u _ => ho.sends_of_not_handshaken hnot' u) rfl rfl rfl
  | feed _ | fed _ _ => exact h.feed rfl hhand.symm hsends.symm rfl rfl rfl rfl rfl
  | store g bytes =>
    have hothers := ho.hand_of_ne hlocks mem_cons_self
    obtain ⟨hand, hcarried, hbytes⟩ := h.read
    have heq := hcarried.eq hothers
    rw [hhand] at heq
    refine ⟨⟨_, carried_update hothers, ?_⟩, fun hnot => ?_, h.written_same rfl hsends.symm rfl⟩
    · show s.received = s.given ++ (s.pending ++ bytes) ++ []
      rw [hbytes, heq]
      simp [Section.hand]
    · cases (show s.handshaken = false from hnot).symm.trans (ho.placed.after t (by rw [hop]; rfl))
  | @flushed g y drain count _ =>
    exact h.emit (y := y) (n := count) rfl hhand.symm rfl hsends (ho.sends_of_ne hlocks mem_cons_self) rfl rfl rfl
  | taken w queued =>
    have hformed : w.lock = .write := by
      have hformed := ho.placed.formed t
      rwa [hop, Op.formed, Section.formed, beq_iff_eq] at hformed
    have hothers := ho.sends_of_ne hlocks (by rw [← hformed]; exact mem_cons_self)
    refine ⟨h.read_same rfl hhand.symm rfl, h.unread, fun hok => ?_⟩
    obtain ⟨rest, hcarried, hbytes⟩ := h.written hok
    have heq := hcarried.eq hothers
    rw [hsends] at heq
    refine ⟨_, carried_update hothers, ?_⟩
    show s.emitted ++ (s.conn.output ++ queued) = s.written ++ (s.conn.output ++ queued)
    rw [hbytes, heq]
    simp

lemma Conserved.wrote (h : Conserved s) (ho : Orderly s) (hop : s.ops t = .sending w left)
    (hops : s'.ops = update s.ops t o) (hhand : o.hand = none) (hshaken : s'.handshaken = s.handshaken)
    (hreads : s'.reads = s.reads) (hemitted : s'.emitted = s.emitted)
    (hwritten : s'.written ++ o.sends.getD [] = s.written ++ left) (hfailed : s'.writeFailed = s.writeFailed) :
    Conserved s' := by
  have hformed : w.lock = .write := by
    have hformed := ho.placed.formed t
    rwa [hop, Op.formed, beq_iff_eq] at hformed
  have hlocks : (s.ops t).locks = some (.write :: w.before) := by rw [hop, ← hformed]; rfl
  have hothers := ho.sends_of_ne hlocks mem_cons_self
  refine ⟨h.read_same hops (by rw [hop, hhand]; rfl) hreads,
    fun hnot => (congrArg (·.2.2) hreads).trans (h.unread (hshaken.symm.trans hnot)), fun hok => ?_⟩
  obtain ⟨rest, hcarried, hbytes⟩ := h.written (hfailed.symm.trans hok)
  have heq := hcarried.eq hothers
  rw [hop] at heq
  refine ⟨_, hops ▸ carried_update hothers, ?_⟩
  rw [hemitted, hwritten, hbytes, heq]
  rfl

lemma Conserved.taskStep (h : Conserved s) (ho : Orderly s) (hstep : TaskStep S s t l s') : Conserved s' := by
  have hquiet : ∀ {o : Op} {s' : State}, s'.ops = update s.ops t o → o.hand = (s.ops t).hand →
      o.sends = (s.ops t).sends → s'.handshaken = s.handshaken → s'.reads = s.reads →
      s'.writes = s.writes → Conserved s' :=
    fun hops hh hs hshaken => h.advance hops hh hs fun hnot => hshaken.symm.trans hnot
  cases hstep with
  | @move l o o' hop hmoves =>
    by_cases hsent : o.sends = none
    · exact hquiet rfl (by rw [hop]; exact hmoves.hand) (by rw [hop, hmoves.sends, hsent]) rfl rfl rfl
    · -- all records are written
      cases hmoves with
      | sent w =>
        exact h.wrote ho hop rfl (hand_of_plain (plain_sent w)) rfl rfl rfl
          (by simp [sends_of_plain (plain_sent w)]) rfl
      | _ => exact absurd rfl hsent
  | @lock w first hop hfree =>
    refine hquiet rfl ?_ ?_ rfl rfl rfl
    · rw [hop]
      exact hand_of_plain (plain_taken w)
    · rw [hop]
      exact sends_of_plain (plain_taken w)
  | lockInner hop hinner | watch hop hcode | found hop hreg | addIo hop hstep | readIdle hop hstep
  | interrupted hop hi | tryInner hop hinner | passed hop hinner | notReady hop hstep | foundBusy hop hheld
  | unwatch hop hreg =>
    exact hquiet rfl (by rw [hop]; rfl) (by rw [hop]; rfl) rfl rfl rfl
  | inside hop hstep => exact h.sectionStep ho hop hstep
  | @readSome g i y hop hstep =>
    have hlocks : (s.ops t).locks = some [.read] := by rw [hop]; rfl
    have hothers := ho.hand_of_ne hlocks mem_cons_self
    obtain ⟨hand, hcarried, hbytes⟩ := h.read
    have heq := hcarried.eq hothers
    rw [hop] at heq
    refine ⟨⟨_, carried_update hothers, ?_⟩, h.unread, h.written_same rfl (by rw [hop]; rfl) rfl⟩
    show s.received ++ i.bytes = s.given ++ s.pending ++ i.bytes
    rw [hbytes, heq]
    simp [Op.hand]
  | readBlocked hop hstep | writeBlocked hop hstep =>
    exact hquiet rfl (by rw [hop]) (by rw [hop]) rfl rfl rfl
  | writeSome hop hstep =>
    exact h.wrote ho hop rfl rfl rfl rfl rfl (by simp [Op.sends]) rfl
  | writeFails hop =>
    exact ⟨h.read_same rfl (by rw [hop]; rfl) rfl, h.unread, nofun⟩
  | @drop next y hop hdrop =>
    have hops : (s.setStream y).ops = update s.ops t (s.ops t) := (update_eq_self t s.ops).symm
    exact hquiet hops rfl rfl rfl rfl rfl
  | @dropped next hop hdone =>
    refine hquiet rfl ?_ ?_ rfl rfl rfl
    · rw [hop]
      exact hand_of_plain (plain_op next)
    · rw [hop]
      exact sends_of_plain (plain_op next)

/-! ## Runs -/

lemma conserved_initial : Conserved (initial handshaken conn) := by
  refine ⟨⟨[], .inl ⟨rfl, fun _ => rfl⟩, rfl⟩, fun _ => rfl, fun _ => ⟨[], .inl ⟨rfl, fun _ => rfl⟩, rfl⟩⟩

lemma conserved_of_reachable (h : Reachable (system S handshaken) s) : Orderly s ∧ Conserved s := by
  refine Reachable.invariant (I := fun r => Orderly r ∧ Conserved r) (fun r hr => ?_) (fun r l r' hr hs => ?_) h
  · obtain ⟨conn, rfl⟩ := hr
    exact ⟨orderly_initial, conserved_initial⟩
  · have hstep := step_cases hs
    refine ⟨hr.1.step hstep, ?_⟩
    cases hstep with
    | sock _ _ | abort => exact ⟨hr.2.read, hr.2.unread, hr.2.written⟩
    | task _ hstep => exact hr.2.taskStep hr.1 hstep

/-- **A TLS stream keeps both byte orders.** In every state of every run, the bytes read from the socket are
those given to rustls, then those pending, then those that one task is about to add to them; and as long as no
write to the socket failed, the bytes rustls emitted are those written to the socket, then those that one task
is still to write. -/
theorem tls_keeps_byte_orders {handshaken : Bool} (h : Transition.Reachable (system S handshaken) s) :
    (∃ hand, Carried s.ops Op.hand hand ∧ s.received = s.given ++ s.pending ++ hand) ∧ (s.writeFailed = false →
        ∃ rest, Carried s.ops Op.sends rest ∧ s.emitted = s.written ++ rest) :=
  ⟨(conserved_of_reachable h).2.read, (conserved_of_reachable h).2.written⟩

/-- Task 1 has read a byte from the socket, and not added it to what is pending; task 2 has written one
of two bytes of a record. -/
def midway : List Label :=
  [.sock (.rise 5 false), .sock (.rise 5 true), .sock (.resume 1 0), .start 1 (.read 10), .load 1,
    .sample 1, .lock 1, .lockInner 1, .run 1 {}, .drop 1, .drop 1, .drop 1, .load 1, .sample 1, .lock 1,
    .lockInner 1, .run 1 {}, .run 1 { bytes := [1] }, .sock (.resume 2 1), .start 2 (.write 1), .load 2,
    .sample 2, .lock 2, .lockInner 2, .run 2 { bytes := [7, 8] }, .run 2 { count := 1 }]

lemma midway_reachable (hrun : (run (system 5 true) (initial true (.idle false)) midway).isSome) :
    Reachable (system 5 true) ((run (system 5 true) (initial true (.idle false)) midway).get hrun) :=
  .of_run (.start ⟨.idle false, rfl⟩) (some_get hrun).symm

/-- One byte read and one written, each still on its way. -/
theorem tls_keeps_byte_orders_midway : ∃ s, Transition.Reachable (system 5 true) s ∧
    s.received = [1] ∧ s.written = [7] ∧
    (∃ hand, Carried s.ops Op.hand hand ∧ s.received = s.given ++ s.pending ++ hand) ∧
    ∃ rest, Carried s.ops Op.sends rest ∧ s.emitted = s.written ++ rest := by
  have hreach := midway_reachable (by decide)
  obtain ⟨hread, hwritten⟩ := tls_keeps_byte_orders hreach
  exact ⟨_, hreach, rfl, rfl, hread, hwritten rfl⟩

/-- A byte that was read is neither given to rustls nor pending while the task that read it waits for
`inner`. -/
theorem read_byte_in_hand : ∃ s, Transition.Reachable (system 5 true) s ∧ s.given ++ s.pending ≠ s.received := by
  have hreach := midway_reachable (by decide)
  have hne : ([] : Bytes) ++ [] ≠ [1] := by decide
  exact ⟨_, hreach, hne⟩

end RocNet.Tls
