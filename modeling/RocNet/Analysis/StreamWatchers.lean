import RocNet.Analysis.SocketEvents
import RocNet.Model.Streams

/-!
# Who will wake a watcher

A watcher that has not looked at the stream itself is covered (`Covers`) if some task has a guard whose release will
wake it, or has already taken it off the list to wake it. Being covered survives everything but a hold turning idle.
-/

/-! ## Sockets going on -/

open Function List Nat

namespace RocNet.Sockets

/-- The waits that are open in `y`, of those given out in `x`, were open in `x`, and their tasks have
learned more of the sockets if anything. -/
structure Later (x y : State) : Prop where
  nextWait : x.nextWait ≤ y.nextWait
  opened : ∀ t w, w < x.nextWait → Open y t w → Open x t w
  tried : ∀ t w, w < x.nextWait → Open y t w → x.tried t ⊆ y.tried t

lemma Later.refl (x : State) : Later x x := ⟨le_refl _, fun _ _ _ h => h, fun _ _ _ _ _ h => h⟩

lemma Later.of_step (hw : Watched x) (ho : Owned x) (hstep : Step x l y) : Later x y := by
  refine ⟨hstep.nextWait_le, fun t w hlt hopen => ?_, fun t w _ hopen => ?_⟩
  · exact (hopen.back ho hstep).resolve_right (Nat.ne_of_lt hlt)
  · exact hstep.tried_subset hw hopen.wait

/-- A `Select` is adding socket `S` to its wait, for reading, or has. -/
def Joined (S : ℕ) (x : State) (t w : ℕ) : Prop :=
  (∃ k, x.code t = .entering k ∧ k.socket = S ∧ k.waiter t = ⟨t, w, false⟩) ∨ Enlisted x S ⟨t, w, false⟩

lemma Joined.step {S t w : ℕ} {x y : State} {l : Label} (hw : Watched x) (ho : Owned x)
    (hstep : Step x l y) (hopen : Open y t w) (h : Joined S x t w) : Joined S y t w := by
  rcases h with ⟨k, hcode, rfl, hwaiter⟩ | h
  · have hk : k.wait = w := congrArg IoWaiter.wait hwaiter
    rcases hstep.entering_next hcode (hk ▸ hopen) with hcode' | henlisted
    · exact .inl ⟨k, hcode', rfl, hwaiter⟩
    · exact .inr (hwaiter ▸ henlisted)
  · exact .inr (h.step hw.running ho hstep hopen)

/-- A `Select` that is suspended is registered with the socket, unless it is being woken. -/
theorem Joined.sleeps (h : Joined S x t w) (hcode : x.code t = .asleep w io) (hwait : x.wait t = w)
    (hquiet : ¬ Handling x S false) : Sleeps x t S false := by
  refine ⟨⟨w, io, hcode⟩, ?_, fun w' io' hcode' => ?_⟩
  · rcases h with ⟨k, hk, -⟩ | hmem | ⟨a, woken, todo, hact, -⟩
    · cases hcode.symm.trans hk
    · exact hwait ▸ hmem
    · exact absurd (.inr ⟨a, woken, todo, hact⟩) hquiet
  · cases hcode.symm.trans hcode'
    exact hwait

end RocNet.Sockets

namespace RocNet.Streams

open Sockets (Open Later Owned Watched)

variable {s s' : State} {t u id w first : ℕ} {L : LockName} {h : Held} {rest : List Held}

/-! ## Waking -/

lemma wake_sock (s : State) (t u w : ℕ) (rest : List (ℕ × ℕ)) : (s.wake t u w rest).sock = s.sock ∨
    Sockets.step s.sock (.claim u) = some (s.wake t u w rest).sock := by
  rw [State.wake_sock]
  split
  · exact .inr rfl
  · exact .inl rfl

lemma later_wake (hw : Watched s.sock) (ho : Owned s.sock) {rest : List (ℕ × ℕ)} :
    Later s.sock (s.wake t u w rest).sock := by
  rcases wake_sock s t u w rest with hsame | hstep
  · rw [hsame]
    exact .refl _
  · exact .of_step hw ho (Sockets.step_cases hstep)

lemma not_open_wake (ho : Owned s.sock) {rest : List (ℕ × ℕ)} : ¬ Open (s.wake t u w rest).sock u w := by
  intro hopen
  rw [State.wake_sock] at hopen
  split at hopen
  · have hpos := (ho.issued u w (Sockets.own_of_wait hopen.wait)).1
    have hword := hopen.unclaimed
    simp only [Sockets.State.setWait_wait, update_self] at hword
    exact Nat.ne_of_lt hpos hword
  · next hne => exact hne hopen.unclaimed

/-! ## The list of watchers and the locks -/

structure Kept (s : State) : Prop where
  sampled : ∀ u, ∀ h ∈ s.held u, h.first ≤ s.watchers.nextId
  issued : ∀ t id w, s.registered t = some (id, w) → id < s.watchers.nextId ∧ w < s.sock.nextWait
  distinct : ∀ t u id w w', s.registered t = some (id, w) → s.registered u = some (id, w') → t = u
  -- a watcher whose wait is open is in the list, or taken off it to be woken
  listed : ∀ t id w, s.registered t = some (id, w) → Open s.sock t w →
    (id, (t, w)) ∈ s.watchers.list ∨ ∃ u, (t, w) ∈ s.waking u
  guarded : ∀ u, ∀ h ∈ s.held u, h.guard = true → s.locked h.lock = some u
  single : ∀ u, (s.held u).Pairwise fun a b => a.guard = true → b.guard = true → a.lock ≠ b.lock
  holder : ∀ L u, s.locked L = some u → ∃ h ∈ s.held u, h.lock = L ∧ h.guard = true

lemma kept_initial : Kept initial := by
  refine ⟨fun _ _ h => ?_, fun _ _ _ h => ?_, fun _ _ _ _ _ h => ?_, fun _ _ _ h => ?_,
    fun _ _ h => ?_, fun _ => .nil, fun _ _ h => ?_⟩
  all_goals cases h

/-- Some guard's release will wake the watcher under `id`, or it has been taken off the list. -/
def Covers (s : State) (t id w : ℕ) : Prop :=
  (∃ u, ∃ h ∈ s.held u, h.wakesFrom ≤ id) ∨ ∃ u, (t, w) ∈ s.waking u

lemma Kept.setSock (hk : Kept s) (hl : Later s.sock x) : Kept (s.setSock x) := by
  refine ⟨hk.sampled, fun t id w hr => ?_, hk.distinct, fun t id w hr ho => ?_, hk.guarded, hk.single, hk.holder⟩
  · exact ⟨(hk.issued t id w hr).1, lt_of_lt_of_le (hk.issued t id w hr).2 hl.nextWait⟩
  · exact hk.listed t id w hr (hl.opened t w (hk.issued t id w hr).2 ho)

lemma mem_update_held (hmem : h ∈ update s.held t l u) : u = t ∧ h ∈ l ∨ u ≠ t ∧ h ∈ s.held u := by
  obtain rfl | hu := eq_or_ne u t
  · rw [update_self] at hmem
    exact .inl ⟨rfl, hmem⟩
  · rw [update_of_ne hu] at hmem
    exact .inr ⟨hu, hmem⟩

lemma Kept.lock (hk : Kept s) (hfree : s.locked L = none) (hfirst : first ≤ s.watchers.nextId) :
    Kept (s.lock L t first) := by
  have hne : ∀ u, ∀ h ∈ s.held u, h.guard → h.lock ≠ L := by
    intro u h hmem hguard hL
    have hlocked := hk.guarded u h hmem hguard
    rw [hL, hfree] at hlocked
    cases hlocked
  refine ⟨fun u h hmem => ?_, hk.issued, hk.distinct, hk.listed, fun u h hmem hguard => ?_,
    fun u => ?_, fun M u hlocked => ?_⟩
  · rcases mem_update_held hmem with ⟨rfl, hmem⟩ | ⟨-, hmem⟩
    · rcases mem_cons.mp hmem with rfl | hmem
      · exact hfirst
      · exact hk.sampled u h hmem
    · exact hk.sampled u h hmem
  · have hold : h ∈ s.held u → update s.locked L (some t) h.lock = some u := by
      intro hmem
      rw [update_of_ne (hne u h hmem hguard)]
      exact hk.guarded u h hmem hguard
    rcases mem_update_held hmem with ⟨rfl, hmem⟩ | ⟨-, hmem⟩
    · rcases mem_cons.mp hmem with rfl | hmem
      · exact update_self _ _ _
      · exact hold hmem
    · exact hold hmem
  · obtain rfl | hu := eq_or_ne u t
    · simp only [State.lock_held, update_self]
      refine pairwise_cons.mpr ⟨fun b hb _ hguard => ?_, hk.single u⟩
      exact (hne u b hb hguard).symm
    · simpa [hu] using hk.single u
  · obtain rfl | hM := eq_or_ne M L
    · have hu : t = u := by simpa using hlocked
      subst hu
      exact ⟨⟨M, true, first, false⟩, by simp, rfl, rfl⟩
    · obtain ⟨h, hmem, hrest⟩ := hk.holder M u (by simpa [hM] using hlocked)
      refine ⟨h, ?_, hrest⟩
      obtain rfl | hu := eq_or_ne u t
      · simp [hmem]
      · simpa [hu] using hmem

lemma Kept.markIdle (hk : Kept s) : Kept (s.markIdle t) := by
  have hback : ∀ u, ∀ h ∈ (s.markIdle t).held u,
      ∃ h' ∈ s.held u, h'.lock = h.lock ∧ h'.guard = h.guard ∧ h'.first = h.first := by
    intro u h hmem
    rcases mem_update_held hmem with ⟨rfl, hmem⟩ | ⟨-, hmem⟩
    · obtain ⟨h', hmem', rfl⟩ := mem_map.mp hmem
      exact ⟨h', hmem', rfl, rfl, rfl⟩
    · exact ⟨h, hmem, rfl, rfl, rfl⟩
  refine ⟨fun u h hmem => ?_, hk.issued, hk.distinct, hk.listed, fun u h hmem hguard => ?_,
    fun u => ?_, fun M u hlocked => ?_⟩
  · obtain ⟨h', hmem', -, -, hfirst⟩ := hback u h hmem
    exact hfirst ▸ hk.sampled u h' hmem'
  · obtain ⟨h', hmem', hlock, hguard', -⟩ := hback u h hmem
    exact hlock ▸ hk.guarded u h' hmem' (hguard'.trans hguard)
  · obtain rfl | hu := eq_or_ne u t
    · simp only [State.markIdle_held, update_self]
      exact pairwise_map.mpr (hk.single u)
    · simpa [hu] using hk.single u
  · obtain ⟨h, hmem, hrest⟩ := hk.holder M u hlocked
    obtain rfl | hu := eq_or_ne u t
    · refine ⟨{ h with idle := true }, ?_, hrest⟩
      simp only [State.markIdle_held, update_self]
      exact mem_map.mpr ⟨h, hmem, rfl⟩
    · exact ⟨h, by simpa [hu] using hmem, hrest⟩

lemma Kept.unlock (hk : Kept s) (hheld : s.held t = h :: rest) (hguard : h.guard) : Kept (s.unlock t h rest) := by
  have hsingle := hk.single t
  rw [hheld] at hsingle
  obtain ⟨hhead, htail⟩ := pairwise_cons.mp hsingle
  have hmine : s.locked h.lock = some t := hk.guarded t h (by simp [hheld]) hguard
  refine ⟨fun u x hmem => ?_, hk.issued, hk.distinct, hk.listed, fun u x hmem hx => ?_,
    fun u => ?_, fun M u hlocked => ?_⟩
  · rcases mem_update_held hmem with ⟨rfl, hmem'⟩ | ⟨-, hmem⟩
    · rcases mem_cons.mp hmem' with rfl | hmem
      · exact hk.sampled u h (by simp [hheld])
      · exact hk.sampled u x (by simp [hheld, hmem])
    · exact hk.sampled u x hmem
  · rcases mem_update_held hmem with ⟨rfl, hmem'⟩ | ⟨hu, hmem⟩
    · rcases mem_cons.mp hmem' with rfl | hmem
      · cases hx
      · show update s.locked h.lock none x.lock = some u
        rw [update_of_ne (hhead x hmem hguard hx).symm]
        exact hk.guarded u x (by simp [hheld, hmem]) hx
    · have hlock := hk.guarded u x hmem hx
      have hne : x.lock ≠ h.lock := by
        intro hL
        rw [hL, hmine] at hlock
        exact hu (Option.some.inj hlock).symm
      show update s.locked h.lock none x.lock = some u
      rw [update_of_ne hne]
      exact hlock
  · obtain rfl | hu := eq_or_ne u t
    · simp only [State.unlock_held, update_self]
      exact pairwise_cons.mpr ⟨fun b _ hfalse => (by cases hfalse), htail⟩
    · simpa [hu] using hk.single u
  · obtain rfl | hM := eq_or_ne M h.lock
    · simp at hlocked
    · obtain ⟨x, hmem, hL, hx⟩ := hk.holder M u (by simpa [hM] using hlocked)
      refine ⟨x, ?_, hL, hx⟩
      obtain rfl | hu := eq_or_ne u t
      · rw [hheld] at hmem
        rcases mem_cons.mp hmem with rfl | hmem
        · exact absurd hL.symm hM
        · simp [hmem]
      · simpa [hu] using hmem

lemma Kept.drain (hk : Kept s) (hwaking : s.waking t = []) (hheld : s.held t = h :: rest)
    (hguard : h.guard = false) : Kept (s.drain t h rest) := by
  have hsub : ∀ u, ∀ x ∈ (s.drain t h rest).held u, x ∈ s.held u := by
    intro u x hmem
    rcases mem_update_held hmem with ⟨rfl, hmem'⟩ | ⟨-, hmem'⟩
    · simp [hheld, hmem']
    · exact hmem'
  refine ⟨fun u x hmem => hk.sampled u x (hsub u x hmem), hk.issued, hk.distinct, fun v id w hr ho => ?_, fun u x hmem
    => hk.guarded u x (hsub u x hmem), fun u => ?_, fun M u hlocked => ?_⟩
  · rcases hk.listed v id w hr ho with hmem | ⟨u, hmem⟩
    · by_cases hid : id < h.wakesFrom
      · exact .inl (by simp [hmem, hid])
      · refine .inr ⟨t, ?_⟩
        simp only [State.drain_waking, update_self]
        exact Waiters.mem_drainFrom.mpr ⟨id, hmem, not_lt.mp hid⟩
    · refine .inr ⟨u, ?_⟩
      have hu : u ≠ t := by
        rintro rfl
        rw [hwaking] at hmem
        cases hmem
      simpa [hu] using hmem
  · obtain rfl | hu := eq_or_ne u t
    · have hsingle := hk.single u
      rw [hheld] at hsingle
      simpa using (pairwise_cons.mp hsingle).2
    · simpa [hu] using hk.single u
  · obtain ⟨x, hmem, hL, hx⟩ := hk.holder M u hlocked
    refine ⟨x, ?_, hL, hx⟩
    obtain rfl | hu := eq_or_ne u t
    · rw [hheld] at hmem
      rcases mem_cons.mp hmem with rfl | hmem
      · rw [hguard] at hx
        cases hx
      · simpa using hmem
    · simpa [hu] using hmem

lemma mem_waking_of_wake (ho : Owned s.sock) {rest : List (ℕ × ℕ)} {x y v : ℕ}
    (hwaking : s.waking t = (u, w) :: rest) (hmem : (v, x) ∈ s.waking y)
    (hopen : Open (s.wake t u w rest).sock v x) : (v, x) ∈ (s.wake t u w rest).waking y := by
  obtain rfl | hy := eq_or_ne y t
  · rw [hwaking] at hmem
    rcases mem_cons.mp hmem with heq | hmem
    · cases heq
      exact absurd hopen (not_open_wake ho)
    · simpa using hmem
  · simpa [hy] using hmem

lemma Kept.wake (hk : Kept s) (hw : Watched s.sock) (ho : Owned s.sock) {rest : List (ℕ × ℕ)}
    (hwaking : s.waking t = (u, w) :: rest) : Kept (s.wake t u w rest) := by
  have hl : Later s.sock (s.wake t u w rest).sock := later_wake hw ho
  refine ⟨hk.sampled, fun v id x hr => ?_, hk.distinct, fun v id x hr hopen => ?_, hk.guarded, hk.single, hk.holder⟩
  · exact ⟨(hk.issued v id x hr).1, lt_of_lt_of_le (hk.issued v id x hr).2 hl.nextWait⟩
  · rcases hk.listed v id x hr (hl.opened v x (hk.issued v id x hr).2 hopen) with hmem | ⟨y, hmem⟩
    · exact .inl hmem
    · exact .inr ⟨y, mem_waking_of_wake ho hwaking hmem hopen⟩

lemma Kept.register (hk : Kept s) (hw : w < s.sock.nextWait) : Kept (s.register t w) := by
  have hreg : ∀ u id w', (s.register t w).registered u = some (id, w') →
      u = t ∧ id = s.watchers.nextId ∧ w' = w ∨ u ≠ t ∧ s.registered u = some (id, w') := by
    intro u id w' hr
    obtain rfl | hu := eq_or_ne u t
    · simp only [State.register_registered, update_self, Option.some.injEq, Prod.mk.injEq] at hr
      exact .inl ⟨rfl, hr.1.symm, hr.2.symm⟩
    · exact .inr ⟨hu, by simpa [hu] using hr⟩
  refine ⟨fun u h hmem => le_succ_of_le (hk.sampled u h hmem), fun u id w' hr => ?_,
    fun u v id w' x hu hv => ?_, fun u id w' hr ho => ?_, hk.guarded, hk.single, hk.holder⟩
  · rcases hreg u id w' hr with ⟨-, rfl, rfl⟩ | ⟨-, hold⟩
    · exact ⟨lt_succ_self _, hw⟩
    · exact ⟨lt_succ_of_lt (hk.issued u id w' hold).1, (hk.issued u id w' hold).2⟩
  · rcases hreg u id w' hu with ⟨rfl, rfl, -⟩ | ⟨-, hold⟩
    · rcases hreg v _ x hv with ⟨rfl, -, -⟩ | ⟨-, hold⟩
      · rfl
      · exact absurd (hk.issued v _ x hold).1 (lt_irrefl _)
    · rcases hreg v id x hv with ⟨rfl, rfl, -⟩ | ⟨-, hold'⟩
      · exact absurd (hk.issued u _ w' hold).1 (lt_irrefl _)
      · exact hk.distinct u v id w' x hold hold'
  · rcases hreg u id w' hr with ⟨rfl, rfl, rfl⟩ | ⟨-, hold⟩
    · exact .inl (by simp)
    · exact (hk.listed u id w' hold ho).imp_left fun hmem => by simp [hmem]

lemma Kept.unwatch (hk : Kept s) (hreg : s.registered t = some (id, w)) : Kept (s.unwatch t id) := by
  have hback : ∀ u x w', (s.unwatch t id).registered u = some (x, w') → u ≠ t ∧ s.registered u = some (x, w') := by
    intro u x w' hr
    by_cases hu : u = t
    · simp [hu] at hr
    · exact ⟨hu, by simpa [hu] using hr⟩
  refine ⟨hk.sampled, fun u x w' hr => hk.issued u x w' (hback u x w' hr).2, fun u v x w' y hu hv => hk.distinct u v x
    w' y (hback u x w' hu).2 (hback v x y hv).2, fun u x w' hr ho => ?_, hk.guarded, hk.single, hk.holder⟩
  obtain ⟨hu, hold⟩ := hback u x w' hr
  refine (hk.listed u x w' hold ho).imp_left fun hmem => ?_
  have hx : x ≠ id := by
    rintro rfl
    exact hu (hk.distinct u t x w' w hold hreg)
  simp [hmem, hx]

lemma Kept.dropStep (hk : Kept s) (hw : Watched s.sock) (ho : Owned s.sock) (hd : DropStep s t s') : Kept s' := by
  cases hd with
  | wake hwaking => exact hk.wake hw ho hwaking
  | unlock hwaking hheld hguard => exact hk.unlock hheld hguard
  | drain hwaking hheld hguard => exact hk.drain hwaking hheld hguard

/-- A wait of a watcher's that is open now was open before, and its task knew no more. -/
theorem Kept.open_back (hk : Kept s) (hl : Later s.sock s'.sock) (hreg : s.registered t = some (id, w))
    (hopen : Open s'.sock t w) : Open s.sock t w ∧ s.sock.tried t ⊆ s'.sock.tried t :=
  have hlt := (hk.issued t id w hreg).2
  ⟨hl.opened t w hlt hopen, hl.tried t w hlt hopen⟩

/-! ## Being covered -/

lemma covers_of_busy (hmem : h ∈ s.held u) (hidle : h.idle = false) : Covers s t id w :=
  .inl ⟨u, h, hmem, by simp [Held.wakesFrom, hidle]⟩

/-- An idle guard covers the watchers that came during the hold. -/
theorem covers_of_first_le (hmem : h ∈ s.held u) (hid : h.first ≤ id) : Covers s t id w := by
  refine .inl ⟨u, h, hmem, ?_⟩
  unfold Held.wakesFrom
  split
  · exact hid
  · exact zero_le _

lemma Covers.lock (hc : Covers s t id w) : Covers (s.lock L u first) t id w := by
  refine hc.imp_left fun ⟨v, h, hmem, hfrom⟩ => ⟨v, h, ?_, hfrom⟩
  obtain rfl | hv := eq_or_ne v u
  · simp [hmem]
  · simpa [hv] using hmem

/-- **Dropping guards keeps a watcher covered**, as long as its wait is open. -/
theorem Covers.dropStep (hc : Covers s t id w) (hk : Kept s) (hl : Later s.sock s'.sock) (ho : Owned s.sock)
    (hreg : s.registered t = some (id, w)) (hopen : Open s'.sock t w) (hd : DropStep s u s') : Covers s' t id w := by
  have hopen' : Open s.sock t w := hl.opened t w (hk.issued t id w hreg).2 hopen
  cases hd with
  | @wake v x rest hwaking =>
    exact hc.imp_right (Exists.imp fun y hmem => mem_waking_of_wake ho hwaking hmem hopen)
  | @unlock h rest hwaking hheld hguard =>
    refine hc.imp_left fun ⟨v, x, hmem, hfrom⟩ => ?_
    obtain rfl | hv := eq_or_ne v u
    · rw [hheld] at hmem
      rcases mem_cons.mp hmem with rfl | hmem
      · exact ⟨v, { x with guard := false }, by simp, hfrom⟩
      · exact ⟨v, x, by simp [hmem], hfrom⟩
    · exact ⟨v, x, by simpa [hv] using hmem, hfrom⟩
  | @drain h rest hwaking hheld hguard =>
    have hrest : ∀ v x, x ∈ s.held v → x.wakesFrom ≤ id → v ≠ u ∨ x ∈ rest ∨ h.wakesFrom ≤ id := by
      intro v x hmem hfrom
      obtain rfl | hv := eq_or_ne v u
      · rw [hheld] at hmem
        rcases mem_cons.mp hmem with rfl | hmem
        · exact .inr (.inr hfrom)
        · exact .inr (.inl hmem)
      · exact .inl hv
    have hwoken : ∀ y, (t, w) ∈ s.waking y → Covers (s.drain u h rest) t id w := by
      intro y hmem
      have hy : y ≠ u := by
        rintro rfl
        rw [hwaking] at hmem
        cases hmem
      exact .inr ⟨y, by simpa [hy] using hmem⟩
    rcases hc with ⟨v, x, hmem, hfrom⟩ | ⟨y, hmem⟩
    · rcases hrest v x hmem hfrom with hv | hx | hhead
      · exact .inl ⟨v, x, by simpa [hv] using hmem, hfrom⟩
      · by_cases hv : v = u
        · exact .inl ⟨v, x, by simpa [hv] using hx, hfrom⟩
        · exact .inl ⟨v, x, by simpa [hv] using hmem, hfrom⟩
      · -- the guard dropped covered it, and it is in the list
        rcases hk.listed t id w hreg hopen' with hlist | ⟨y, hmem⟩
        · refine .inr ⟨u, ?_⟩
          simp only [State.drain_waking, update_self]
          exact Waiters.mem_drainFrom.mpr ⟨id, hlist, hhead⟩
        · exact hwoken y hmem
    · exact hwoken y hmem

end RocNet.Streams
