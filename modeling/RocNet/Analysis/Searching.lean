import RocNet.Library.Tally
import RocNet.Model.IdleSteps

/-!
# What `SEARCHING` counts

Each unit of `SEARCHING` should stand somewhere: with a thread that raised it and has not handed it on (`Token.call`),
with a started worker's `notified` flag (`Token.flag`), or with a worker that is looking (`Token.look`). `Counted`
says that it does. `notify_idle` raises the counter and stores the worker's flag in two steps, and when the flag is
set already its unit goes to nobody.
-/

namespace RocNet.Idle

open State

variable {s s' : State} {θ : Thread} {i : ℕ} {o : Op} {p q : Pc}

/-! ## Starting workers -/

/-- The operations made holding `STARTING`. -/
def Op.holdsStarting : Op → Bool
  | .startSlot _ | .startShared _ | .startNotified _ | .startAdd _ | .startThread _ | .startSet _
  | .startSub _ => true
  | _ => false

/-- What a call knows of the worker it is about. -/
def OpStarts (s : State) : Op → Prop
  | .add i | .storeNotified i | .wake i => s.slot i = true
  | .startShared i | .startNotified i => s.pc i = .off
  | .startAdd i | .startThread i => s.pc i = .off ∧ s.notified i = true
  | .startSet i => s.pc i ≠ .off
  | _ => True

/-- Workers are started one at a time, and have a slot once they have been. -/
structure Starts (s : State) : Prop where
  zero : s.slot 0 = true
  slots : ∀ i, s.slot i = true → s.pc i ≠ .off
  started : ∀ i, s.pc i ≠ .off → s.slot i = true ∨ ∃ θ, s.op θ = .startSet i
  holder : ∀ θ, (s.op θ).holdsStarting = true → s.starting = some θ
  ops : ∀ θ, OpStarts s (s.op θ)

/-- Only one thread is inside the locked part of `start_worker`. -/
theorem Starts.holder_unique (h : Starts s) (hθ : (s.op θ).holdsStarting) (hψ : (s.op ψ).holdsStarting) : ψ = θ := by
  have heq := (h.holder ψ hψ).symm.trans (h.holder θ hθ)
  exact Option.some.inj heq

lemma OpStarts.mono (h : OpStarts s o) (hslot : ∀ i, s.slot i → s'.slot i)
    (hoff : ∀ i, s'.pc i = .off ↔ s.pc i = .off)
    (hflag : ∀ i, s.pc i = .off → s.notified i → s'.notified i) : OpStarts s' o := by
  cases o with
  | add i | storeNotified i | wake i => exact hslot i h
  | startShared i | startNotified i => exact (hoff i).mpr h
  | startAdd i | startThread i => exact ⟨(hoff i).mpr h.1, hflag i h.1 h.2⟩
  | startSet i => exact fun hpc => h ((hoff i).mp hpc)
  | _ => trivial

section

variable (h : Starts s)

include h

lemma Starts.mono (hslot : s'.slot = s.slot) (hop : s'.op = s.op)
    (hstarting : s'.starting = s.starting) (hoff : ∀ i, s'.pc i = .off ↔ s.pc i = .off)
    (hflag : ∀ i, s.pc i = .off → s.notified i → s'.notified i) : Starts s' := by
  refine ⟨?_, ?_, ?_, ?_, ?_⟩
  · rw [hslot]
    exact h.zero
  · intro i hi
    rw [hslot] at hi
    exact fun hpc => h.slots i hi ((hoff i).mp hpc)
  · intro i hi
    rw [hslot, hop]
    exact h.started i fun hpc => hi ((hoff i).mpr hpc)
  · rw [hop, hstarting]
    exact h.holder
  · intro θ
    rw [hop]
    exact (h.ops θ).mono (fun i hi => hslot ▸ hi) hoff hflag

lemma Starts.setOp (hset : ∀ i, s.op θ = .startSet i → s.slot i)
    (hholds : o.holdsStarting → s.starting = some θ) (ho : OpStarts s o) : Starts (s.setOp θ o) := by
  refine ⟨h.zero, h.slots, fun i hi => ?_, fun ψ hψ => ?_, fun ψ => ?_⟩
  · rcases h.started i hi with hslot | ⟨ψ, hψ⟩
    · exact .inl hslot
    · obtain rfl | heq := eq_or_ne ψ θ
      · exact .inl (hset i hψ)
      · exact .inr ⟨ψ, by simpa [heq] using hψ⟩
  · obtain rfl | heq := eq_or_ne ψ θ
    · exact hholds (by simpa using hψ)
    · exact h.holder ψ (by simpa [heq] using hψ)
  · obtain rfl | heq := eq_or_ne ψ θ
    · simpa [OpStarts] using ho
    · simpa [heq, OpStarts] using h.ops ψ

lemma Starts.setStarting (hfree : ∀ θ, (s.op θ).holdsStarting = false) : Starts (s.setStarting ψ) :=
  ⟨h.zero, h.slots, h.started, fun θ hθ => absurd (hθ.symm.trans (hfree θ)) (by decide), h.ops⟩

lemma Starts.leave (hin : (s.op θ).holdsStarting)
    (hset : ∀ i, s.op θ = .startSet i → s.slot i) : Starts ((s.setStarting none).setOp θ .none) := by
  show Starts ((s.setOp θ .none).setStarting none)
  refine (h.setOp (o := .none) hset (fun ho => by cases ho) trivial).setStarting fun ψ => ?_
  obtain rfl | heq := eq_or_ne ψ θ
  · simp [Op.holdsStarting]
  · simp only [setOp_op, Function.update_of_ne heq]
    exact Bool.eq_false_iff.mpr fun hψ => heq (h.holder_unique hin hψ)

lemma Starts.outside (hop : s.op θ = o) (hne : o.holdsStarting = false) (hout : o'.holdsStarting = false)
    (ho' : OpStarts s o') : Starts (s.setOp θ o') := by
  refine h.setOp (fun i hi => ?_) (fun hin => absurd (hin.symm.trans hout) (by decide)) ho'
  rw [← hop, hi] at hne
  cases hne

lemma Starts.inside (hop : s.op θ = o) (hin : o.holdsStarting) (hne : ∀ i, o ≠ .startSet i) (ho' : OpStarts s o') :
    Starts (s.setOp θ o') :=
  h.setOp (fun i hi => absurd (hop.symm.trans hi) (hne i)) (fun _ => h.holder θ (hop ▸ hin)) ho'

lemma Starts.off_of_free (hop : s.op θ = .startSlot i) (hslot : s.slot i = false) : s.pc i = .off := by
  by_contra hpc
  rcases h.started i hpc with hset | ⟨ψ, hψ⟩
  · rw [hslot] at hset
    cases hset
  · -- whoever started it would be holding the lock
    have heq : ψ = θ := h.holder_unique (by rw [hop]; rfl) (by rw [hψ]; rfl)
    rw [heq, hop] at hψ
    cases hψ

lemma Starts.start (hop : s.op θ = .startThread i) (hp : p ≠ .off) :
    Starts ((s.setPc i p).setOp θ (.startSet i)) := by
  have hin : (s.op θ).holdsStarting := by rw [hop]; rfl
  have hops := h.ops θ
  rw [hop] at hops
  refine ⟨h.zero, fun j hj => ?_, fun j hj => ?_, fun ψ hψ => ?_, fun ψ => ?_⟩
  · obtain rfl | hji := eq_or_ne j i
    · simpa using hp
    · simpa [hji] using h.slots j hj
  · obtain rfl | hji := eq_or_ne j i
    · exact .inr ⟨θ, by simp⟩
    · rcases h.started j (by simpa [hji] using hj) with hslot | ⟨ψ, hψ⟩
      · exact .inl hslot
      · have hne : ψ ≠ θ := by
          rintro rfl
          rw [hop] at hψ
          cases hψ
        exact .inr ⟨ψ, by simpa [hne] using hψ⟩
  · obtain rfl | heq := eq_or_ne ψ θ
    · exact h.holder ψ hin
    · exact h.holder ψ (by simpa [heq] using hψ)
  · obtain rfl | heq := eq_or_ne ψ θ
    · simpa [OpStarts] using hp
    · have hψ : (s.op ψ).holdsStarting ≠ true := fun hψ => heq (h.holder_unique hin hψ)
      have hold := h.ops ψ
      simp only [setOp_op, setPc_op, Function.update_of_ne heq]
      revert hψ hold
      cases s.op ψ <;> simp [OpStarts, Op.holdsStarting]

lemma Starts.setSlot (hpc : s.pc i ≠ .off) : Starts (s.setSlot i) := by
  have hgrow : ∀ j, s.slot j → (s.setSlot i).slot j := by
    intro j hj
    by_cases hji : j = i
    · simp [hji]
    · simpa [hji] using hj
  refine ⟨hgrow 0 h.zero, fun j hj => ?_, fun j hj => ?_, h.holder, fun ψ => ?_⟩
  · obtain rfl | hji := eq_or_ne j i
    · exact hpc
    · exact h.slots j (by simpa [hji] using hj)
  · exact (h.started j hj).imp_left (hgrow j)
  · exact (h.ops ψ).mono hgrow (fun _ => Iff.rfl) fun _ _ hf => hf

lemma Starts.create (hop : s.op θ = .startShared i) : Starts ((s.setNotified i b).setPending i false) := by
  refine ⟨h.zero, h.slots, h.started, h.holder, fun ψ => ?_⟩
  by_cases hψ : (s.op ψ).holdsStarting = true
  · -- it is the only one inside
    have heq : ψ = θ := h.holder_unique (by rw [hop]; rfl) hψ
    have hops := h.ops θ
    rw [hop] at hops
    simpa [heq, hop, OpStarts] using hops
  · have hold := h.ops ψ
    simp only [setPending_op, setNotified_op]
    revert hψ hold
    cases s.op ψ <;> simp [OpStarts, Op.holdsStarting]

lemma Starts.opStep (hstep : OpStep s θ s') : Starts s' := by
  have hops := h.ops θ
  -- what a call writes beside the slots, the lock and the flags does not matter here
  have hsame : ∀ {r : State}, r.slot = s.slot → r.op = s.op → r.starting = s.starting →
      r.pc = s.pc → r.notified = s.notified → Starts r := by
    intro r hslot hop hstarting hpc hflag
    exact h.mono hslot hop hstarting (by simp [hpc]) (by simp [hflag])
  have hraise : ∀ j, Starts (s.setNotified j true) := by
    intro j
    refine h.mono rfl rfl rfl (fun _ => Iff.rfl) fun k _ hk => ?_
    by_cases hkj : k = j
    · simp [hkj]
    · simpa [hkj] using hk
  cases hstep with
  | read hop hread =>
    cases hread with
    | slot hslot => exact h.outside hop rfl rfl hslot
    | startFree hslot => exact h.inside hop rfl (by simp) (h.off_of_free hop hslot)
    | threadFailed => exact h.inside hop rfl (by simp) trivial
    | _ => exact h.outside hop rfl rfl trivial
  | pushLock hop hlock => exact (hsame (r := s.lockInject _ _) rfl rfl rfl rfl rfl).outside hop rfl rfl trivial
  | pushStore hop => exact (hsame (r := s.unlockInject) rfl rfl rfl rfl rfl).outside hop rfl rfl trivial
  | clearBit hop hset | clearedBit hop hset =>
    exact (hsame (r := s.setSleeping _ _) rfl rfl rfl rfl rfl).outside hop rfl rfl trivial
  | add hop =>
    rw [hop] at hops
    exact (hsame (r := s.setSearching (s.searching + 1)) rfl rfl rfl rfl rfl).outside hop rfl rfl hops
  | storeNotified hop =>
    rw [hop] at hops
    exact (hraise _).outside hop rfl rfl hops
  | wake hop | wakeMain hop => exact (hsame (r := s.setPending _ _) rfl rfl rfl rfl rfl).outside hop rfl rfl trivial
  | startLock hop hlock =>
    have hfree : ∀ ψ, (s.op ψ).holdsStarting = false := by
      intro ψ
      refine Bool.eq_false_iff.mpr fun hψ => ?_
      have hheld := h.holder ψ hψ
      rw [hlock] at hheld
      cases hheld
    exact (h.setStarting hfree).setOp (by simp [hop]) (fun _ => rfl) trivial
  | startAbandon hop =>
    rcases hop with hop | hop
    · exact h.leave (by rw [hop]; rfl) (by simp [hop])
    · exact h.leave (by rw [hop]; rfl) (by simp [hop])
  | startShared hop =>
    rw [hop] at hops
    exact (h.create hop).inside hop rfl (by simp) hops
  | startNotified hop =>
    rw [hop] at hops
    exact (hraise _).inside hop rfl (by simp) ⟨hops, by simp⟩
  | startAdd hop =>
    rw [hop] at hops
    exact (hsame (r := s.setSearching (s.searching + 1)) rfl rfl rfl rfl rfl).inside hop rfl (by simp) hops
  | startThread hop => exact h.start hop (by simp)
  | startSet hop =>
    rw [hop] at hops
    exact (h.setSlot hops).leave (θ := θ) (by simp [hop, Op.holdsStarting]) (by simp [hop])
  | startSub hop =>
    exact (hsame (r := s.setSearching (s.searching - 1)) rfl rfl rfl rfl rfl).leave (θ := θ)
      (by simp [hop, Op.holdsStarting]) (by simp [hop])
  | finish hop => exact (hsame (r := { s with mainDone := true }) rfl rfl rfl rfl rfl).outside hop rfl rfl trivial

lemma Starts.ownStep (hown : OwnStep s s' i) : Starts s' := by
  refine h.mono hown.slot hown.op hown.starting (fun j => ?_) fun j hoff hj => ?_
  · obtain rfl | hji := eq_or_ne j i
    · simp [hown.running, hown.runs]
    · rw [hown.pc j hji]
  · rw [hown.notified j (fun hji => hown.running (hji ▸ hoff))]
    exact hj

end

lemma starts_initial (count : ℕ) : Starts (initial count) := by
  refine ⟨rfl, fun i hi => ?_, fun i hi => ?_, fun θ hθ => ?_, fun θ => trivial⟩
  · have hzero : i = 0 := by simpa [initial] using hi
    simp [initial, hzero]
  · refine .inl ?_
    by_contra hslot
    simp_all [initial]
  · cases hθ

/-! ## The places of a unit of `SEARCHING` -/

/-- The operations of a thread that raised `SEARCHING` and has not handed its unit on. -/
def Op.raised : Op → Bool
  | .storeNotified _ | .startThread _ | .startSub _ => true
  | _ => false

/-- The points at which a worker has taken its flag and not lowered `SEARCHING`. -/
def Pc.looks : Pc → Bool
  | .steal _ | .sub _ _ => true
  | _ => false

inductive Token
  | call (θ : Thread)
  | flag (i : ℕ)
  | look (i : ℕ)
  deriving DecidableEq

/-- Whether a unit stands at a place. -/
def Token.Live (s : State) : Token → Prop
  | .call θ => (s.op θ).raised = true
  | .flag i => s.notified i = true ∧ s.pc i ≠ .off
  | .look i => (s.pc i).looks = true

/-- `SEARCHING` counts the places of its units. -/
def Counted (s : State) : Prop := Tally (Token.Live s) s.searching

section Live

variable {x : Token}

lemma live_setOp_of_ne (hx : x ≠ .call θ) : Token.Live (s.setOp θ o) x ↔ Token.Live s x := by
  cases x with
  | call ψ => simp [Token.Live, show ψ ≠ θ from fun heq => hx (heq ▸ rfl)]
  | flag j | look j => exact Iff.rfl

lemma live_setOp (h : o.raised = (s.op θ).raised) : Token.Live (s.setOp θ o) x ↔ Token.Live s x := by
  by_cases hx : x = .call θ
  · subst hx
    simp [Token.Live, h]
  · exact live_setOp_of_ne hx

lemma live_setNotified_of_ne (hx : x ≠ .flag i) : Token.Live (s.setNotified i b) x ↔ Token.Live s x := by
  cases x with
  | flag j => simp [Token.Live, show j ≠ i from fun heq => hx (heq ▸ rfl)]
  | call ψ | look j => exact Iff.rfl

lemma live_setNotified_off (h : s.pc i = .off) : Token.Live (s.setNotified i b) x ↔ Token.Live s x := by
  by_cases hx : x = .flag i
  · subst hx
    simp [Token.Live, h]
  · exact live_setNotified_of_ne hx

lemma live_setPc_of_ne (hflag : x ≠ .flag i) (hlook : x ≠ .look i) : Token.Live (s.setPc i q) x ↔ Token.Live s x := by
  cases x with
  | call ψ => exact Iff.rfl
  | flag j => simp [Token.Live, show j ≠ i from fun heq => hflag (heq ▸ rfl)]
  | look j => simp [Token.Live, show j ≠ i from fun heq => hlook (heq ▸ rfl)]

lemma live_setPc_started (hoff : s.pc i ≠ .off) (hq : q ≠ .off) (hx : x ≠ .look i) :
    Token.Live (s.setPc i q) x ↔ Token.Live s x := by
  by_cases hflag : x = .flag i
  · subst hflag
    simp [Token.Live, hoff, hq]
  · exact live_setPc_of_ne hflag hx

lemma live_setPc (hoff : s.pc i ≠ .off) (hq : q ≠ .off) (hlooks : q.looks = (s.pc i).looks) :
    Token.Live (s.setPc i q) x ↔ Token.Live s x := by
  by_cases hx : x = .look i
  · subst hx
    simp [Token.Live, hlooks]
  · exact live_setPc_started hoff hq hx

end Live

/-! ## `SEARCHING` counts them -/

/-- The thread's operations that store a flag find it down. -/
def StoresOnce (s : State) (θ : Thread) : Prop :=
  ∀ i, s.op θ = .storeNotified i → s.notified i = false

lemma Counted.opStep (h : Counted s) (hs : Starts s) (honce : StoresOnce s θ)
    (hstep : OpStep s θ s') : Counted s' := by
  have hops := hs.ops θ
  have hquiet : ∀ {r : State} {o' : Op}, r.searching = s.searching →
      (∀ x, Token.Live r x ↔ Token.Live s x) → o'.raised = (r.op θ).raised → Counted (r.setOp θ o') := by
    intro r o' hn hlive hraised
    show Tally (Token.Live (r.setOp θ o')) r.searching
    rw [hn]
    exact Tally.congr h fun x => (live_setOp hraised).trans (hlive x)
  have hsame : ∀ x, Token.Live s x ↔ Token.Live s x := fun _ => Iff.rfl
  cases hstep with
  | read hop hread =>
    refine hquiet rfl hsame ?_
    rw [hop]
    cases hread <;> rfl
  | pushLock hop hlock | pushStore hop | clearBit hop hset | clearedBit hop hset | wake hop
  | startLock hop hlock | startSet hop | finish hop | wakeMain hop => exact hquiet rfl hsame (by simp [hop, Op.raised])
  | add hop | startAdd hop =>
    refine Tally.insert (a := .call θ) h ?_ ?_ fun x hx => live_setOp_of_ne hx
    · simp [Token.Live, hop, Op.raised]
    · simp [Token.Live, Op.raised]
  | @storeNotified i hop =>
    rw [hop] at hops
    have hoff := hs.slots _ hops
    have hflag := honce i hop
    refine Tally.move (a := .call θ) (b := .flag i) h ?_ ?_ ?_ ?_ fun x hx hxf =>
      (live_setOp_of_ne hx).trans (live_setNotified_of_ne hxf)
    · simp [Token.Live, hop, Op.raised]
    · simp [Token.Live, hflag]
    · simp [Token.Live, Op.raised]
    · simp [Token.Live, hoff]
  | startAbandon hop =>
    refine hquiet rfl hsame ?_
    rcases hop with hop | hop
    · simp [hop, Op.raised]
    · simp [hop, Op.raised]
  | startShared hop | startNotified hop =>
    rw [hop] at hops
    exact hquiet rfl (fun x => live_setNotified_off hops) (by simp [hop, Op.raised])
  | @startThread i hop =>
    rw [hop] at hops
    refine Tally.move (a := .call θ) (b := .flag i) h ?_ ?_ ?_ ?_ fun x hx hxf => ?_
    · simp [Token.Live, hop, Op.raised]
    · simp [Token.Live, hops.1]
    · simp [Token.Live, Op.raised]
    · simp [Token.Live, hops.2]
    · refine (live_setOp_of_ne hx).trans ?_
      by_cases hlook : x = .look i
      · subst hlook
        simp [Token.Live, hops.1, Pc.looks]
      · exact live_setPc_of_ne hxf hlook
  | startSub hop =>
    refine Tally.erase (a := .call θ) h ?_ ?_ fun x hx => live_setOp_of_ne hx
    · simp [Token.Live, hop, Op.raised]
    · simp [Token.Live, Op.raised]

lemma Moves.looks_eq (h : Moves s i p q) : q.looks = p.looks := by
  cases h with
  | @noneInjected inLoop _ | @notNotified inLoop _ => cases inLoop <;> rfl
  | _ => rfl

lemma Counted.workerStep (h : Counted s) (hstep : WorkerStep s i s') : Counted s' := by
  have hown := hstep.own
  cases hstep with
  | @move p q hpc hmove =>
    refine Tally.congr h fun x => live_setPc hown.running hmove.ne_off.2 ?_
    rw [hpc]
    exact hmove.looks_eq
  | poll hpc hpoll =>
    refine Tally.congr h fun x => live_setPc hown.running hpoll.ne_off.2 ?_
    show _ = (s.pc i).looks
    rw [hpc]
    cases hpoll <;> rfl
  | takeInjected hpc hlock | announce hpc | clear hpc =>
    refine Tally.congr h fun x => live_setPc hown.running (by simp) ?_
    show _ = (s.pc i).looks
    rw [hpc]
    rfl
  | @storeLen inLoop took hpc =>
    refine Tally.congr h fun x => live_setPc hown.running (by simp) ?_
    show _ = (s.pc i).looks
    rw [hpc]
    cases inLoop <;> cases took <;> rfl
  | answer hpc hflag =>
    refine Tally.move (a := .flag i) (b := .look i) h ?_ ?_ ?_ ?_ fun x hx hxl =>
      (live_setPc_of_ne hx hxl).trans (live_setNotified_of_ne hx)
    · exact ⟨hflag, hown.running⟩
    · simp [Token.Live, hpc, Pc.looks]
    · simp [Token.Live]
    · simp [Token.Live, Pc.looks]
  | @searched site found hpc =>
    refine Tally.erase (a := .look i) h ?_ ?_ fun x hx =>
      live_setPc_started hown.running (by simp) hx
    · simp [Token.Live, hpc, Pc.looks]
    · cases site <;> cases found <;> simp [Token.Live, afterAnswer, Pc.looks]

lemma counted_initial (count : ℕ) : Counted (initial count) := by
  refine Tally.zero fun x => ?_
  cases x with
  | call θ => simp [Token.Live, initial, Op.raised]
  | flag i => simp [Token.Live, initial]
  | look i => by_cases hi : i = 0 <;> simp [Token.Live, initial, Pc.looks, hi]

end RocNet.Idle
