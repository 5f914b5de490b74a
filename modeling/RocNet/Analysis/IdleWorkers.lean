import RocNet.Analysis.Searching

/-!
# Workers on their way to sleep

Three facts that hold in every run: a worker whose flag is set, and that will not look at it before it sleeps, has a
wake-up coming (`Flagged`); while worker 0 sleeps, its bit of `SLEEPING` is set, or it is about to be woken
(`Announced`); and `INJECT_LEN` is `INJECT`'s length unless somebody holds its lock (`Measured`).
-/

namespace RocNet.Idle

variable {s s' : State} {θ : Thread} {i : ℕ} {o : Op} {p q : Pc}

/-! ## Flags of workers on their way to sleep -/

/-- The points after the last look at the flag before sleeping, and sleeping. -/
def Pc.committed : Pc → Bool
  | .steal .loop | .sub .loop _ | .announce | .check | .checkMain | .blocked => true
  | _ => false

/-- A worker that will not look at its set flag before it sleeps has a wake-up coming. -/
def Flagged (s : State) : Prop :=
  ∀ i, (s.pc i).committed = true → s.notified i = true → s.pending i = false → ∃ θ, s.op θ = .wake i

lemma Flagged.congr (h : Flagged s) (hpc : s'.pc = s.pc) (hnot : s'.notified = s.notified)
    (hpend : s'.pending = s.pending) (hop : s'.op = s.op) : Flagged s' := by
  unfold Flagged
  rw [hpc, hnot, hpend, hop]
  exact h

/-- A call goes on, or has woken whom it was about to wake. -/
theorem Flagged.setOp (h : Flagged s) (hwake : ∀ i, s.op θ = .wake i → s.pending i) : Flagged (s.setOp θ o) := by
  intro i hcom hnot hpend
  obtain ⟨ψ, hψ⟩ := h i hcom hnot hpend
  obtain rfl | heq := eq_or_ne ψ θ
  · have hset := hwake i hψ
    rw [show s.pending i = false from hpend] at hset
    cases hset
  · exact ⟨ψ, by simpa [heq] using hψ⟩

/-- A worker's own part changes, so that it has a wake-up, or no flag, or is not committed. -/
theorem Flagged.at (h : Flagged s) (hop : s'.op = s.op) (hpc : ∀ j ≠ i, s'.pc j = s.pc j)
    (hnot : ∀ j ≠ i, s'.notified j = s.notified j) (hpend : ∀ j ≠ i, s'.pending j = s.pending j)
    (hi : (s'.pc i).committed → s'.notified i → s'.pending i = false → ∃ θ, s.op θ = .wake i) : Flagged s' := by
  intro j hcom hflag hpending
  rw [hop]
  obtain rfl | hji := eq_or_ne j i
  · exact hi hcom hflag hpending
  · rw [hpc j hji] at hcom
    rw [hnot j hji] at hflag
    rw [hpend j hji] at hpending
    exact h j hcom hflag hpending

lemma Flagged.opStep (h : Flagged s) (hs : Starts s) (hstep : OpStep s θ s') : Flagged s' := by
  have hops := hs.ops θ
  have hquiet : ∀ {r : State} {o' : Op}, r.pc = s.pc → r.notified = s.notified →
      r.pending = s.pending → r.op = s.op → (∀ j, s.op θ ≠ .wake j) → Flagged (r.setOp θ o') := by
    intro r o' hpc hnot hpend hop hne
    refine (h.congr hpc hnot hpend hop).setOp fun j hj => ?_
    rw [hop] at hj
    exact absurd hj (hne j)
  cases hstep with
  | read hop hread =>
    refine hquiet rfl rfl rfl rfl fun j hj => ?_
    rw [hop] at hj
    subst hj
    cases hread
  | pushLock hop hlock | pushStore hop | clearBit hop hset | clearedBit hop hset | add hop
  | startLock hop hlock | startAdd hop | startSet hop | startSub hop | finish hop =>
    exact hquiet rfl rfl rfl rfl (by simp [hop])
  | @storeNotified i hop =>
    intro j hcom hflag hpend
    by_cases hji : j = i
    · exact ⟨θ, by simp [hji]⟩
    · obtain ⟨ψ, hψ⟩ := h j hcom (by simpa [hji] using hflag) hpend
      have hne : ψ ≠ θ := by
        rintro rfl
        rw [hop] at hψ
        cases hψ
      exact ⟨ψ, by simpa [hne] using hψ⟩
  | @wake i hop =>
    have hpending : Flagged (s.setPending i true) :=
      h.at (i := i) rfl (fun _ _ => rfl) (fun _ _ => rfl) (fun j hj => by simp [hj]) (by simp)
    refine hpending.setOp fun j hj => ?_
    have hij : Op.wake i = .wake j := hop.symm.trans hj
    cases hij
    simp
  | startAbandon hop =>
    refine hquiet rfl rfl rfl rfl fun j hj => ?_
    rw [hj] at hop
    rcases hop with hop | hop <;> cases hop
  | @startShared i hop =>
    rw [hop] at hops
    have hmade : Flagged ((s.setNotified i false).setPending i false) :=
      h.at (i := i) rfl (fun _ _ => rfl) (fun j hj => by simp [hj]) (fun j hj => by simp [hj]) (by simp)
    exact hmade.setOp (by simp [hop])
  | @startNotified i hop =>
    rw [hop] at hops
    have hoff : (s.pc i).committed = false := by rw [show s.pc i = .off from hops]; rfl
    have hset : Flagged (s.setNotified i true) :=
      h.at (i := i) rfl (fun _ _ => rfl) (fun j hj => by simp [hj]) (fun _ _ => rfl) (by simp [hoff])
    exact hset.setOp (by simp [hop])
  | @startThread i hop =>
    have hcreated : Flagged (s.setPc i (.swap .entry)) :=
      h.at (i := i) rfl (fun j hj => by simp [hj]) (fun _ _ => rfl) (fun _ _ => rfl)
        (by simp [Pc.committed])
    exact hcreated.setOp (by simp [hop])
  | wakeMain hop =>
    have hpending : Flagged (s.setPending 0 true) :=
      h.at (i := 0) rfl (fun _ _ => rfl) (fun _ _ => rfl) (fun j hj => by simp [hj]) (by simp)
    exact hpending.setOp (by simp [hop])

lemma Moves.committed (h : Moves s i p q) (hq : q.committed) : p.committed ∨ s.notified i = false := by
  cases h with
  | @noneInjected inLoop hlen => cases inLoop <;> cases hq
  | notNotified hflag => exact .inr hflag
  | @stolen site found =>
    cases site with
    | loop => exact .inl rfl
    | entry | wake => cases hq
  | checkZero hi hlen | checkOther hlen | block => exact .inl rfl
  | _ => cases hq

lemma Flagged.workerStep (h : Flagged s) (hstep : WorkerStep s i s') : Flagged s' := by
  have hown := hstep.own
  refine h.at hown.op hown.pc hown.notified hown.pending fun hcom hflag hpend => ?_
  cases hstep with
  | move hpc hmove =>
    rcases hmove.committed (by simpa using hcom) with hp | hnot
    · exact h i (hpc ▸ hp) hflag hpend
    · rw [show s.notified i from hflag] at hnot
      cases hnot
  | poll hpc hpoll => cases hpoll <;> simp [Pc.committed] at hcom
  | takeInjected hpc hlock | clear hpc => simp [Pc.committed] at hcom
  | @storeLen inLoop took hpc => cases inLoop <;> cases took <;> simp [afterInject, Pc.committed] at hcom
  | answer hpc hset => simp at hflag
  | @searched site found hpc =>
    cases site with
    | loop => exact h i (by rw [hpc]; rfl) hflag hpend
    | entry | wake => simp [afterAnswer, Pc.committed] at hcom
  | announce hpc => exact h i (by rw [hpc]; rfl) hflag hpend

/-! ## Worker 0's bit of `SLEEPING` -/

/-- The points of `park` between setting the bit and waking. -/
def Pc.announced : Pc → Bool
  | .check | .checkMain | .blocked => true
  | _ => false

/-- The operations that, having cleared worker 0's bit, are going to wake it. -/
def Op.wakesZero : Op → Bool
  | .getSlot 0 | .add 0 | .storeNotified 0 | .wake 0 => true
  | _ => false

/-- While worker 0 sleeps its bit is set, or whoever cleared it is going to wake it. -/
def Announced (s : State) : Prop :=
  (s.pc 0).announced = true → s.pending 0 = false → s.sleeping 0 = true ∨ ∃ θ, (s.op θ).wakesZero = true

/-- A call goes on, still going to wake worker 0 if it was. -/
theorem Announced.setOp (h : Announced s)
    (hwake : (s.op θ).wakesZero → o.wakesZero ∨ s.pending 0) : Announced (s.setOp θ o) := by
  intro hann hpend
  rcases h hann hpend with hbit | ⟨ψ, hψ⟩
  · exact .inl hbit
  · obtain rfl | heq := eq_or_ne ψ θ
    · rcases hwake hψ with ho | hset
      · exact .inr ⟨ψ, by simpa using ho⟩
      · rw [show s.pending 0 = false from hpend] at hset
        cases hset
    · exact .inr ⟨ψ, by simpa [heq] using hψ⟩

lemma Announced.congr (h : Announced s) (hpc : s'.pc 0 = s.pc 0) (hpend : s'.pending 0 = s.pending 0)
    (hbit : s'.sleeping 0 = s.sleeping 0) (hop : s'.op = s.op) : Announced s' := by
  unfold Announced
  rw [hpc, hpend, hbit, hop]
  exact h

lemma Announced.opStep (h : Announced s) (hs : Starts s) (hstep : OpStep s θ s') : Announced s' := by
  have hops := hs.ops θ
  have hzero : s.pc 0 ≠ .off := hs.slots 0 hs.zero
  have hquiet : ∀ {r : State} {o' : Op}, r.pc 0 = s.pc 0 → r.pending 0 = s.pending 0 →
      r.sleeping 0 = s.sleeping 0 → r.op = s.op →
      ((s.op θ).wakesZero = true → o'.wakesZero = true) → Announced (r.setOp θ o') := by
    intro r o' hpc hpend hbit hop hwake
    refine (h.congr hpc hpend hbit hop).setOp fun hw => .inl ?_
    rw [hop] at hw
    exact hwake hw
  cases hstep with
  | read hop hread =>
    refine hquiet rfl rfl rfl rfl fun hw => ?_
    rw [hop] at hw
    cases hread with
    | @slot i hslot => cases i <;> simp_all [Op.wakesZero]
    | @noSlot i hslot =>
      cases i with
      | zero =>
        rw [hs.zero] at hslot
        cases hslot
      | succ i => cases hw
    | _ => cases hw
  | pushLock hop hlock | pushStore hop | startLock hop hlock | startNotified hop | startAdd hop
  | startSet hop | startSub hop | finish hop => exact hquiet rfl rfl rfl rfl (by simp [hop, Op.wakesZero])
  | @clearBit i hop hset =>
    cases i with
    | zero => exact fun _ _ => .inr ⟨θ, by simp [Op.wakesZero]⟩
    | succ i => exact hquiet rfl rfl rfl rfl (by simp [hop, Op.wakesZero])
  | @clearedBit i hop hset =>
    refine hquiet rfl rfl ?_ rfl (by simp [hop, Op.wakesZero])
    obtain rfl | hi := eq_or_ne 0 i
    · simp [hset]
    · simp [hi]
  | @add i hop | @storeNotified i hop => exact hquiet rfl rfl rfl rfl (by cases i <;> simp [hop, Op.wakesZero])
  | @wake i hop =>
    cases i with
    | zero => exact fun _ hpend => absurd hpend (by simp)
    | succ i => exact hquiet rfl (by simp) rfl rfl (by simp [hop, Op.wakesZero])
  | startAbandon hop =>
    refine hquiet rfl rfl rfl rfl ?_
    rcases hop with hop | hop <;> simp [hop, Op.wakesZero]
  | @startShared i hop =>
    rw [hop] at hops
    have hi : 0 ≠ i := by
      rintro rfl
      exact hzero hops
    exact hquiet rfl (by simp [hi]) rfl rfl (by simp [hop, Op.wakesZero])
  | @startThread i hop =>
    rw [hop] at hops
    have hi : 0 ≠ i := by
      rintro rfl
      exact hzero hops.1
    exact hquiet (by simp [hi]) rfl rfl rfl (by simp [hop, Op.wakesZero])
  | wakeMain hop => exact fun _ hpend => absurd hpend (by simp)

lemma Announced.workerStep (h : Announced s) (hstep : WorkerStep s i s') : Announced s' := by
  have hown := hstep.own
  obtain rfl | hi := eq_or_ne 0 i
  · intro hann hpend
    rw [hown.op]
    cases hstep with
    | move hpc hmove =>
      refine h ?_ hpend
      rw [hpc]
      cases hmove with
      | @noneInjected inLoop hlen => cases inLoop <;> simp [afterInject, Pc.announced] at hann
      | @notNotified site hflag => cases site <;> simp [afterAnswer, Pc.announced] at hann
      | checkZero hi hlen | checkOther hlen | block => rfl
      | _ => simp [Pc.announced] at hann
    | poll hpc hpoll => cases hpoll <;> simp [Pc.announced] at hann
    | takeInjected hpc hlock | answer hpc hset | clear hpc => simp [Pc.announced] at hann
    | @storeLen inLoop took hpc =>
      cases inLoop <;> cases took <;> simp [afterInject, Pc.announced] at hann
    | @searched site found hpc =>
      cases site <;> cases found <;> simp [afterAnswer, Pc.announced] at hann
    | announce hpc => exact .inl (by simp)
  · exact h.congr (hown.pc 0 hi) (hown.pending 0 hi) (hown.sleeping 0 hi) hown.op

/-! ## The length of `INJECT` -/

/-- The points at which a worker holds `INJECT`'s lock. -/
def Pc.stores : Pc → Bool
  | .injectStore _ _ => true
  | _ => false

/-- `INJECT_LEN` is exact unless somebody inside `push` or `take_injected` holds the lock. -/
structure Measured (s : State) : Prop where
  length : s.injectLock = none → s.injectLen = s.inject.length
  locked : ∀ θ, s.injectLock = some θ → s.op θ = .pushStore ∨ ∃ i, θ = .worker i ∧ (s.pc i).stores = true

/-- Neither `INJECT` nor its lock changed, and its holder is where it was. -/
theorem Measured.congr (h : Measured s) (hlock : s'.injectLock = s.injectLock) (hlen : s'.injectLen = s.injectLen)
    (hinject : s'.inject = s.inject) (hop : ∀ ψ, s.op ψ = .pushStore → s'.op ψ = .pushStore)
    (hpc : ∀ i, (s.pc i).stores → (s'.pc i).stores) : Measured s' := by
  refine ⟨?_, fun θ hθ => ?_⟩
  · rw [hlock, hlen, hinject]
    exact h.length
  · rw [hlock] at hθ
    rcases h.locked θ hθ with hstore | ⟨i, hi, hstores⟩
    · exact .inl (hop θ hstore)
    · exact .inr ⟨i, hi, hpc i hstores⟩

lemma Measured.opStep (h : Measured s) (hs : Starts s) (hstep : OpStep s θ s') : Measured s' := by
  have hops := hs.ops θ
  have hquiet : ∀ {r : State} {o' : Op}, r.injectLock = s.injectLock → r.injectLen = s.injectLen →
      r.inject = s.inject → r.op = s.op → (∀ i, (s.pc i).stores = true → (r.pc i).stores = true) →
      s.op θ ≠ .pushStore → Measured (r.setOp θ o') := by
    intro r o' hlock hlen hinject hop hpc hne
    refine h.congr hlock hlen hinject (fun ψ hψ => ?_) hpc
    have hψθ : ψ ≠ θ := by
      rintro rfl
      exact hne hψ
    simpa [hψθ, hop] using hψ
  have hpcs : ∀ i, (s.pc i).stores → (s.pc i).stores := fun _ hi => hi
  cases hstep with
  | read hop hread =>
    refine hquiet rfl rfl rfl rfl hpcs fun heq => ?_
    rw [hop] at heq
    subst heq
    cases hread
  | pushLock hop hlock =>
    refine ⟨by simp, fun ψ hψ => ?_⟩
    have heq : θ = ψ := by simpa using hψ
    subst heq
    exact .inl (by simp)
  | pushStore hop => exact ⟨fun _ => rfl, fun ψ hψ => by cases hψ⟩
  | clearBit hop hset | clearedBit hop hset | add hop | storeNotified hop | wake hop
  | startLock hop hlock | startShared hop | startNotified hop | startAdd hop | startSet hop
  | startSub hop | finish hop | wakeMain hop => exact hquiet rfl rfl rfl rfl hpcs (by simp [hop])
  | startAbandon hop =>
    refine hquiet rfl rfl rfl rfl hpcs ?_
    rcases hop with hop | hop <;> simp [hop]
  | @startThread i hop =>
    rw [hop] at hops
    refine hquiet rfl rfl rfl rfl (fun j hj => ?_) (by simp [hop])
    have hji : j ≠ i := by
      rintro rfl
      rw [hops.1] at hj
      cases hj
    simpa [hji] using hj

lemma Measured.workerStep (h : Measured s) (hstep : WorkerStep s i s') : Measured s' := by
  have hquiet : ∀ {r : State} {q : Pc}, r.injectLock = s.injectLock → r.injectLen = s.injectLen →
      r.inject = s.inject → r.op = s.op → r.pc = s.pc → (s.pc i).stores = false →
      Measured (r.setPc i q) := by
    intro r q hlock hlen hinject hops hpc hout
    refine h.congr hlock hlen hinject (fun ψ hψ => hops ▸ hψ) fun j hj => ?_
    have hji : j ≠ i := by
      rintro rfl
      rw [hout] at hj
      cases hj
    simpa [hji, hpc] using hj
  cases hstep with
  | move hpc hmove | poll hpc hmove => exact hquiet rfl rfl rfl rfl rfl (by rw [hpc]; cases hmove <;> rfl)
  | takeInjected hpc hlock =>
    refine ⟨by simp, fun ψ hψ => ?_⟩
    have heq : Thread.worker i = ψ := by simpa using hψ
    exact .inr ⟨i, heq.symm, by simp [Pc.stores]⟩
  | storeLen hpc => exact ⟨fun _ => rfl, fun ψ hψ => by cases hψ⟩
  | answer hpc hset | searched hpc | announce hpc | clear hpc =>
    exact hquiet rfl rfl rfl rfl rfl (by simp [hpc, Pc.stores])

end RocNet.Idle
