import RocNet.Model.NoiseWriting

/-!
# Writes of a Noise stream

Every nonce is used once (`Writing`). As long as no write has failed, what went to the socket is the frames of the
messages sealed, and their plaintexts are the data written (`Intact`).
-/

namespace RocNet.Noise

open Function List Transition

/-! ## Steps -/

/-- The steps of a writer. -/
inductive WriteStep (sealInPlace : ℕ → Bytes → Bytes) (w : Writer) : WriteLabel → Writer → Prop
  | start (hop : w.ops t = .none) : WriteStep sealInPlace w (.start t data) (w.setOp t (.wants data))
  | lock (hop : w.ops t = .wants data) (hfree : w.locked = none) :
      WriteStep sealInPlace w (.lock t) { w.setOp t (.chunks data data) with locked := some t }
  | usedUp (hop : w.ops t = .chunks data rest) : WriteStep sealInPlace w (.encrypt t ok) (w.release t).fail
  | sealed (hop : w.ops t = .chunks data rest) (hnonce : w.nonce ≠ maxNonce) :
      WriteStep sealInPlace w (.encrypt t true)
        ((w.nextNonce.addSealed ⟨w.nonce, rest.take maxPlaintext, sealInPlace w.nonce (rest.take maxPlaintext)⟩).setOp
        t (.sending data (rest.drop maxPlaintext) (frame (sealInPlace w.nonce (rest.take maxPlaintext)))))
  | unsealed (hop : w.ops t = .chunks data rest) (hnonce : w.nonce ≠ maxNonce) :
      WriteStep sealInPlace w (.encrypt t false) (w.nextNonce.release t).fail
  | send {t count : ℕ} {data rest left : Bytes} (hop : w.ops t = .sending data rest left) :
      WriteStep sealInPlace w (.send t count) ((w.send (left.take count)).setOp t
        (if (left.drop count).isEmpty then .chunks data rest else .sending data rest (left.drop count)))
  | fail (hop : w.ops t = .sending data rest left) : WriteStep sealInPlace w (.fail t) (w.release t).fail
  | finish (hop : w.ops t = .chunks data []) :
      WriteStep sealInPlace w (.finish t) { w.release t with written := w.written ++ [data] }

variable {sealInPlace : ℕ → Bytes → Bytes} {n₀ t u : ℕ} {w w' : Writer} {l : WriteLabel} {o : WriteOp}

lemma writeStep_cases (h : writeStep sealInPlace w l = some w') : WriteStep sealInPlace w l w' := by
  cases l <;> simp only [writeStep] at h
  case start t data =>
    split at h
    · next hop =>
      cases h
      exact .start hop
    · cases h
  case lock t =>
    split at h
    · next hop hfree =>
      cases h
      exact .lock hop hfree
    · cases h
  case encrypt t ok =>
    split at h
    · next hop =>
      split at h
      · cases h
      · cases h
        unfold encrypt
        split
        · exact .usedUp hop
        · next hnonce =>
          cases ok with
          | true => exact .sealed hop hnonce
          | false => exact .unsealed hop hnonce
    · cases h
  case send t count =>
    split at h
    · next hop =>
      obtain ⟨-, rfl⟩ := of_guard h
      exact .send hop
    · cases h
  case fail t =>
    split at h
    · next hop =>
      cases h
      exact .fail hop
    · cases h
  case finish t =>
    split at h
    · next hop =>
      obtain ⟨hnil, rfl⟩ := of_guard h
      rw [List.isEmpty_iff] at hnil
      subst hnil
      exact .finish hop
    · cases h

/-! ## Nonces -/

/-- The nonces used so far, in order, before the next one. -/
structure Numbered (n₀ nonce : ℕ) (used : List ℕ) : Prop where
  start_le : n₀ ≤ nonce
  le_max : nonce ≤ maxNonce
  range : used = List.range' n₀ (nonce - n₀)

namespace Numbered

variable {nonce nonce' : ℕ} {used : List ℕ}

lemma start (h : n₀ ≤ maxNonce) : Numbered n₀ n₀ [] := by
  refine ⟨le_rfl, h, ?_⟩
  rw [Nat.sub_self]
  rfl

section

variable (h : Numbered n₀ nonce used)

include h

/-- The nonces up to a later one are used. -/
theorem append (hle : nonce ≤ nonce') (hmax : nonce' ≤ maxNonce) :
    Numbered n₀ nonce' (used ++ range' nonce (nonce' - nonce)) := by
  have hstart := h.start_le
  refine ⟨hstart.trans hle, hmax, ?_⟩
  have hfrom : nonce = n₀ + (nonce - n₀) := by omega
  have hsum : nonce' - n₀ = (nonce - n₀) + (nonce' - nonce) := by omega
  rw [hsum, ← range'_append_1, ← hfrom, h.range]

lemma next (hnonce : nonce ≠ maxNonce) : Numbered n₀ (nonce + 1) (used ++ [nonce]) := by
  have hmax := h.le_max
  have happend := h.append (Nat.le_succ nonce) (by omega)
  rwa [Nat.succ_sub le_rfl, Nat.sub_self] at happend

lemma nodup : used.Nodup := by
  rw [h.range]
  exact nodup_range'

lemma lt_max : ∀ n ∈ used, n < maxNonce := by
  intro n hn
  have hmax := h.le_max
  have hstart := h.start_le
  rw [h.range, mem_range'_1] at hn
  omega

end

end Numbered

/-- What a writer has used and sealed, with its next nonce. -/
structure Writing (n₀ nonce : ℕ) (used : List ℕ) (log : List Sealed) : Prop where
  numbered : Numbered n₀ nonce used
  log_le : ∀ i x, log[i]? = some x → n₀ + i ≤ x.nonce
  log_lt : ∀ x ∈ log, x.nonce < maxNonce
  length_le : n₀ + log.length ≤ nonce
  sublist : (log.map Sealed.nonce).Sublist used

namespace Writing

variable {nonce : ℕ} {used : List ℕ} {log : List Sealed}

lemma skip (h : Writing n₀ nonce used log) (hnonce : nonce ≠ maxNonce) :
    Writing n₀ (nonce + 1) (used ++ [nonce]) log :=
  ⟨h.numbered.next hnonce, h.log_le, h.log_lt, h.length_le.trans (Nat.le_succ _),
    h.sublist.trans (sublist_append_left _ _)⟩

lemma addSealed (h : Writing n₀ nonce used log) (hnonce : nonce ≠ maxNonce) (hx : x.nonce = nonce) :
    Writing n₀ (nonce + 1) (used ++ [nonce]) (log ++ [x]) := by
  have hmax := h.numbered.le_max
  have hlength := h.length_le
  refine ⟨h.numbered.next hnonce, ?_, ?_, ?_, ?_⟩
  · intro i y hy
    rw [List.getElem?_append] at hy
    split at hy
    · exact h.log_le i y hy
    · next hge =>
      obtain ⟨hlt, heq⟩ := List.getElem?_eq_some_iff.mp hy
      rw [length_singleton] at hlt
      rw [getElem_singleton] at heq
      subst heq
      omega
  · intro y hy
    obtain hy | hy := mem_append.mp hy
    · exact h.log_lt y hy
    · rw [mem_singleton] at hy
      subst hy
      omega
  · rw [length_append, length_singleton]
    omega
  · rw [map_append, map_singleton, hx]
    exact h.sublist.append (Sublist.refl _)

end Writing

lemma WriteStep.writing (h : WriteStep sealInPlace w l w') (hw : Writing n₀ w.nonce w.used w.log) :
    Writing n₀ w'.nonce w'.used w'.log := by
  cases h with
  | sealed hop hnonce => exact hw.addSealed hnonce rfl
  | unsealed hop hnonce => exact hw.skip hnonce
  | _ => exact hw

lemma WriteStep.log_isPrefix (h : WriteStep sealInPlace w l w') : w.log <+: w'.log := by
  cases h with
  | sealed hop hnonce => exact prefix_append _ _
  | _ => exact prefix_refl _

/-! ## Bytes -/

def frames (messages : List Bytes) : Bytes := (messages.map frame).flatten

@[simp] lemma frames_nil : frames [] = [] := rfl

@[simp] lemma frames_cons (m : Bytes) (ms : List Bytes) : frames (m :: ms) = frame m ++ frames ms := rfl

@[simp] lemma frames_append (ms ms' : List Bytes) : frames (ms ++ ms') = frames ms ++ frames ms' := by
  unfold frames
  rw [map_append, flatten_append]

/-- The plaintext that was sealed, in order. -/
def plaintext (log : List Sealed) : Bytes := (log.map Sealed.plain).flatten

@[simp] lemma plaintext_append (log log' : List Sealed) :
    plaintext (log ++ log') = plaintext log ++ plaintext log' := by
  unfold plaintext
  rw [map_append, flatten_append]

/-- The data of a task with the lock, what of it is left to seal, and what is left to send of a frame. -/
def WriteOp.data : WriteOp → Bytes
  | .chunks data _ | .sending data _ _ => data
  | .none | .wants _ => []

def WriteOp.rest : WriteOp → Bytes
  | .chunks _ rest | .sending _ rest _ => rest
  | .none | .wants _ => []

def WriteOp.left : WriteOp → Bytes
  | .sending _ _ left => left
  | .none | .wants _ | .chunks _ _ => []

def WriteOp.holds : WriteOp → Bool
  | .chunks _ _ | .sending _ _ _ => true
  | .none | .wants _ => false

def Writer.current (w : Writer) : WriteOp :=
  match w.locked with
  | none => .none
  | some t => w.ops t

/-- What went to the socket and what was sealed, with the task that has the lock in its place. -/
structure Accounts (o : WriteOp) (log : List Sealed) (outbound : Bytes) (written : List Bytes) : Prop where
  sent : outbound ++ o.left = frames (log.map Sealed.ciphertext)
  sealed : written.flatten ++ o.data = plaintext log ++ o.rest

namespace Accounts

variable {log : List Sealed} {outbound data rest left : Bytes} {written : List Bytes}

lemma lock (h : Accounts .none log outbound written) (data : Bytes) :
    Accounts (.chunks data data) log outbound written := by
  obtain ⟨hsent, hsealed⟩ := h
  simp only [WriteOp.data, WriteOp.rest, append_nil] at hsealed
  refine ⟨hsent, ?_⟩
  simp only [WriteOp.data, WriteOp.rest]
  rw [hsealed]

lemma addSealed {x : Sealed} (h : Accounts (.chunks data rest) log outbound written)
    (hx : x.plain = rest.take maxPlaintext) :
    Accounts (.sending data (rest.drop maxPlaintext) (frame x.ciphertext)) (log ++ [x]) outbound written := by
  obtain ⟨hsent, hsealed⟩ := h
  simp only [WriteOp.left, append_nil] at hsent
  simp only [WriteOp.data, WriteOp.rest] at hsealed
  refine ⟨?_, ?_⟩
  · simp only [WriteOp.left]
    rw [hsent, map_append, frames_append, map_singleton, frames_cons, frames_nil, append_nil]
  · simp only [WriteOp.data, WriteOp.rest]
    have hone : plaintext [x] = x.plain := append_nil _
    rw [hsealed, plaintext_append, hone, hx, append_assoc, take_append_drop]

lemma send (h : Accounts (.sending data rest left) log outbound written) (count : ℕ) :
    Accounts (if (left.drop count).isEmpty then .chunks data rest else .sending data rest (left.drop count)) log
      (outbound ++ left.take count) written := by
  obtain ⟨hsent, hsealed⟩ := h
  simp only [WriteOp.left] at hsent
  split
  · next hnil =>
    rw [List.isEmpty_iff] at hnil
    refine ⟨?_, hsealed⟩
    have hwhole : left.take count = left := by
      rw [← append_nil (left.take count), ← hnil, take_append_drop]
    simp only [WriteOp.left, append_nil]
    rw [hwhole, hsent]
  · refine ⟨?_, hsealed⟩
    simp only [WriteOp.left]
    rw [append_assoc, take_append_drop, hsent]

lemma finish (h : Accounts (.chunks data []) log outbound written) :
    Accounts .none log outbound (written ++ [data]) := by
  obtain ⟨hsent, hsealed⟩ := h
  refine ⟨hsent, ?_⟩
  simp only [WriteOp.data, WriteOp.rest, append_nil] at hsealed ⊢
  rw [flatten_append, flatten_singleton, hsealed]

end Accounts

/-- A writer none of whose writes failed. -/
structure Intact (n₀ : ℕ) (w : Writer) : Prop where
  nonces : ∀ i x, w.log[i]? = some x → x.nonce = n₀ + i
  length : n₀ + w.log.length = w.nonce
  fits : ∀ x ∈ w.log, x.ciphertext.length ≤ 65535
  accounts : Accounts w.current w.log w.outbound w.written

/-- The task that has the lock, and no other, is where it needs it. -/
def Writer.Exclusive (w : Writer) : Prop := ∀ t, (w.ops t).holds = true ↔ w.locked = some t

namespace Writer.Exclusive

lemma current_eq (h : w.Exclusive) (hholds : (w.ops t).holds) : w.current = w.ops t := by
  unfold current
  rw [(h t).mp hholds]

lemma setOp (h : w.Exclusive) (ho : o.holds = (w.ops t).holds) : (w.setOp t o).Exclusive := by
  intro u
  rw [setOp_ops, setOp_locked]
  obtain rfl | hu := eq_or_ne u t
  · rw [update_self, ho]
    exact h u
  · rw [update_of_ne hu]
    exact h u

lemma release (h : w.Exclusive) (hholds : (w.ops t).holds) : (w.release t).Exclusive := by
  intro u
  rw [release_ops, release_locked]
  obtain rfl | hu := eq_or_ne u t
  · rw [update_self]
    exact ⟨nofun, nofun⟩
  · rw [update_of_ne hu]
    refine ⟨fun hholds' => ?_, nofun⟩
    have hlocked := (h u).mp hholds'
    rw [(h t).mp hholds, Option.some.injEq] at hlocked
    exact absurd hlocked.symm hu

lemma current_setOp_of_not (h : w.Exclusive) (hout : (w.ops t).holds = false) :
    (w.setOp t o).current = w.current := by
  unfold current
  rw [setOp_locked]
  split
  · rfl
  · next u hlocked =>
    have hu : u ≠ t := by
      rintro rfl
      rw [(h u).mpr hlocked] at hout
      cases hout
    rw [setOp_ops, update_of_ne hu]

lemma current_setOp (h : w.Exclusive) (hholds : (w.ops t).holds) : (w.setOp t o).current = o := by
  unfold current
  rw [setOp_locked, (h t).mp hholds]
  exact update_self _ _ _

end Writer.Exclusive

lemma WriteStep.exclusive (h : WriteStep sealInPlace w l w') (hw : w.Exclusive) : w'.Exclusive := by
  cases h with
  | start hop | sealed hop => exact hw.setOp (by rw [hop]; rfl)
  | @lock t data hop hfree =>
    intro u
    obtain rfl | hu := eq_or_ne u t
    · simp [WriteOp.holds]
    · have hout := hw u
      rw [hfree] at hout
      simpa [update_of_ne hu, Ne.symm hu] using hout
  | usedUp hop | unsealed hop | fail hop | finish hop => exact hw.release (by rw [hop]; rfl)
  | send hop =>
    refine hw.setOp ?_
    rw [hop]
    split <;> rfl

lemma WriteStep.intact (hlength : ∀ n p, (sealInPlace n p).length = p.length + 16) (h : WriteStep sealInPlace w l w')
    (hw : w.Exclusive) (hi : w.failed = false → Intact n₀ w) (hfailed : w'.failed = false) : Intact n₀ w' := by
  cases h with
  | @start t data hop =>
    have hcurrent : (w.setOp t (.wants data)).current = w.current := hw.current_setOp_of_not (by rw [hop]; rfl)
    refine ⟨(hi hfailed).nonces, (hi hfailed).length, (hi hfailed).fits, ?_⟩
    rw [hcurrent]
    exact (hi hfailed).accounts
  | @lock t data hop hfree =>
    have hnone : w.current = .none := by
      unfold Writer.current
      rw [hfree]
    have hcurrent : Writer.current { w.setOp t (.chunks data data) with locked := some t } =
        .chunks data data := update_self _ _ _
    have haccounts := (hi hfailed).accounts
    rw [hnone] at haccounts
    refine ⟨(hi hfailed).nonces, (hi hfailed).length, (hi hfailed).fits, ?_⟩
    rw [hcurrent]
    exact haccounts.lock data
  | usedUp hop | unsealed hop hnonce | fail hop => cases hfailed
  | @sealed t data rest hop hnonce =>
    have hholds : (w.ops t).holds := by
      rw [hop]
      rfl
    obtain ⟨hnonces, hlen, hfits, haccounts⟩ := hi hfailed
    rw [hw.current_eq hholds, hop] at haccounts
    refine ⟨?_, ?_, ?_, ?_⟩
    · intro i x hx
      change (w.log ++ [_])[i]? = some x at hx
      rw [List.getElem?_append] at hx
      split at hx
      · exact hnonces i x hx
      · next hge =>
        obtain ⟨hlt, heq⟩ := List.getElem?_eq_some_iff.mp hx
        rw [length_singleton] at hlt
        rw [getElem_singleton] at heq
        subst heq
        dsimp only
        omega
    · change n₀ + (w.log ++ [_]).length = w.nonce + 1
      rw [length_append, length_singleton]
      omega
    · intro x hx
      obtain hx | hx := mem_append.mp hx
      · exact hfits x hx
      · rw [mem_singleton] at hx
        subst hx
        dsimp only
        rw [hlength, length_take]
        unfold maxPlaintext
        omega
    · rw [Writer.Exclusive.current_setOp (w := w.nextNonce.addSealed _) hw hholds]
      refine haccounts.addSealed (x := ⟨w.nonce, rest.take maxPlaintext, _⟩) ?_
      rfl
  | @send t count data rest left hop =>
    have hholds : (w.ops t).holds := by
      rw [hop]
      rfl
    have haccounts := (hi hfailed).accounts
    rw [hw.current_eq hholds, hop] at haccounts
    refine ⟨(hi hfailed).nonces, (hi hfailed).length, (hi hfailed).fits, ?_⟩
    rw [Writer.Exclusive.current_setOp (w := w.send _) hw hholds]
    exact haccounts.send count
  | @finish t data hop =>
    have hholds : (w.ops t).holds := by
      rw [hop]
      rfl
    have haccounts := (hi hfailed).accounts
    rw [hw.current_eq hholds, hop] at haccounts
    exact ⟨(hi hfailed).nonces, (hi hfailed).length, (hi hfailed).fits, haccounts.finish⟩

end RocNet.Noise
