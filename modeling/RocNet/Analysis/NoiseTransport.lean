import RocNet.Analysis.NoisePair

/-!
# A Noise stream over a faithful wire

Where the reading end's socket gives what the other end wrote, and its end only after the last write, no read fails as
long as no write did (`Wired`).
-/

namespace RocNet.Noise

open Received Function List Transition Bool

variable {sealInPlace : ℕ → Bytes → Bytes} {S n₀ max t : ℕ} {log : List Sealed} {r r' : Received}
  {w w' : Writer} {y y' : Pair} {m : PairLabel}

/-! ## Reads -/

section Reads

lemma frames_take_drop (log : List Sealed) (k : ℕ) : frames (log.map Sealed.ciphertext) =
      frames ((log.take k).map Sealed.ciphertext) ++ frames ((log.drop k).map Sealed.ciphertext) := by
  rw [← frames_append, ← map_append, take_append_drop]

variable {results : List (Except ReadError Bytes)} {front : Bytes} {k : ℕ} {ms : List Bytes}

lemma Takes.ciphertext_isPrefix {delivered : Bytes} {fine : Prop} (h : Takes n₀ log delivered front fine r k ms)
    (hfine : fine) (hfront : front <+: frames (log.map Sealed.ciphertext)) :
    r.ciphertext <+: frames ((log.drop k).map Sealed.ciphertext) := by
  rw [← h.bytes, frames_take_drop log k, h.fine hfine] at hfront
  exact (prefix_append_right_inj _).mp hfront

lemma Takes.message_eq {delivered : Bytes} {fine : Prop} (h : Takes n₀ log delivered front fine r k ms) (hfine : fine)
    (hfront : front <+: frames (log.map Sealed.ciphertext)) (hfits : ∀ x ∈ log, x.ciphertext.length ≤ 65535)
    (hwhole : r.wholeMessage = some len) : ∃ x, log[k]? = some x ∧ r.message len = x.ciphertext := by
  have hle := Received.le_length_of_wholeMessage hwhole
  have hcipher := h.ciphertext_isPrefix hfine hfront
  cases hdrop : log.drop k with
  | nil =>
    rw [hdrop, map_nil, frames_nil, prefix_nil] at hcipher
    rw [hcipher, length_nil] at hle
    omega
  | cons x rest =>
    have hget : log[k]? = some x := by
      rw [← head?_drop, hdrop]
      rfl
    rw [hdrop, map_cons, frames_cons] at hcipher
    exact ⟨x, hget, message_of_isPrefix hwhole (hfits x (mem_of_getElem? hget)) hcipher⟩

lemma Record.next_fine (h : Record n₀ log r results front) (hnonces : ∀ i x, log[i]? = some x → x.nonce = n₀ + i)
    (hlt : ∀ x ∈ log, x.nonce < maxNonce) (hfits : ∀ x ∈ log, x.ciphertext.length ≤ 65535)
    (hfront : front <+: frames (log.map Sealed.ciphertext))
    (hended : r.ended → front = frames (log.map Sealed.ciphertext)) (hfine : Fine results)
    (hnext : r.next (opening sealInPlace log) max = (x, r')) : Fine (reported results x) := by
  have hfailed : r.failed = false := by
    by_contra hne
    rw [not_eq_false] at hne
    exact h.failed hne hfine
  have hle : ∀ i x, log[i]? = some x → n₀ + i ≤ x.nonce := fun i x hx => (hnonces i x hx).ge
  obtain ⟨r₁, hr₁, hstops⟩ := Received.next_cases (I := Record.Midway n₀ log r results front)
    (fun r₁ r₂ hr₁ hopens => hr₁.opens hle h hopens) (h.midway hfailed) hfailed hnext
  obtain ⟨k, ms, htakes⟩ := hr₁.takes
  have hadd : ∀ bytes, Fine (results ++ [.ok bytes]) := by
    intro bytes z hz
    obtain hz | hz := mem_append.mp hz
    · exact hfine z hz
    · exact ⟨bytes, mem_singleton.mp hz⟩
  cases hstops with
  | takes htake | ends htaken hend hnil => exact hadd _
  | waits htaken hwhole hnot => exact hfine
  | cut hwhole hend hne =>
    -- all that was written is there, so that a whole message is left
    have hall := hended (hr₁.ended ▸ hend)
    have hcipher : r'.ciphertext = frames ((log.drop k).map Sealed.ciphertext) := by
      have hbytes := htakes.bytes
      rw [hall, frames_take_drop log k, htakes.fine hfine] at hbytes
      exact append_cancel_left hbytes
    cases hdrop : log.drop k with
    | nil =>
      rw [hdrop] at hcipher
      exact absurd hcipher hne
    | cons x rest =>
      rw [hdrop, map_cons, frames_cons] at hcipher
      have hmem : x ∈ log := mem_of_mem_drop (by rw [hdrop]; exact mem_cons_self)
      rw [wholeMessage_of_frame hcipher (hfits x hmem)] at hwhole
      cases hwhole
  | usedUp hwhole hnonce =>
    obtain ⟨x, hx, -⟩ := htakes.message_eq hfine hfront hfits hwhole
    have hx' := hlt x (mem_of_getElem? hx)
    rw [hnonces k x hx, ← htakes.nonce, hnonce] at hx'
    exact absurd hx' (lt_irrefl _)
  | rejected hwhole hnonce hreject =>
    obtain ⟨x, hx, hmessage⟩ := htakes.message_eq hfine hfront hfits hwhole
    rw [hmessage, htakes.nonce, ← hnonces k x hx] at hreject
    exact absurd hreject (opening_ne_none (mem_of_getElem? hx))

lemma next_ended (hnext : r.next c max = (x, r')) : r'.ended = r.ended := by
  cases hfailed : r.failed with
  | true =>
    rw [Received.next_of_failed hfailed] at hnext
    cases hnext
    rfl
  | false =>
    have hkept : ∀ r₁ r₂ : Received, r₁.ended = r.ended → Received.Opens c r₁ r₂ → r₂.ended = r.ended := by
      intro r₁ r₂ hr₁ hopens
      cases hopens
      exact hr₁
    obtain ⟨r₁, hr₁, hstops⟩ := Received.next_cases hkept rfl hfailed hnext
    cases hstops with
    | takes htake =>
      rw [(take_some htake).1]
      exact hr₁
    | _ => exact hr₁

end Reads

/-! ## Writes -/

lemma WriteStep.outbound_isPrefix (h : WriteStep sealInPlace w l w') : w.outbound <+: w'.outbound := by
  cases h with
  | send hop => exact prefix_append _ _
  | _ => exact prefix_refl _

lemma WriteStep.not_failed (h : WriteStep sealInPlace w l w') (hw' : w'.failed = false) : w.failed = false := by
  cases h with
  | usedUp | unsealed | fail => cases hw'
  | _ => exact hw'

lemma WriteStep.eq_start (h : WriteStep sealInPlace w l w') (hnone : ∀ t, w.ops t = .none) :
    ∃ t data, l = .start t data := by
  cases h with
  | start hop => exact ⟨_, _, rfl⟩
  | lock hop | usedUp hop | sealed hop | unsealed hop | send hop | fail hop | finish hop =>
    rw [hnone] at hop
    cases hop

lemma Writer.current_none (hnone : ∀ t, w.ops t = .none) : w.current = .none := by
  unfold Writer.current
  split
  · rfl
  · next t _ => exact hnone t

/-! ## The wire -/

/-- The reading end has seen the end of its socket, or is about to. -/
def Pair.Ending (y : Pair) : Prop :=
  y.reader.received.ended = true ∨ ∃ t, (y.reader.ops t).hand = some []

/-- The wire is faithful: a read of the socket gives the next bytes that were written, and the end once
all of them are read and no task writes; no write begins after the end. -/
def FaithfulWire (S : ℕ) (y : Pair) : PairLabel → Prop
  | .read (.readSocket _ bytes _) => y.reader.stream.sock.ready S false = true →
      bytes <+: y.writer.outbound.drop y.reader.inbound.length ∧
        (bytes = [] → y.reader.inbound = y.writer.outbound ∧ ∀ t, y.writer.ops t = .none)
  | .write (.start _ _) => ¬ y.Ending
  | _ => True

structure Wired (n₀ : ℕ) (y : Pair) : Prop where
  exclusive : y.writer.Exclusive
  intact : y.writer.failed = false → Intact n₀ y.writer
  carried : y.reader.inbound <+: y.writer.outbound
  ended : y.Ending → y.reader.inbound = y.writer.outbound ∧ ∀ t, y.writer.ops t = .none
  fine : y.writer.failed = false → Fine y.reader.results

/-- What was written is the frames of what was sealed, as far as it was sent. -/
theorem Intact.outbound_isPrefix (h : Intact n₀ w) : w.outbound <+: frames (w.log.map Sealed.ciphertext) :=
  ⟨_, h.accounts.sent⟩

lemma Intact.outbound_eq (h : Intact n₀ w) (hnone : ∀ t, w.ops t = .none) :
    w.outbound = frames (w.log.map Sealed.ciphertext) ∧ w.written.flatten = plaintext w.log := by
  obtain ⟨hsent, hsealed⟩ := h.accounts
  rw [Writer.current_none hnone] at hsent hsealed
  simp only [WriteOp.left, WriteOp.data, WriteOp.rest, append_nil] at hsent hsealed
  exact ⟨hsent, hsealed⟩

lemma Wired.write (hlength : ∀ n p, (sealInPlace n p).length = p.length + 16) (h : Wired n₀ y)
    (hfaithful : FaithfulWire S y (.write l)) (hstep : WriteStep sealInPlace y.writer l w) :
    Wired n₀ { y with writer := w } := by
  refine ⟨hstep.exclusive h.exclusive, hstep.intact hlength h.exclusive h.intact,
    h.carried.trans hstep.outbound_isPrefix, fun hending => ?_, fun hw => h.fine (hstep.not_failed hw)⟩
  obtain ⟨-, hnone⟩ := h.ended hending
  obtain ⟨t, data, rfl⟩ := hstep.eq_start hnone
  exact absurd hending hfaithful

lemma Wired.read {opened : List ℕ} (h : Wired n₀ y) (hj : Joint n₀ S y) (hfaithful : FaithfulWire S y (.read l))
    (hstep : Step (opening sealInPlace y.writer.log) S y.reader l s) :
    Wired n₀ { y with reader := s, opened := opened } := by
  obtain ⟨front, hand, hrecord, hinbound, hhands, hnohand⟩ := hj.reading.record
  cases hstep.effect with
  | same hreceived hresults hin hhand hopened =>
    refine ⟨h.exclusive, h.intact, by rw [hin]; exact h.carried, fun hending => ?_, fun hw => ?_⟩
    · have hending' : y.Ending := by
        unfold Pair.Ending at hending
        simp only [hreceived, hhand] at hending
        exact hending
      rw [hin]
      exact h.ended hending'
    · rw [hresults]
      exact h.fine hw
  | @look t max q x r' hop hq hnext hreceived hresults hin hhand hopened =>
    have hnone := hand_none hj.watchful (t := t) (by rw [hop]; rfl) (by rw [hop]; rfl)
    rw [hnohand hnone, append_nil] at hinbound
    refine ⟨h.exclusive, h.intact, by rw [hin]; exact h.carried, fun hending => ?_, fun hw => ?_⟩
    · have hending' : y.Ending := by
        unfold Pair.Ending at hending
        simp only [hreceived, hhand, next_ended hnext] at hending
        exact hending
      rw [hin]
      exact h.ended hending'
    · have hintact := h.intact hw
      rw [hresults]
      refine hrecord.next_fine hintact.nonces hj.writing.log_lt hintact.fits ?_ (fun hend => ?_) (h.fine hw) hnext
      · rw [hinbound]
        exact h.carried.trans hintact.outbound_isPrefix
      · obtain ⟨heq, hidle⟩ := h.ended (.inl hend)
        rw [hinbound, heq, (hintact.outbound_eq hidle).1]
  | @readSome t q bytes drain hl hready hop hops hreceived hresults hin hopened =>
    subst hl
    have hnone := hand_none hj.watchful (t := t) (by rw [hop]; rfl) (by rw [hop]; rfl)
    obtain ⟨hbytes, hend⟩ := hfaithful hready
    refine ⟨h.exclusive, h.intact, ?_, fun hending => ?_, fun hw => ?_⟩
    · obtain ⟨rest, hrest⟩ := h.carried
      rw [← hrest, drop_left] at hbytes
      rw [hin, ← hrest]
      exact (prefix_append_right_inj _).mpr hbytes
    · -- the end is new: it is what was just read
      have hnil : bytes = [] := by
        obtain hended | ⟨u, hu⟩ := hending
        · rw [hreceived] at hended
          have hread := hj.watchful.placed.unreadable t q hop
          unfold Received.readable at hread
          simp only [or_eq_false_iff] at hread
          rw [hread.1.2] at hended
          cases hended
        · dsimp only at hu
          rw [hops] at hu
          obtain rfl | hut := eq_or_ne u t
          · rw [update_self] at hu
            cases hu
            rfl
          · rw [update_of_ne hut, hnone u] at hu
            cases hu
      rw [hin, hnil, append_nil]
      exact hend hnil
    · rw [hresults]
      exact h.fine hw
  | @extend t q bytes hop hops hreceived hresults hin hopened =>
    refine ⟨h.exclusive, h.intact, by rw [hin]; exact h.carried, fun hending => ?_, fun hw => ?_⟩
    · have hending' : y.Ending := by
        obtain hended | ⟨u, hu⟩ := hending
        · rw [hreceived, Received.receive_ended, or_eq_true, List.isEmpty_iff] at hended
          obtain hended | rfl := hended
          · exact .inl hended
          · exact .inr ⟨t, by rw [hop]; rfl⟩
        · dsimp only at hu
          rw [hops] at hu
          obtain rfl | hut := eq_or_ne u t
          · rw [update_self] at hu
            cases hu
          · rw [update_of_ne hut] at hu
            exact .inr ⟨u, hu⟩
      rw [hin]
      exact h.ended hending'
    · rw [hresults]
      exact h.fine hw

lemma wired_init (h : (pair sealInPlace S n₀).init y) : Wired n₀ y := by
  cases h
  refine ⟨fun t => ⟨nofun, nofun⟩, fun _ => ⟨nofun, rfl, nofun, ⟨rfl, rfl⟩⟩, prefix_refl _,
    fun _ => ⟨rfl, fun _ => rfl⟩, fun _ => nofun⟩

lemma Wired.delivered_eq (h : Wired n₀ y) (hj : Joint n₀ S y) (hw : y.writer.failed = false)
    (hclean : .ok [] ∈ y.reader.results) : delivered y.reader.results = y.writer.written.flatten := by
  obtain ⟨_, _, hrecord, -⟩ := hj.reading.record
  obtain ⟨hfailed, hended, hnil, htaken⟩ := hrecord.clean hclean
  obtain ⟨k, ms, htakes⟩ := (hj.front_eq hended).takes hfailed
  obtain ⟨heq, hidle⟩ := h.ended (.inl hended)
  obtain ⟨hout, hwritten⟩ := (h.intact hw).outbound_eq hidle
  have hbytes := htakes.bytes
  rw [hnil, append_nil, htakes.fine (h.fine hw), heq, hout, frames_take_drop y.writer.log k] at hbytes
  have hnone := append_right_eq_self.mp hbytes.symm
  have hall : y.writer.log.take k = y.writer.log := by
    cases hdrop : y.writer.log.drop k with
    | nil => rw [← append_nil (y.writer.log.take k), ← hdrop, take_append_drop]
    | cons x rest =>
      rw [hdrop, map_cons, frames_cons] at hnone
      exact absurd (append_eq_nil_iff.mp hnone).1 (frame_ne_nil _)
  have htext := htakes.text
  rw [drop_eq_nil_of_le htaken, append_nil, hall] at htext
  rw [htext, hwritten]

/-! ## The end of the socket -/

/-- The bytes are those of whole messages. -/
def Whole (bytes : Bytes) : Prop := ∃ ms : List Bytes, (∀ m ∈ ms, m.length ≤ 65535) ∧ frames ms = bytes

lemma Joint.whole_of_clean (h : Joint n₀ S y) (hclean : .ok [] ∈ y.reader.results) :
    y.reader.received.ended ∧ Whole y.reader.inbound := by
  obtain ⟨front, hand, hrecord, -⟩ := h.reading.record
  obtain ⟨hfailed, hended, hnil, -⟩ := hrecord.clean hclean
  obtain ⟨k, ms, htakes⟩ := (h.front_eq hended).takes hfailed
  have hbytes := htakes.bytes
  rw [hnil, append_nil] at hbytes
  exact ⟨hended, ms, htakes.short, hbytes⟩

/-- After the end in the middle of a message, a read returns what is left of the messages before, and
then fails. -/
theorem Joint.next_cut (h : Joint n₀ S y) (hended : y.reader.received.ended) (hcut : ¬ Whole y.reader.inbound)
    (hmax : 1 ≤ max) (hnext : y.reader.received.next (opening sealInPlace y.writer.log) max = (x, r')) :
    (∃ e, x = .error e) ∨ ∃ bytes, bytes ≠ [] ∧ x = .ok (some bytes) := by
  have hrecord := h.front_eq hended
  cases hfailed : y.reader.received.failed with
  | true =>
    rw [Received.next_of_failed hfailed] at hnext
    cases hnext
    exact .inl ⟨_, rfl⟩
  | false =>
    obtain ⟨r₁, hr₁, hstops⟩ := Received.next_cases
      (I := Record.Midway n₀ y.writer.log y.reader.received y.reader.results y.reader.inbound)
      (fun r₁ r₂ hr₁ hopens => hr₁.opens h.writing.log_le hrecord hopens) (hrecord.midway hfailed) hfailed hnext
    obtain ⟨k, ms, htakes⟩ := hr₁.takes
    cases hstops with
    | takes htake => exact .inr ⟨_, (take_some htake).2.2 hmax, rfl⟩
    | waits htaken hwhole hnot =>
      rw [hr₁.ended, hended] at hnot
      cases hnot
    | ends htaken hend hnil =>
      have hbytes := htakes.bytes
      rw [hnil, append_nil] at hbytes
      exact absurd ⟨ms, htakes.short, hbytes⟩ hcut
    | cut | usedUp | rejected => exact .inl ⟨_, rfl⟩

lemma Wired.next_ended (h : Wired n₀ y) (hj : Joint n₀ S y) (hw : y.writer.failed = false)
    (hended : y.reader.received.ended) (max : ℕ) :
    ∃ bytes r', y.reader.received.next (opening sealInPlace y.writer.log) max = (.ok (some bytes), r') := by
  have hrecord := hj.front_eq hended
  have hintact := h.intact hw
  obtain ⟨heq, hidle⟩ := h.ended (.inl hended)
  have hout : y.reader.inbound = frames (y.writer.log.map Sealed.ciphertext) := by
    rw [heq, (hintact.outbound_eq hidle).1]
  match hnext : y.reader.received.next (opening sealInPlace y.writer.log) max with
  | (.ok (some bytes), r') => exact ⟨bytes, r', rfl⟩
  | (.error e, r') =>
    have hfront : y.reader.inbound <+: frames (y.writer.log.map Sealed.ciphertext) := hout ▸ prefix_refl _
    have hfine := hrecord.next_fine hintact.nonces hj.writing.log_lt hintact.fits hfront (fun _ => hout)
      (h.fine hw) hnext
    exact absurd hfine not_fine_error
  | (.ok none, r') =>
    have hread := Received.next_none hnext
    have hended' := Noise.next_ended hnext
    unfold Received.readable at hread
    simp only [or_eq_false_iff] at hread
    rw [hread.1.2, hended] at hended'
    cases hended'

/-! ## What a Noise stream promises -/

/-- **A Noise stream delivers a prefix of what was written.** On any wire, whatever the calls on either end,
with reads of one byte at least: reads return a prefix of the plaintext sealed, in order; no end uses a nonce
twice; after a message that was rejected, reads return neither bytes nor the end; the end is reported only where
the bytes received are whole messages, and otherwise reads fail once they have returned what came before. On a
faithful wire, as long as no write fails, no read does; after the end every read returns, and the end is
reported only once all data written is delivered. -/
theorem noise_stream_delivers (hlength : ∀ n p, (sealInPlace n p).length = p.length + 16) (hn₀ : n₀ ≤ maxNonce) :
    (∀ y, Transition.ReachableBy (pair sealInPlace S n₀) (fun _ m => SizedReads m) y →
      delivered y.reader.results <+: plaintext y.writer.log ∧
      (y.writer.used.Nodup ∧ (y.writer.log.map Sealed.nonce).Sublist y.writer.used ∧ y.opened.Nodup ∧
        ∀ n, n ∈ y.writer.used ∨ n ∈ y.opened → n < maxNonce) ∧
      (y.reader.results.Pairwise fun x z => x = .error .notAuthentic → ∀ bytes, z ≠ .ok bytes) ∧
      (.ok [] ∈ y.reader.results → y.reader.received.ended = true ∧ Whole y.reader.inbound) ∧
      (y.reader.received.ended = true → ¬ Whole y.reader.inbound → ∀ max x r', 1 ≤ max →
        y.reader.received.next (opening sealInPlace y.writer.log) max = (x, r') →
          (∃ e, x = .error e) ∨ ∃ bytes, bytes ≠ [] ∧ x = .ok (some bytes))) ∧
    (∀ y, Transition.ReachableBy (pair sealInPlace S n₀) (fun y m => SizedReads m ∧ FaithfulWire S y m) y →
      y.writer.failed = false → (∀ x ∈ y.reader.results, ∃ bytes, x = .ok bytes) ∧
      (y.reader.received.ended = true → ∀ max, ∃ bytes r',
        y.reader.received.next (opening sealInPlace y.writer.log) max = (.ok (some bytes), r')) ∧
      (.ok [] ∈ y.reader.results → delivered y.reader.results = y.writer.written.flatten)) := by
  have hjoint : ∀ y, ReachableBy (pair sealInPlace S n₀) (fun _ m => SizedReads m) y → Joint n₀ S y := by
    intro y hy
    refine hy.invariant (I := Joint n₀ S) (fun y hinit => joint_init hn₀ hinit) ?_
    intro y m y' hm h hstep
    exact h.step hm (pairStep_cases hstep)
  refine ⟨fun y hy => ?_, fun y hy hw => ?_⟩
  · have h := hjoint y hy
    obtain ⟨front, hand, hrecord, -⟩ := h.reading.record
    refine ⟨hrecord.text, ⟨h.writing.numbered.nodup, h.writing.sublist, h.reading.numbered.nodup, ?_⟩,
      hrecord.order, h.whole_of_clean, fun hended hcut max x r' hmax hnext => h.next_cut hended hcut hmax hnext⟩
    rintro n (hn | hn)
    · exact h.writing.numbered.lt_max n hn
    · exact h.reading.numbered.lt_max n hn
  · have hboth : Joint n₀ S y ∧ Wired n₀ y := by
      refine hy.invariant (I := fun y => Joint n₀ S y ∧ Wired n₀ y) ?_ ?_
      · intro y hinit
        exact ⟨joint_init hn₀ hinit, wired_init hinit⟩
      · rintro y m y' ⟨hm, hfaithful⟩ ⟨hj, hwired⟩ hstep
        have hstep' := pairStep_cases hstep
        refine ⟨hj.step hm hstep', ?_⟩
        cases hstep' with
        | write hwrite => exact hwired.write hlength hfaithful hwrite
        | read hread => exact hwired.read hj hfaithful hread
    obtain ⟨hj, hwired⟩ := hboth
    exact ⟨hwired.fine hw, hwired.next_ended hj hw, hwired.delivered_eq hj hw⟩

/-- A tag of zeros. -/
def tagged (_ : ℕ) (plain : Bytes) : Bytes := plain ++ List.replicate 16 0

/-- Reads of bytes that were written, and no other that needs care. -/
def plainSteps (y : Pair) : PairLabel → Bool
  | .read (.start _ q) => q.sized
  | .read (.readSocket _ bytes _) =>
    !bytes.isEmpty && bytes.isPrefixOf (y.writer.outbound.drop y.reader.inbound.length)
  | .write (.start _ _) => false
  | _ => true

lemma plainSteps_faithful (y : Pair) (m : PairLabel) (h : plainSteps y m) : SizedReads m ∧ FaithfulWire S y m := by
  cases m with
  | write l =>
    cases l with
    | start t data => cases h
    | _ => exact ⟨trivial, trivial⟩
  | read l =>
    cases l with
    | start t q => exact ⟨h, trivial⟩
    | readSocket t bytes drain =>
      unfold plainSteps at h
      rw [and_eq_true, isPrefixOf_iff_prefix, not_eq_true', isEmpty_eq_false_iff] at h
      exact ⟨rfl, fun _ => ⟨h.2, fun hnil => absurd hnil h.1⟩⟩
    | _ => exact ⟨rfl, trivial⟩

def threeStart : Pair where
  writer := ⟨7, none, Function.update (fun _ => .none) 0 (.wants [1, 2, 3]), [], [], [], [], false⟩
  reader := initial 7
  opened := []

/-- It does so; task 1 of the other end reads two of them, then the third, and reads on. -/
def threeSteps : List PairLabel :=
  [.write (.lock 0), .write (.encrypt 0 true), .write (.send 0 5), .read (.sock (.resume 1 0)),
    .read (.sock (.rise 5 false)), .read (.start 1 (.read 2)), .read (.lock 1), .read (.look 1),
    .read (.readSocket 1 [0, 19, 1, 2, 3] false), .write (.send 0 16), .write (.finish 0), .read (.extend 1),
    .read (.look 1), .read (.readSocket 1 (List.replicate 16 0) false), .read (.extend 1), .read (.look 1),
    .read (.drop 1), .read (.drop 1), .read (.drop 1), .read (.start 1 (.read 2)), .read (.lock 1),
    .read (.look 1), .read (.drop 1), .read (.drop 1), .read (.drop 1), .read (.start 1 (.read 2)),
    .read (.lock 1), .read (.look 1)]

def threeRead : Pair :=
  (runBy (pair tagged 5 7) (fun y m => plainSteps y m = true) threeStart threeSteps).get (by decide)

/-- It finds the end. -/
def threeEnd : Pair :=
  (run (pair tagged 5 7) threeRead
    [.read (.readSocket 1 [] false), .read (.extend 1), .read (.look 1)]).get (by decide)

/-- Three bytes written at once, and read two and then one before the end. -/
theorem noise_stream_delivers_threeBytes :
    Transition.ReachableBy (pair tagged 5 7) (fun y m => SizedReads m ∧ FaithfulWire 5 y m) threeEnd ∧
      threeEnd.reader.results = [.ok [1, 2], .ok [3], .ok []] ∧ threeEnd.opened = [7] ∧
      delivered threeEnd.reader.results = threeEnd.writer.written.flatten := by
  have hstart : ReachableBy (pair tagged 5 7) (fun y m => SizedReads m ∧ FaithfulWire 5 y m)
      threeStart := by
    refine .next (l := .write (.start 0 [1, 2, 3])) (.start rfl) ⟨trivial, ?_⟩ rfl
    rintro (hended | ⟨t, ht⟩)
    · cases hended
    · cases ht
  have hread : ReachableBy (pair tagged 5 7) (fun y m => SizedReads m ∧ FaithfulWire 5 y m)
      threeRead :=
    hstart.of_runBy_imp plainSteps_faithful (Option.some_get _).symm
  have hidle : ∀ t, threeRead.writer.ops t = .none
    | 0 | _ + 1 => rfl
  have hend : ReachableBy (pair tagged 5 7) (fun y m => SizedReads m ∧ FaithfulWire 5 y m)
      threeEnd := by
    refine .next (l := .read (.look 1)) (.next (l := .read (.extend 1))
      (.next (l := .read (.readSocket 1 [] false)) hread ⟨rfl, fun _ => ⟨⟨_, rfl⟩, fun _ => ?_⟩⟩ rfl)
      ⟨rfl, trivial⟩ rfl) ⟨rfl, trivial⟩ rfl
    exact ⟨rfl, hidle⟩
  obtain ⟨-, -, hall⟩ := (noise_stream_delivers (fun n p => by simp [tagged]) (by decide)).2 _ hend rfl
  exact ⟨hend, rfl, rfl, hall (by decide)⟩

end RocNet.Noise
