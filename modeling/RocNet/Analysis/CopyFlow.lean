import RocNet.Model.CopySteps

/-!
# The bytes of a direction

What a direction has given, what it has in hand and what it has not read yet are, in this order, what it was told to
send first and what its source's peer has sent.
-/

namespace RocNet.Copy

open Function List State

variable {c : Config} {s s' : State} {d x : Side} {f : Fail} {lead : List UInt8}

/-! ## Streams as bytes -/

/-- The part of a stream that `abort`, `stop_reading` and `shutdown_write` leave alone. -/
def Stream.data (x : Stream) : Kind × List UInt8 × List UInt8 × Bool × List UInt8 :=
  (x.kind, x.sent, x.arrived, x.peerEnded, x.given)

/-- `fail` leaves a stream as it is, or stops reading it, or aborts it. -/
theorem fail_streams (s : State) (f : Fail) (x : Side) : (fail s f).1.streams x = s.streams x ∨
    (f = .finish x true ∧ (fail s f).1.streams x = (s.streams x).stopReading) ∨
    (f = .finish x false ∧ (fail s f).1.streams x = (s.streams x).abort) := by
  cases f with
  | lock e =>
    left
    simp only [fail]
    split <;> rfl
  | load y => exact .inl rfl
  | finish y stop =>
    obtain rfl | hx := eq_or_ne x y
    · cases stop <;> simp [fail]
    · simp [fail, hx]

lemma fail_data (s : State) (f : Fail) (x : Side) : ((fail s f).1.streams x).data = (s.streams x).data := by
  rcases fail_streams s f x with heq | ⟨-, heq⟩ | ⟨-, heq⟩ <;> rw [heq] <;> rfl

lemma shutdown_data (y : Stream) : y.shutdownWrite.data = y.data := rfl

lemma data_setStream (hy : y.data = (s.streams x).data) (z : Side) :
    ((s.setStream x y).streams z).data = (s.streams z).data := by
  obtain rfl | hz := eq_or_ne z x
  · simpa using hy
  · simp [hz]

/-! ## What is in hand -/

/-- What a direction has in hand, by where it is. -/
def Pc.Holds : Pc → List UInt8 → ℕ → Prop
  | .leading, hand, left | .raising, hand, left | .writing, hand, left => hand.length = left ∧ 0 < left
  | .lowering (some _), _, _ | .counting (some _), _, _ | .broken _, _, _ | .failing _, _, _ | .done, _, _ => True
  | _, hand, _ => hand = []

/-- The bytes that were given, those in hand and those not read yet are those of the direction. -/
structure Flowing (s : State) (d : Side) (lead : List UInt8) : Prop where
  bytes : (s.streams d.other).given ++ (s.dirs d).hand ++ (s.streams d).arrived = lead ++ (s.streams d).sent
  holds : (s.dirs d).pc.Holds (s.dirs d).hand (s.dirs d).left

lemma Flowing.still (h : Flowing s d lead) (hdata : ∀ x, (s'.streams x).data = (s.streams x).data)
    (hhand : (s'.dirs d).hand = (s.dirs d).hand)
    (hholds : (s'.dirs d).pc.Holds (s'.dirs d).hand (s'.dirs d).left) : Flowing s' d lead := by
  refine ⟨?_, hholds⟩
  have hfrom := hdata d
  have hto := hdata d.other
  simp only [Stream.data, Prod.mk.injEq] at hfrom hto
  rw [hto.2.2.2.2, hhand, hfrom.2.2.1, hfrom.2.1]
  exact h.bytes

def EmptyPool (s : State) : Prop := ∀ hand ∈ s.pool, hand = []

lemma EmptyPool.givenBack (h : EmptyPool s) (hhand : (s.dirs d).hand = []) : ∀ hand ∈ s.givenBack d, hand = [] := by
  intro hand hmem
  unfold State.givenBack at hmem
  split at hmem
  · rcases mem_cons.mp hmem with rfl | hmem
    · exact hhand
    · exact h hand hmem
  · exact h hand hmem

lemma Flowing.give (h : Flowing s d lead) (hhand : y.hand = (s.dirs d).hand.drop k)
    (hholds : y.pc.Holds y.hand y.left) :
    Flowing ((s.setStream d.other ((s.streams d.other).give ((s.dirs d).hand.take k))).setDir d y) d lead := by
  refine ⟨?_, by simpa using hholds⟩
  have hbytes := h.bytes
  simp only [setDir_streams, setStream_streams, setDir_dirs, update_self, hhand,
    ne_eq, Side.ne_other, not_false_eq_true, update_of_ne, Stream.give_given]
  rw [append_assoc _ _ (drop _ _), take_append_drop]
  exact hbytes

lemma Flowing.take (h : Flowing s d lead) (hempty : (s.dirs d).hand = [])
    (hhand : y.hand = (s.streams d).arrived.take k) (hholds : y.pc.Holds y.hand y.left) :
    Flowing ((s.setStream d ((s.streams d).take k)).setDir d y) d lead := by
  refine ⟨?_, by simpa using hholds⟩
  have hbytes := h.bytes
  rw [hempty, append_nil] at hbytes
  simp only [setDir_streams, setStream_streams, setDir_dirs, update_self, hhand,
    ne_eq, Side.other_ne, not_false_eq_true, update_of_ne, Stream.take_arrived, Stream.take_sent]
  rw [append_assoc, take_append_drop]
  exact hbytes

lemma Flowing.advance (h : Flowing s d lead) (hpool : EmptyPool s) (hadv : Advance c s d s') : Flowing s' d lead := by
  have hholds := h.holds
  cases hadv with
  | retry => exact h
  | leadFails | writeFails | waitFails | timeOut | readFails | breaks | countedFailure | late | mark =>
    exact h.still (fun _ => rfl) (by simp) (by simp [Pc.Holds])
  | waited hpc | expired hpc | moved hpc | unmoved hpc | busy hpc | start hpc | sample hpc
  | shutdownFails hpc | limit hpc | counted hpc | readEof hpc | raise hpc | buffer hpc =>
    rw [hpc] at hholds
    exact h.still (fun _ => rfl) (by simp) (by simpa [Pc.Holds] using hholds)
  | @lower e hpc =>
    rw [hpc] at hholds
    refine h.still (fun _ => rfl) (by simp) ?_
    cases e with
    | none => simpa [Pc.Holds] using hholds
    | some e => simp [Pc.Holds]
  | goOn hpc =>
    rw [hpc] at hholds
    refine h.still (fun _ => rfl) (by simp) ?_
    rcases next_cases (s.dirs d) with hnext | hnext <;> simpa [hnext, Pc.Holds] using hholds
  | shutdown hpc =>
    rw [hpc] at hholds
    exact h.still (data_setStream (shutdown_data _)) (by simp) (by simpa [Pc.Holds] using hholds)
  | @fail f hpc =>
    refine h.still (fail_data s f) (by simp) ?_
    rcases after_fail_cases (Copy.fail s f).2 with hnext | ⟨g, hnext⟩ <;> simp [hnext, Pc.Holds]
  | newPipe hpc | noPipe hpc | readEmpty hpc | unsupported hpc =>
    rw [hpc] at hholds
    have hempty : (s.dirs d).hand = [] := hholds
    exact h.still (fun _ => rfl) (by simp [hempty]) (by simp [Pc.Holds])
  | @oldPipe i hand hpc _ hget =>
    rw [hpc] at hholds
    have hempty : (s.dirs d).hand = [] := hholds
    obtain rfl : hand = [] := hpool hand (mem_of_getElem? hget)
    exact h.still (fun _ => rfl) (by simp [hempty]) (by simp [Pc.Holds])
  | @readBytes k hpc hbytes hroom =>
    rw [hpc] at hholds
    have hempty : (s.dirs d).hand = [] := hholds
    refine h.take (k := k) hempty (by simp [hempty]) ?_
    obtain ⟨hpos, hle, -⟩ := hbytes
    simp [Pc.Holds, hempty]
    omega
  | leadDone hpc hpos hok | writeLast hpc hpos hok =>
    rw [hpc] at hholds
    obtain ⟨hlength, -⟩ := hholds
    refine h.give (by simp) ?_
    simp [Pc.Holds, hlength]
  | writeSome hpc hpos hlt hok =>
    refine h.give (by simp) ?_
    rcases hpc with hpc | hpc
    · rw [hpc] at hholds
      obtain ⟨hlength, -⟩ := hholds
      simp [hpc, Pc.Holds]
      omega
    · rw [hpc] at hholds
      obtain ⟨hlength, -⟩ := hholds
      simp [hpc, Pc.Holds]
      omega

lemma EmptyPool.advance (h : EmptyPool s) (hflow : Flowing s d lead) (hadv : Advance c s d s') : EmptyPool s' := by
  have hholds := hflow.holds
  cases hadv with
  | limit hpc | readEof hpc | readEmpty hpc =>
    rw [hpc] at hholds
    exact h.givenBack hholds
  | oldPipe =>
    intro hand hmem
    exact h hand (mem_of_mem_eraseIdx hmem)
  | fail hpc =>
    intro hand hmem
    exact h hand (by simpa using hmem)
  | _ => exact h

/-! ## Room for a read -/

/-- A direction that is about to read has something to read into. -/
def Dir.Equipped (x : Dir) : Prop := x.pc = .reading → x.splicing = true ∨ 0 < x.buf

lemma Advance.equipped (h : Advance c s d s') (hbefore : (s.dirs d).Equipped) : (s'.dirs d).Equipped := by
  intro hreading
  cases h with
  | retry => exact hbefore hreading
  | goOn =>
    have hnext : (s.dirs d).next = .reading := by simpa using hreading
    rw [goto_dirs, update_self]
    unfold Dir.next at hnext
    split at hnext
    · next hsplicing => exact .inl hsplicing
    · split at hnext
      · cases hnext
      · next hbuf => exact .inr (Nat.pos_of_ne_zero hbuf)
  | newPipe _ hsplicing | oldPipe _ hsplicing =>
    left
    simpa using hsplicing
  | buffer => simp [bufferSize]
  | @fail f =>
    rcases after_fail_cases (Copy.fail s f).2 with hnext | ⟨g, hnext⟩ <;> simp [hnext] at hreading
  | writeSome hpc => rcases hpc with hpc | hpc <;> simp [hpc] at hreading
  | _ => simp at hreading

lemma room_pos {x : Dir} (hend : x.endAt = none) (hpc : x.pc = .reading) (hequipped : x.Equipped) : 0 < x.room := by
  simp only [Dir.room, Dir.cap, hend]
  split
  · decide
  · next hsplicing => exact (hequipped hpc).resolve_left hsplicing

lemma limitReached_iff {x : Dir} : x.limitReached ↔ ∃ e, x.endAt = some e ∧ e ≤ x.total := by
  cases hend : x.endAt with
  | none | some e => simp [Dir.limitReached, hend]

/-! ## The other direction, and the peers -/

/-- What a direction leaves alone: what its source was given, and what its target's peer sent. -/
theorem Advance.frame (h : Advance c s d s') :
    (s'.streams d).given = (s.streams d).given ∧ (s'.streams d).sent = (s.streams d).sent ∧
      (s'.streams d.other).arrived = (s.streams d.other).arrived ∧
      (s'.streams d.other).sent = (s.streams d.other).sent := by
  cases h with
  | @fail f hpc =>
    have hfrom := fail_data s f d
    have hto := fail_data s f d.other
    simp only [Stream.data, Prod.mk.injEq] at hfrom hto
    exact ⟨hfrom.2.2.2.2, hfrom.2.1, hto.2.2.1, hto.2.1⟩
  | _ => simp

lemma Flowing.frame (h : Flowing s d lead) (hadv : Advance c s d.other s') : Flowing s' d lead := by
  obtain ⟨hgiven, -, harrived, hsent⟩ := hadv.frame
  have hdir := hadv.other
  rw [Side.other_other] at harrived hsent hdir
  refine ⟨?_, ?_⟩
  · rw [hgiven, hdir, harrived, hsent]
    exact h.bytes
  · rw [hdir]
    exact h.holds

lemma Flowing.peerSends (h : Flowing s d lead) (x : Side) (bytes : List UInt8) :
    Flowing (s.setStream x ((s.streams x).peerSends bytes)) d lead := by
  refine ⟨?_, h.holds⟩
  have hbytes := h.bytes
  rcases Side.eq_or_other d x with rfl | rfl
  · simp only [setStream_streams, setStream_dirs, update_self, ne_eq, Side.other_ne,
      not_false_eq_true, update_of_ne, Stream.peerSends_arrived, Stream.peerSends_sent]
    rw [← append_assoc, hbytes, append_assoc]
  · simpa using hbytes

/-- Both directions, with what each was told to send first. -/
structure Flows (lead : Side → List UInt8) (s : State) : Prop where
  started : NotStarted s
  pool : EmptyPool s
  flow : ∀ d, Flowing s d (lead d)

lemma Flows.step {lead : Side → List UInt8} (h : Flows lead s) (hstep : Step c s s') : Flows lead s' := by
  have hstarted := h.started.step hstep
  cases hstep with
  | @dir d _ hadv =>
    refine ⟨hstarted, h.pool.advance (h.flow d) hadv, fun e => ?_⟩
    rcases Side.eq_or_other d e with rfl | rfl
    · exact (h.flow e).advance h.pool hadv
    · exact (h.flow d.other).frame (by simpa using hadv)
  | spawn hcaller =>
    refine ⟨hstarted, h.pool, fun d => ?_⟩
    have hholds := (h.flow d).holds
    rw [h.started hcaller d] at hholds
    have hempty : (s.dirs d).hand = [] := hholds
    refine (h.flow d).still (fun _ => rfl) ?_ ?_
    · cases d <;> simp
    · cases d <;> simpa [Pc.Holds] using hempty
  | spawnFails | cancel | finish =>
    exact ⟨hstarted, h.pool, fun d => (h.flow d).still (fun _ => rfl) rfl (h.flow d).holds⟩
  | @caller f hcaller =>
    refine ⟨hstarted, ?_, fun d => ?_⟩
    · simpa [EmptyPool] using h.pool
    · have hholds := (h.flow d).holds
      exact (h.flow d).still (fail_data s f) (by simp) (by simpa using hholds)
  | peerSends => exact ⟨hstarted, h.pool, fun d => (h.flow d).peerSends _ _⟩
  | @peerEnds x =>
    refine ⟨hstarted, h.pool, fun d => ⟨?_, (h.flow d).holds⟩⟩
    have hbytes := (h.flow d).bytes
    rcases Side.eq_or_other d x with rfl | rfl <;> simpa using hbytes

end RocNet.Copy
