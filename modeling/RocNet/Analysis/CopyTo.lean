import RocNet.Analysis.CopyFlow

/-!
# Copying one way

The limit and the number of the first bytes are added in 64 bits, so they have to fit there together.
-/

namespace RocNet.Copy

open Function List Option Transition UInt64

variable {c : Config} {s s' : State} {l : Label} {d : Side}

/-! ## Totals -/

lemma given_of_data {x : Side} (hdata : ∀ x, (s'.streams x).data = (s.streams x).data) :
    (s'.streams x).given = (s.streams x).given := by
  have hx := hdata x
  simp only [Stream.data, Prod.mk.injEq] at hx
  exact hx.2.2.2.2

/-- How the bytes that were given compare with the total, which is `n`. -/
def Pc.Totals : Pc → ℕ → ℕ → ℕ → ℕ → Prop
  | .raising, n, chunk, left, given | .writing, n, chunk, left, given => n + chunk = given + left
  | .lowering none, n, chunk, _, given | .counting none, n, chunk, _, given => n + chunk = given
  | .leading, _, _, _, _ | .lowering (some _), _, _, _, _ | .counting (some _), _, _, _, _
  | .broken _, _, _, _, _ | .failing _, _, _, _, _ | .done, _, _, _, _ => True
  | _, n, _, _, given => n = given

/-- The total of a direction, wherever it is. -/
def Totalled (s : State) (d : Side) : Prop := ∃ n, (s.dirs d).total = UInt64.ofNat n ∧
  (s.dirs d).pc.Totals n (s.dirs d).chunk (s.dirs d).left (s.streams d.other).given.length

lemma Totalled.still (h : Totalled s d) (htotal : (s'.dirs d).total = (s.dirs d).total)
    (hgiven : (s'.streams d.other).given = (s.streams d.other).given)
    (htotals : ∀ n given, (s.dirs d).pc.Totals n (s.dirs d).chunk (s.dirs d).left given →
      (s'.dirs d).pc.Totals n (s'.dirs d).chunk (s'.dirs d).left given) : Totalled s' d := by
  obtain ⟨n, hn, hbefore⟩ := h
  refine ⟨n, htotal.trans hn, ?_⟩
  rw [hgiven]
  exact htotals n _ hbefore

/-- A direction that only the first bytes have gone through has these for its total. -/
theorem Totalled.advance {leading : List UInt8} (h : Totalled s d) (hflow : Flowing s d leading)
    (hlead : (s.dirs d).pc = .leading → (s.streams d.other).given ++ (s.dirs d).hand = c.leading)
    (hadv : Advance c s d s') : Totalled s' d := by
  have hholds := hflow.holds
  cases hadv with
  | retry => exact h
  | leadFails hpc =>
    obtain ⟨n, hn, -⟩ := h
    exact ⟨n, by simpa using hn, by simp [Pc.Totals]⟩
  | leadDone hpc =>
    have hlength := congrArg length (hlead hpc)
    rw [length_append] at hlength
    rw [hpc] at hholds
    simp only [Pc.Holds] at hholds
    refine ⟨c.leading.length, by simp, ?_⟩
    simp [Pc.Totals]
    omega
  | readBytes hpc hbytes =>
    refine h.still (by simp) (by simp) ?_
    simp [hpc, Pc.Totals]
  | writeLast hpc =>
    obtain ⟨n, hn, htotals⟩ := h
    rw [hpc] at htotals hholds
    refine ⟨n, by simpa using hn, ?_⟩
    simp only [Pc.Totals, Pc.Holds] at htotals hholds
    simp [Pc.Totals]
    omega
  | writeSome hpc hpos hlt =>
    obtain ⟨n, hn, htotals⟩ := h
    refine ⟨n, by simpa using hn, ?_⟩
    rcases hpc with hpc | hpc
    · simp [Pc.Totals, hpc]
    · rw [hpc] at htotals hholds
      simp only [Pc.Totals, Pc.Holds] at htotals hholds
      simp [Pc.Totals, hpc]
      omega
  | counted hpc =>
    obtain ⟨n, hn, htotals⟩ := h
    rw [hpc] at htotals
    refine ⟨n + (s.dirs d).chunk, by simp [hn], ?_⟩
    simpa [Pc.Totals] using htotals
  | goOn hpc =>
    refine h.still (by simp) (by simp) ?_
    rcases next_cases (s.dirs d) with hnext | hnext <;> simp [hpc, hnext, Pc.Totals]
  | @lower e hpc =>
    refine h.still (by simp) (by simp) ?_
    cases e <;> simp [hpc, Pc.Totals]
  | @fail f hpc =>
    refine h.still (by simp) (given_of_data (fail_data s f)) ?_
    rcases after_fail_cases (Copy.fail s f).2 with hnext | ⟨g, hnext⟩ <;> simp [hnext, Pc.Totals]
  | late hpc => exact h.still (by simp) (by simp) (by simp [Pc.Totals])
  | _ =>
    refine h.still (by simp) (by simp) ?_
    simp [*, Pc.Totals]

/-! ## Limits -/

/-- In the loop, or at its end without an error. -/
def Pc.inLoop : Pc → Bool
  | .leading | .broken _ | .failing _ | .done => false
  | _ => true

/-- The calling task's direction keeps its total and its limit. -/
structure Metered (c : Config) (s : State) : Prop where
  leading : (s.dirs .a).pc = .leading → (s.streams .a).arrived = (s.streams .a).sent
  endAt : (s.dirs .a).pc.inLoop = true → (s.dirs .a).endAt = c.limit.map fun n => UInt64.ofNat c.leading.length + n
  total : Totalled s .a
  within : (s.dirs .a).pc ≠ .leading → ∀ n, c.limit = some n →
    (s.streams .b).given.length + (s.dirs .a).hand.length ≤ c.leading.length + n.toNat

/-- The limit fits in 64 bits together with the first bytes. -/
def Config.Fits (c : Config) : Prop := ∀ n, c.limit = some n → c.leading.length + n.toNat < 2 ^ 64

section

variable (h : Metered c s)

include h

/-- Bytes are moved from the hand to the target at most. -/
theorem Metered.moves (htotal : Totalled s' .a) (hsum : (s'.streams .b).given.length + (s'.dirs .a).hand.length =
      (s.streams .b).given.length + (s.dirs .a).hand.length) (hend : (s'.dirs .a).endAt = (s.dirs .a).endAt)
    (hbefore : (s.dirs .a).pc ≠ .leading) (hafter : (s'.dirs .a).pc ≠ .leading)
    (hloop : (s'.dirs .a).pc.inLoop → (s.dirs .a).pc.inLoop) : Metered c s' where
  leading hpc := absurd hpc hafter
  endAt hpc := by
    rw [hend]
    exact h.endAt (hloop hpc)
  total := htotal
  within _ := by
    rw [hsum]
    exact h.within hbefore

lemma Metered.still (htotal : Totalled s' .a) (hdata : ∀ x, (s'.streams x).data = (s.streams x).data)
    (hhand : (s'.dirs .a).hand = (s.dirs .a).hand) (hend : (s'.dirs .a).endAt = (s.dirs .a).endAt)
    (hbefore : (s.dirs .a).pc ≠ .leading) (hafter : (s'.dirs .a).pc ≠ .leading)
    (hloop : (s'.dirs .a).pc.inLoop → (s.dirs .a).pc.inLoop) : Metered c s' :=
  h.moves htotal (by rw [given_of_data hdata, hhand]) hend hbefore hafter hloop

lemma Metered.setStream (hgiven : y.given = (s.streams x).given)
    (hsent : (s.streams x).arrived = (s.streams x).sent → y.arrived = y.sent) : Metered c (s.setStream x y) := by
  obtain ⟨n, hn, htotals⟩ := h.total
  cases x with
  | a =>
    refine ⟨?_, h.endAt, ⟨n, hn, by simpa using htotals⟩, by simpa using h.within⟩
    intro hpc
    simpa using hsent (h.leading hpc)
  | b =>
    refine ⟨by simpa using h.leading, h.endAt, ⟨n, hn, ?_⟩, ?_⟩
    · simpa [hgiven, Side.other] using htotals
    · simpa [hgiven] using h.within

lemma Metered.leading_eq (hflow : Flowing s .a c.leading)
    (hpc : (s.dirs .a).pc = .leading) : (s.streams .b).given ++ (s.dirs .a).hand = c.leading := by
  have hbytes := hflow.bytes
  rw [h.leading hpc] at hbytes
  exact append_cancel_right hbytes

lemma Metered.room_le (hfits : c.Fits) (hempty : (s.dirs .a).hand = []) (hpc : (s.dirs .a).pc = .reading)
    (hn : c.limit = some n) : (s.streams .b).given.length + (s.dirs .a).room ≤ c.leading.length + n.toNat := by
  have hlt := hfits n hn
  have hwithin := h.within (by simp [hpc]) n hn
  obtain ⟨m, hm, htotals⟩ := h.total
  rw [hpc] at htotals
  obtain rfl : m = (s.streams .b).given.length := htotals
  have hend : (s.dirs .a).endAt = some (ofNat c.leading.length + n) := by
    rw [h.endAt (by simp [hpc, Pc.inLoop]), hn]
    rfl
  rw [hempty] at hwithin
  have htotal : (s.dirs .a).total.toNat = (s.streams .b).given.length := by
    rw [hm, toNat_ofNat']
    simp at hwithin
    omega
  have hendAt : (UInt64.ofNat c.leading.length + n).toNat = c.leading.length + n.toNat := by
    rw [UInt64.toNat_add, UInt64.toNat_ofNat']
    omega
  simp at hwithin
  simp only [Dir.room, Dir.cap, hend, hendAt, htotal]
  omega

lemma Metered.advance (hfits : c.Fits) (hflow : Flowing s .a c.leading)
    (hpool : EmptyPool s) (hadv : Advance c s .a s') : Metered c s' := by
  have hholds := hflow.holds
  have htotal := h.total.advance hflow (h.leading_eq hflow) hadv
  cases hadv with
  | retry => exact h
  | leadFails hpc =>
    have hlead := congrArg length (h.leading_eq hflow hpc)
    rw [length_append] at hlead
    refine ⟨by simp, by simp [Pc.inLoop], htotal, ?_⟩
    intro _ m _
    simp
    omega
  | leadDone hpc hpos hok =>
    rw [hpc] at hholds
    obtain ⟨hlength, -⟩ := hholds
    have hlead := congrArg length (h.leading_eq hflow hpc)
    rw [length_append] at hlead
    refine ⟨by simp, by simp, htotal, ?_⟩
    intro _ m _
    simp [hlength, Side.other]
    omega
  | writeFails hpc | waitFails hpc | timeOut hpc | readFails hpc | mark hpc | breaks hpc
  | waited hpc | expired hpc | moved hpc | unmoved hpc | busy hpc | start hpc | sample hpc | raise hpc
  | shutdownFails hpc | limit hpc | readEof hpc | buffer hpc | countedFailure hpc =>
    refine h.still htotal (fun _ => rfl) ?_ ?_ ?_ ?_ ?_ <;> simp [hpc, Pc.inLoop]
  | late hpc =>
    rcases hpc with hpc | ⟨seen, hpc⟩ <;>
      refine h.still htotal (fun _ => rfl) ?_ ?_ ?_ ?_ ?_ <;> simp [hpc, Pc.inLoop]
  | @lower e hpc =>
    cases e <;> refine h.still htotal (fun _ => rfl) ?_ ?_ ?_ ?_ ?_ <;> simp [hpc, Pc.inLoop]
  | goOn hpc =>
    rcases next_cases (s.dirs .a) with hnext | hnext <;>
      refine h.still htotal (fun _ => rfl) ?_ ?_ ?_ ?_ ?_ <;> simp [hpc, hnext, Pc.inLoop]
  | shutdown hpc =>
    refine h.still htotal (data_setStream (shutdown_data _)) ?_ ?_ ?_ ?_ ?_ <;> simp [hpc, Pc.inLoop]
  | @fail f hpc =>
    rcases after_fail_cases (Copy.fail s f).2 with hnext | ⟨g, hnext⟩ <;>
      refine h.still htotal (fail_data s f) ?_ ?_ ?_ ?_ ?_ <;> simp [hpc, hnext, Pc.inLoop]
  | newPipe hpc | noPipe hpc | readEmpty hpc | unsupported hpc =>
    rw [hpc] at hholds
    have hempty : (s.dirs .a).hand = [] := hholds
    refine h.still htotal (fun _ => rfl) ?_ ?_ ?_ ?_ ?_ <;> simp [hpc, hempty, Pc.inLoop]
  | @oldPipe i hand hpc _ hget =>
    rw [hpc] at hholds
    have hempty : (s.dirs .a).hand = [] := hholds
    obtain rfl : hand = [] := hpool hand (mem_of_getElem? hget)
    refine h.still htotal (fun _ => rfl) ?_ ?_ ?_ ?_ ?_ <;> simp [hpc, hempty, Pc.inLoop]
  | @readBytes k hpc hbytes hroom =>
    rw [hpc] at hholds
    have hempty : (s.dirs .a).hand = [] := hholds
    obtain ⟨-, hle, -⟩ := hbytes
    refine ⟨by simp, ?_, htotal, ?_⟩
    · intro _
      simpa using h.endAt (by simp [hpc, Pc.inLoop])
    · intro _ m hm
      have hroom' := h.room_le hfits hempty hpc hm
      simp [hempty]
      omega
  | writeLast hpc hpos hok =>
    rw [hpc] at hholds
    obtain ⟨hlength, -⟩ := hholds
    refine h.moves htotal ?_ (by simp) (by simp [hpc]) (by simp) (by simp [hpc, Pc.inLoop])
    simp [Side.other, hlength]
  | @writeSome k hpc hpos hlt hok =>
    rcases hpc with hpc | hpc
    · refine ⟨?_, by simp [hpc, Pc.inLoop], htotal, by simp [hpc]⟩
      intro _
      simpa [Side.other] using h.leading hpc
    · rw [hpc] at hholds
      obtain ⟨hlength, -⟩ := hholds
      refine h.moves htotal ?_ (by simp) (by simp [hpc]) (by simp [hpc]) (by simp [hpc])
      simp [Side.other, hlength]
      omega
  | counted hpc =>
    refine ⟨by simp, ?_, htotal, ?_⟩
    · intro _
      simpa using h.endAt (by simp [hpc, Pc.inLoop])
    · intro _ m hm
      simpa using h.within (by simp [hpc]) m hm

end

/-! ## The end of a copy -/

/-- What the direction has found at its end, and has for reading. -/
structure Sourced (s : State) : Prop where
  calm : ∀ f, (s.dirs .a).pc ≠ .failing f
  open_ : (s.streams .a).aborted = false ∧ (s.streams .a).readShut = false
  equipped : (s.dirs .a).Equipped
  eof : (s.dirs .a).pc = .stopped .eof → (s.dirs .a).endAt = none →
    (s.streams .a).peerEnded = true ∧ (s.streams .a).arrived = []
  limit : (s.dirs .a).pc = .stopped .limit → ∃ e, (s.dirs .a).endAt = some e ∧ e ≤ (s.dirs .a).total

/-- Only the calling task copies. -/
structure Alone (s : State) : Prop where
  idle : (s.dirs .b).pc = .idle
  caller : s.caller = .finished

/-- A step of the loop that does not end it, and does not lead to a read. -/
theorem Sourced.still (h : Sourced s) (haborted : (s'.streams .a).aborted = (s.streams .a).aborted)
    (hshut : (s'.streams .a).readShut = (s.streams .a).readShut) (hcalm : ∀ f, (s'.dirs .a).pc ≠ .failing f)
    (hequipped : (s'.dirs .a).Equipped) (hstopped : ∀ how, (s'.dirs .a).pc ≠ .stopped how) :
    Sourced s' where
  calm := hcalm
  open_ := by
    rw [haborted, hshut]
    exact h.open_
  equipped := hequipped
  eof hpc := absurd hpc (hstopped _)
  limit hpc := absurd hpc (hstopped _)

lemma Sourced.advance (h : Sourced s) (hboth : c.both = false) (hadv : Advance c s .a s') : Sourced s' := by
  have hequipped := hadv.equipped h.equipped
  cases hadv with
  | retry => exact h
  | shutdown _ hb | shutdownFails _ hb | breaks _ hb =>
    rw [hboth] at hb
    cases hb
  | readEof hpc hend =>
    refine ⟨by simp, h.open_, hequipped, ?_, by simp⟩
    intro _ hnone
    have hnone' : (s.dirs .a).endAt = none := by simpa using hnone
    have hroom := room_pos hnone' hpc h.equipped
    obtain ⟨haborted, hshut⟩ := h.open_
    have hatEnd : (s.streams .a).atEnd := hend.resolve_right (by omega)
    simp only [Stream.atEnd, haborted, hshut, Bool.false_eq_true, false_and, or_false] at hatEnd
    exact ⟨hatEnd.1, hatEnd.2.1⟩
  | limit hpc hlimit =>
    refine ⟨by simp, h.open_, hequipped, by simp, ?_⟩
    intro _
    simpa using limitReached_iff.mp hlimit
  | goOn hpc hlimit =>
    rcases next_cases (s.dirs .a) with hnext | hnext <;>
      exact h.still rfl rfl (by simp [hnext]) hequipped (by simp [hnext])
  | fail hpc => exact absurd hpc (h.calm _)
  | writeSome hpc =>
    rcases hpc with hpc | hpc <;>
      exact h.still (by simp [Side.other]) (by simp [Side.other]) (by simp [hpc]) hequipped (by simp [hpc])
  | _ => exact h.still (by simp [Side.other]) (by simp [Side.other]) (by simp) hequipped (by simp)

lemma Sourced.peerSends (h : Sourced s) (hopen : (s.streams x).peerEnded = false) (bytes : List UInt8) :
    Sourced (s.setStream x ((s.streams x).peerSends bytes)) := by
  cases x with
  | a =>
    refine ⟨h.calm, by simpa using h.open_, h.equipped, ?_, h.limit⟩
    intro hpc hend
    rw [(h.eof hpc hend).1] at hopen
    cases hopen
  | b => exact ⟨h.calm, by simpa using h.open_, h.equipped, by simpa using h.eof, h.limit⟩

lemma Sourced.peerEnds (h : Sourced s) (x : Side) : Sourced (s.setStream x (s.streams x).peerEnds) := by
  cases x with
  | a =>
    refine ⟨h.calm, by simpa using h.open_, h.equipped, ?_, h.limit⟩
    intro hpc hend
    simpa using (h.eof hpc hend).2
  | b => exact ⟨h.calm, by simpa using h.open_, h.equipped, by simpa using h.eof, h.limit⟩

/-! ## Every run -/

/-- What is sent first in each direction: only the calling task's has something. -/
def leads (leading : List UInt8) : Side → List UInt8
  | .a => leading
  | .b => []

structure CopiesTo (c : Config) (s : State) : Prop where
  alone : Alone s
  flows : Flows (leads c.leading) s
  metered : Metered c s
  sourced : Sourced s

lemma CopiesTo.step (h : CopiesTo c s) (hboth : c.both = false) (hfits : c.Fits) (hstep : Step c s s') :
    CopiesTo c s' := by
  have hflows := h.flows.step hstep
  cases hstep with
  | @dir d _ hadv =>
    cases d with
    | a =>
      have hother := hadv.other
      refine ⟨⟨?_, hadv.caller.trans h.alone.caller⟩, hflows, ?_, h.sourced.advance hboth hadv⟩
      · exact (congrArg Dir.pc hother).trans h.alone.idle
      · exact h.metered.advance hfits (h.flows.flow .a) h.flows.pool hadv
    | b => exact absurd h.alone.idle hadv.active.1
  | spawn hcaller | spawnFails hcaller | cancel hcaller | caller hcaller =>
    rw [h.alone.caller] at hcaller
    cases hcaller
  | finish hcaller =>
    rw [h.alone.caller] at hcaller
    rcases hcaller with hcaller | hcaller <;> cases hcaller
  | @peerSends x bytes hopen =>
    have hmetered := h.metered.setStream (y := (s.streams x).peerSends bytes) rfl fun heq => by simp [heq]
    exact ⟨⟨h.alone.idle, h.alone.caller⟩, hflows, hmetered, h.sourced.peerSends hopen bytes⟩
  | @peerEnds x =>
    have hmetered := h.metered.setStream (y := (s.streams x).peerEnds) rfl id
    exact ⟨⟨h.alone.idle, h.alone.caller⟩, hflows, hmetered, h.sourced.peerEnds x⟩

lemma copiesTo_initial {kinds : Side → Kind} : CopiesTo c (.new kinds (replicate n [])
      (update (fun _ => Dir.new .idle) .a (leadingDir c)) .finished) := by
  have hpool : EmptyPool (.new kinds (replicate n [])
      (update (fun _ => Dir.new .idle) .a (leadingDir c)) .finished) :=
    fun hand hmem => eq_of_mem_replicate hmem
  by_cases hlead : c.leading = []
  · have hdir : leadingDir c = (Dir.new .idle).begin 0 c.limit := if_pos hlead
    refine ⟨⟨rfl, rfl⟩, ⟨nofun, hpool, fun d => ?_⟩, ?_, ?_⟩
    · cases d <;> constructor <;> simp [State.new, Stream.new, Dir.new, leads, hlead, hdir, Pc.Holds, Side.other]
    · refine ⟨?_, ?_, ⟨0, ?_, ?_⟩, ?_⟩ <;> simp [State.new, Stream.new, Dir.new, hlead, hdir, Pc.Totals]
    · refine ⟨?_, ?_, ?_, ?_, ?_⟩ <;> simp [State.new, Stream.new, Dir.new, hdir, Dir.Equipped]
  · have hdir : leadingDir c =
        { Dir.new .leading with hand := c.leading, chunk := c.leading.length, left := c.leading.length } :=
      if_neg hlead
    have hpos : 0 < c.leading.length := length_pos_iff.mpr hlead
    refine ⟨⟨rfl, rfl⟩, ⟨nofun, hpool, fun d => ?_⟩, ?_, ?_⟩
    · cases d <;> constructor <;> simp [State.new, Stream.new, Dir.new, leads, hdir, Pc.Holds, Side.other, hpos]
    · refine ⟨?_, ?_, ⟨0, ?_, ?_⟩, ?_⟩ <;> simp [State.new, Stream.new, Dir.new, hdir, Pc.Totals, Pc.inLoop]
    · refine ⟨?_, ?_, ?_, ?_, ?_⟩ <;> simp [State.new, Stream.new, Dir.new, hdir, Dir.Equipped]

lemma copiesTo_of_reachable {kinds : Side → Kind} (hfits : ∀ n, limit = some n → leading.length + n.toNat < 2 ^ 64)
    (hreach : Reachable (copyTo kinds deadline linux leading limit) s) :
    CopiesTo ⟨linux, deadline, leading, limit, false⟩ s := by
  refine Reachable.invariant ?_ ?_ hreach
  · rintro _ ⟨n, rfl⟩
    exact copiesTo_initial
  · intro a l b hcopies hstep
    exact hcopies.step rfl hfits (step_cases hstep)

/-- Where the direction stopped, there is nothing in hand and the total is what was given. -/
theorem CopiesTo.stopped (h : CopiesTo c s) (hpc : (s.dirs .a).pc = .stopped how) :
    (s.streams .b).given ++ (s.streams .a).arrived = c.leading ++ (s.streams .a).sent ∧
      (s.dirs .a).total = ofNat (s.streams .b).given.length ∧ (s.dirs .a).hand = [] ∧
      (s.dirs .a).endAt = c.limit.map fun n => ofNat c.leading.length + n := by
  have hflow := h.flows.flow .a
  have hholds := hflow.holds
  rw [hpc] at hholds
  have hempty : (s.dirs .a).hand = [] := hholds
  have hbytes := hflow.bytes
  rw [hempty, append_nil] at hbytes
  obtain ⟨n, hn, htotals⟩ := h.metered.total
  rw [hpc] at htotals
  obtain rfl : n = (s.streams .b).given.length := htotals
  exact ⟨hbytes, hn, hempty, h.metered.endAt (by simp [hpc, Pc.inLoop])⟩

lemma CopiesTo.given_of_limit (h : CopiesTo c s) (hfits : c.Fits) (hpc : (s.dirs .a).pc = .stopped .limit) :
    ∃ n, c.limit = some n ∧ n.toNat ≤ (s.streams .a).sent.length ∧
      (s.streams .b).given = c.leading ++ (s.streams .a).sent.take n.toNat := by
  obtain ⟨hbytes, htotal, hempty, hend⟩ := h.stopped hpc
  obtain ⟨e, he, hle⟩ := h.sourced.limit hpc
  rw [hend] at he
  obtain ⟨n, hn, rfl⟩ := map_eq_some_iff.mp he
  have hlt := hfits n hn
  have hwithin := h.metered.within (by simp [hpc]) n hn
  rw [hempty, length_nil, Nat.add_zero] at hwithin
  have hreached : c.leading.length + n.toNat ≤ (s.streams .b).given.length := by
    have hnat := UInt64.le_iff_toNat_le.mp hle
    rw [htotal, UInt64.toNat_add, UInt64.toNat_ofNat', UInt64.toNat_ofNat'] at hnat
    omega
  have hgiven : (s.streams .b).given.length = c.leading.length + n.toNat := by omega
  have hlengths := congrArg length hbytes
  rw [length_append, length_append] at hlengths
  refine ⟨n, hn, by omega, ?_⟩
  have htake := congrArg (take (s.streams .b).given.length) hbytes
  rw [take_left, hgiven, take_length_add_append] at htake
  exact htake

lemma CopiesTo.given_of_eof (h : CopiesTo c s) (hpc : (s.dirs .a).pc = .stopped .eof)
    (hend : (s.dirs .a).endAt = none) : c.limit = none ∧ (s.streams .a).peerEnded ∧
      (s.streams .b).given = c.leading ++ (s.streams .a).sent := by
  obtain ⟨hbytes, -, -, hmap⟩ := h.stopped hpc
  obtain ⟨hended, harrived⟩ := h.sourced.eof hpc hend
  rw [harrived, append_nil] at hbytes
  rw [hend] at hmap
  exact ⟨map_eq_none_iff.mp hmap.symm, hended, hbytes⟩

lemma CopiesTo.taken_le (h : CopiesTo c s) (hn : c.limit = some n) :
    (s.streams .a).sent.length - (s.streams .a).arrived.length ≤ n.toNat := by
  have hbytes := congrArg length (h.flows.flow .a).bytes
  simp only [length_append, leads] at hbytes
  by_cases hpc : (s.dirs .a).pc = .leading
  · rw [h.metered.leading hpc]
    omega
  · have hwithin := h.metered.within hpc n hn
    simp only [Side.other] at hbytes
    omega

/-- **Copying one way.** Whatever the operations give, with `splice`, a buffer or one after the other: what was
given to the target, what is in hand and what was not read yet are the first bytes and then the source's, in
order; spare pipes are empty; no more than the limit is taken from the source; and when `copy_to` returns
without an error, its total counts the bytes given, which are the first bytes and then all of the source, or
exactly as much of it as the limit says. -/
theorem copy_to_exact {kinds : Side → Kind} {deadline linux : Bool} {leading : List UInt8} {limit : Option UInt64}
    (hfits : ∀ n, limit = some n → leading.length + n.toNat < 2 ^ 64)
    (hreach : Reachable (copyTo kinds deadline linux leading limit) s) :
    (s.streams .b).given <+: leading ++ (s.streams .a).sent ∧
    (s.streams .b).given ++ (s.dirs .a).hand ++ (s.streams .a).arrived = leading ++ (s.streams .a).sent ∧
    (∀ hand ∈ s.pool, hand = []) ∧
    (∀ n, limit = some n → (s.streams .a).sent.length - (s.streams .a).arrived.length ≤ n.toNat) ∧
    ∀ total, copyToResult s = some (total, none) → total = UInt64.ofNat (s.streams .b).given.length ∧ (limit = none →
        (s.streams .a).peerEnded = true ∧ (s.streams .b).given = leading ++ (s.streams .a).sent) ∧
      (∀ n, limit = some n → n.toNat ≤ (s.streams .a).sent.length ∧
        (s.streams .b).given = leading ++ (s.streams .a).sent.take n.toNat) := by
  have hcopies := copiesTo_of_reachable hfits hreach
  have hbytes := (hcopies.flows.flow .a).bytes
  refine ⟨?_, hbytes, hcopies.flows.pool, fun n hn => hcopies.taken_le hn, ?_⟩
  · rw [append_assoc] at hbytes
    exact ⟨_, hbytes⟩
  · intro total hresult
    unfold copyToResult at hresult
    split at hresult
    · next hpc =>
      by_cases hend : (s.dirs .a).endAt = none
      · simp only [hend, isSome_none, Bool.false_eq_true, if_false, Option.some.injEq, Prod.mk.injEq,
          and_true] at hresult
        obtain ⟨hnone, hended, hgiven⟩ := hcopies.given_of_eof hpc hend
        have hlimit : limit = none := hnone
        refine ⟨hresult ▸ (hcopies.stopped hpc).2.1, fun _ => ⟨hended, hgiven⟩, ?_⟩
        intro n hn
        rw [hlimit] at hn
        cases hn
      · simp [isSome_iff_ne_none.mpr hend] at hresult
    · next hpc =>
      simp only [Option.some.injEq, Prod.mk.injEq, and_true] at hresult
      obtain ⟨n, hn, hle, hgiven⟩ := hcopies.given_of_limit hfits hpc
      have hlimit : limit = some n := hn
      refine ⟨hresult ▸ (hcopies.stopped hpc).2.1, ?_, ?_⟩
      · intro hnone
        rw [hlimit] at hnone
        cases hnone
      · intro m hm
        rw [hlimit] at hm
        cases hm
        exact ⟨hle, hgiven⟩
    · simp at hresult
    · cases hresult

/-- Both ends are TCP streams, with `splice`; one byte comes first, and then a limited number of others. -/
def spliced (limit : UInt64) : Transition.System State Label := copyTo (fun _ => .tcp) false true [1] (some limit)

def splicedStart (limit : UInt64) : State :=
  .new (fun _ => .tcp) []
    (Function.update (fun _ => Dir.new .idle) .a (leadingDir ⟨true, false, [1], some limit, false⟩)) .finished

lemma spliced_init (limit : UInt64) : (spliced limit).init (splicedStart limit) := ⟨0, rfl⟩

/-- The source sends three bytes, and two of them are copied through a pipe. -/
theorem copy_to_exact_spliced :
    ∃ s, Reachable (spliced 2) s ∧ copyToResult s = some (3, none) ∧ (s.streams .a).sent = [5, 6, 7] ∧
      (s.streams .b).given = [1, 5, 6] := by
  obtain ⟨s, hreach, hs⟩ := exists_reachable_of_run (spliced 2) (spliced_init 2)
    (.peerSends .a [5, 6, 7] :: [.bytes 1, .ok, .ok, .ok, .ok, .ok, .bytes 2, .ok, .bytes 1, .empty, .bytes 1, .ok, .ok,
      .ok].map (.dir .a))
    (fun s => decide (copyToResult s = some (3, none) ∧ (s.streams .a).sent = [5, 6, 7])) (by decide)
  obtain ⟨hresult, hsent⟩ := of_decide_eq_true hs
  have hfits : ∀ n, some (2 : UInt64) = some n → [(1 : UInt8)].length + n.toNat < 2 ^ 64 := by
    rintro n hn
    cases hn
    decide
  obtain ⟨-, -, -, -, hdone⟩ := copy_to_exact hfits hreach
  have hgiven := ((hdone 3 hresult).2.2 2 rfl).2
  rw [hsent] at hgiven
  exact ⟨s, hreach, hresult, hsent, hgiven⟩

/-- A limit that does not fit beside the first byte is reached at once. -/
theorem limit_wraps : ∃ s, Reachable (spliced 18446744073709551615) s ∧ copyToResult s = some (1, none) ∧
      (s.streams .a).sent = [5, 6, 7] ∧ (s.streams .b).given = [1] := by
  obtain ⟨s, hreach, hs⟩ := exists_reachable_of_run (spliced 18446744073709551615) (spliced_init _)
    [.peerSends .a [5, 6, 7], .dir .a (.bytes 1), .dir .a .ok, .dir .a .ok]
    (fun s => decide (copyToResult s = some (1, none) ∧ (s.streams .a).sent = [5, 6, 7] ∧ (s.streams .b).given = [1]))
    (by decide)
  exact ⟨s, hreach, of_decide_eq_true hs⟩

end RocNet.Copy
