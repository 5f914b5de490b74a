import RocNet.Analysis.NoiseDelivery
import RocNet.Analysis.NoiseSelect

/-!
# A Noise stream delivers what was written

Whatever the reading end reads from its socket, its reads return a prefix of the plaintext sealed by the other.
-/

namespace RocNet.Noise

open Function List Option

variable {sealInPlace : ℕ → Bytes → Bytes} {c : Cipher} {S n₀ t u : ℕ} {log : List Sealed} {s s' : State}
  {l : Label}

/-! ## Steps of the reading end -/

/-- The reading function that a task is in. -/
def Op.reader : Op → Option Reader
  | .wants q _ | .looking q | .filling q | .got q _ => some q
  | .none | .leaving | .watching _ => Option.none

/-- Bytes that a task has read from the socket, and not yet added to what was received. -/
def Op.hand : Op → Option Bytes
  | .got _ bytes => some bytes
  | _ => Option.none

/-- A read of one byte at least. -/
def Reader.sized : Reader → Bool
  | .read max | .tryRead max => decide (1 ≤ max)
  | .fillBy => true

/-- What a step does to what was received and returned. -/
inductive Effect (c : Cipher) (S : ℕ) (s : State) (l : Label) (s' : State) : Prop
  | same (hreceived : s'.received = s.received) (hresults : s'.results = s.results) (hinbound : s'.inbound = s.inbound)
      (hhand : ∀ u, (s'.ops u).hand = (s.ops u).hand) (hopened : openedBy c s l = [])
  | look {t max : ℕ} {q : Reader} {x : Except ReadError (Option Bytes)} {r' : Received} (hop : s.ops t = .looking q)
      (hq : q = .read max ∨ q = .tryRead max) (hnext : s.received.next c max = (x, r')) (hreceived : s'.received = r')
      (hresults : s'.results = reported s.results x) (hinbound : s'.inbound = s.inbound)
      (hhand : ∀ u, (s'.ops u).hand = (s.ops u).hand) (hopened : openedBy c s l = opened c max s.received)
  | readSome {t : ℕ} {q : Reader} {bytes : Bytes} {drain : Bool} (hl : l = .readSocket t bytes drain)
      (hready : s.stream.sock.ready S false = true) (hop : s.ops t = .filling q)
      (hops : s'.ops = update s.ops t (.got q bytes)) (hreceived : s'.received = s.received)
      (hresults : s'.results = s.results) (hinbound : s'.inbound = s.inbound ++ bytes) (hopened : openedBy c s l = [])
  | extend {t : ℕ} {q : Reader} {bytes : Bytes} (hop : s.ops t = .got q bytes)
      (hops : s'.ops = update s.ops t (.looking q)) (hreceived : s'.received = s.received.receive bytes)
      (hresults : s'.results = s.results) (hinbound : s'.inbound = s.inbound) (hopened : openedBy c s l = [])

/-- The task goes on with nothing in hand, as before. -/
theorem hand_update (hop : (s.ops t).hand = none) (ho : o.hand = none) (u : ℕ) :
    (update s.ops t o u).hand = (s.ops u).hand := by
  obtain rfl | hu := eq_or_ne u t
  · rw [update_self, ho, hop]
  · rw [update_of_ne hu]

lemma Step.effect (h : Step c S s l s') : Effect c S s l s' := by
  cases h with
  | sock hallows hstep => exact .same rfl rfl rfl (fun _ => rfl) rfl
  | task hon h =>
    cases h with
    | filled hop | unfilled hop hread =>
      refine .same rfl rfl rfl (hand_update (s := s) (by rw [hop]; rfl) rfl) ?_
      simp only [openedBy, hop]
    | nothing hop hq hnext | returned hop hq hnext | failed hop hq hnext =>
      refine .look hop hq hnext rfl rfl rfl (hand_update (s := s) (by rw [hop]; rfl) rfl) ?_
      obtain rfl | rfl := hq
      · simp only [openedBy, hop]
      · simp only [openedBy, hop]
    | readSome hop hstep hready => exact .readSome rfl hready hop rfl rfl rfl rfl rfl
    | extend hop => exact .extend hop rfl rfl rfl rfl rfl
    | blocked hop hstep | drop hop hdrop => exact .same rfl rfl rfl (fun _ => rfl) rfl
    | _ =>
      refine .same rfl rfl rfl (hand_update (s := s) (by simp [*, Op.hand]) rfl) rfl

/-! ## Sizes -/

/-- Every read that tasks are in asks for one byte at least. -/
def Sized (s : State) : Prop := ∀ t q, (s.ops t).reader = some q → q.sized = true

/-- A call of a reading function asks for one byte at least. -/
def Label.sized : Label → Bool
  | .start _ q => q.sized
  | _ => true

lemma Sized.updated (h : Sized s) (hops : s'.ops = update s.ops t o) (ho : ∀ q, o.reader = some q → q.sized) :
    Sized s' := by
  unfold Sized
  rw [hops, forall_update_iff s.ops fun _ o => ∀ q, o.reader = some q → q.sized = true]
  exact ⟨ho, fun u _ => h u⟩

lemma Step.sized (h : Step c S s l s') (hs : Sized s) (hl : l.sized) : Sized s' := by
  have hkeep : ∀ {t q} {o : Op}, (s.ops t).reader = some q → o.reader = some q →
      ∀ q', o.reader = some q' → q'.sized = true := by
    intro t q o hq ho q' hq'
    rw [ho] at hq'
    cases hq'
    exact hs t q hq
  cases h with
  | sock hallows hstep => exact hs
  | task hon h =>
    cases h with
    | start hop =>
      refine hs.updated rfl fun q hq => ?_
      cases hq
      exact hl
    | lock hop hfree | unfilled hop hread | nothing hop hq hnext | readSome hop hstep | extend hop =>
      exact hs.updated rfl (hkeep (by rw [hop]; rfl) rfl)
    | blocked hop hstep | drop hop hdrop => exact hs
    | _ => exact hs.updated rfl nofun

/-! ## What reads return -/

structure Reading (n₀ : ℕ) (log : List Sealed) (s : State) (opened : List ℕ) : Prop where
  sized : Sized s
  numbered : Numbered n₀ s.received.nonce opened
  record : ∃ front hand, Record n₀ log s.received s.results front ∧ front ++ hand = s.inbound ∧
    (∀ t bytes, (s.ops t).hand = some bytes → bytes = hand ∧ s.received.ended = false) ∧
    ((∀ t, (s.ops t).hand = none) → hand = [])

lemma hand_none (h : Watchful S s) (hholds : (s.ops t).holds) (hnone : (s.ops t).hand = none)
    (u : ℕ) : (s.ops u).hand = none := by
  cases hop : s.ops u with
  | got q bytes =>
    have hu := h.placed.eq_of_holds h.kept hholds (by rw [hop]; rfl)
    subst hu
    rw [hop] at hnone
    cases hnone
  | _ => rfl

lemma Reading.step {opened : List ℕ} (hle : ∀ i x, log[i]? = some x → n₀ + i ≤ x.nonce) (h : Reading n₀ log s opened)
    (hw : Watchful S s) (hl : l.sized) (hstep : Step (opening sealInPlace log) S s l s') :
    Reading n₀ log s' (opened ++ openedBy (opening sealInPlace log) s l) := by
  have hsized := hstep.sized h.sized hl
  obtain ⟨front, hand, hrecord, hinbound, hhands, hnohand⟩ := h.record
  cases hstep.effect with
  | same hreceived hresults hin hhand hopened =>
    rw [hopened, append_nil]
    refine ⟨hsized, ?_, front, hand, ?_, ?_, ?_, ?_⟩
    · rw [hreceived]
      exact h.numbered
    · rw [hreceived, hresults]
      exact hrecord
    · rw [hin, hinbound]
    · intro t bytes ht
      rw [hhand] at ht
      rw [hreceived]
      exact hhands t bytes ht
    · intro hnone
      refine hnohand fun t => ?_
      rw [← hhand]
      exact hnone t
  | @look t max q x r' hop hq hnext hreceived hresults hin hhand hopened =>
    have hnone := hand_none hw (t := t) (by rw [hop]; rfl) (by rw [hop]; rfl)
    have hmax : 1 ≤ max := by
      have hq' := h.sized t q (by rw [hop]; rfl)
      obtain rfl | rfl := hq
      · exact of_decide_eq_true hq'
      · exact of_decide_eq_true hq'
    obtain ⟨hge, hle', hrange⟩ := next_nonce h.numbered.le_max hnext
    refine ⟨hsized, ?_, front, hand, ?_, ?_, ?_, ?_⟩
    · rw [hopened, hreceived, hrange]
      exact h.numbered.append hge hle'
    · rw [hreceived, hresults]
      exact hrecord.next hle hmax hnext
    · rw [hin, hinbound]
    · intro u bytes hu
      rw [hhand, hnone u] at hu
      cases hu
    · intro _
      exact hnohand hnone
  | @readSome t q bytes drain hl hready hop hops hreceived hresults hin hopened =>
    have hnone := hand_none hw (t := t) (by rw [hop]; rfl) (by rw [hop]; rfl)
    have hended : s.received.ended = false := by
      have hread := hw.placed.unreadable t q hop
      unfold Received.readable at hread
      simp only [Bool.or_eq_false_iff] at hread
      exact hread.1.2
    rw [hopened, append_nil]
    refine ⟨hsized, ?_, front, bytes, ?_, ?_, ?_, ?_⟩
    · rw [hreceived]
      exact h.numbered
    · rw [hreceived, hresults]
      exact hrecord
    · rw [hin, ← hinbound, hnohand hnone, append_nil]
    · intro u bytes' hu
      rw [hops] at hu
      rw [hreceived]
      obtain rfl | hut := eq_or_ne u t
      · rw [update_self] at hu
        cases hu
        exact ⟨rfl, hended⟩
      · rw [update_of_ne hut, hnone u] at hu
        cases hu
    · intro hall
      have ht := hall t
      rw [hops, update_self] at ht
      cases ht
  | @extend t q bytes hop hops hreceived hresults hin hopened =>
    obtain ⟨hbytes, hended⟩ := hhands t bytes (by rw [hop]; rfl)
    subst hbytes
    rw [hopened, append_nil]
    refine ⟨hsized, ?_, front ++ bytes, [], ?_, ?_, ?_, fun _ => rfl⟩
    · rw [hreceived]
      exact h.numbered
    · rw [hreceived, hresults]
      exact hrecord.receive hended bytes
    · rw [hin, append_nil, hinbound]
    · intro u bytes' hu
      rw [hops] at hu
      obtain rfl | hut := eq_or_ne u t
      · rw [update_self] at hu
        cases hu
      · rw [update_of_ne hut] at hu
        cases hop' : s.ops u with
        | got q' bytes'' =>
          exact absurd (hw.placed.eq_of_holds hw.kept (by rw [hop']; rfl) (by rw [hop]; rfl)) hut
        | _ =>
          rw [hop'] at hu
          cases hu

/-! ## Both ends -/

variable {y y' : Pair} {m : PairLabel}

structure Joint (n₀ S : ℕ) (y : Pair) : Prop where
  writing : Writing n₀ y.writer.nonce y.writer.used y.writer.log
  watchful : Watchful S y.reader
  reading : Reading n₀ y.writer.log y.reader y.opened

def SizedReads : PairLabel → Prop
  | .read l => l.sized = true
  | .write _ => True

/-- The steps of the two ends. -/
inductive PairStep (sealInPlace : ℕ → Bytes → Bytes) (S : ℕ) (y : Pair) : PairLabel → Pair → Prop
  | write {l : WriteLabel} {w : Writer} (h : WriteStep sealInPlace y.writer l w) :
      PairStep sealInPlace S y (.write l) { y with writer := w }
  | read {l : Label} {s : State} (h : Step (opening sealInPlace y.writer.log) S y.reader l s) :
      PairStep sealInPlace S y (.read l) { y with
        reader := s
        opened := y.opened ++ openedBy (opening sealInPlace y.writer.log) y.reader l }

lemma pairStep_cases (h : pairStep sealInPlace S y m = some y') : PairStep sealInPlace S y m y' := by
  cases m with
  | write l =>
    obtain ⟨w, hw, rfl⟩ := map_eq_some_iff.mp h
    exact .write (writeStep_cases hw)
  | read l =>
    obtain ⟨s, hs, rfl⟩ := map_eq_some_iff.mp h
    exact .read (step_cases hs)

lemma Reading.mono {opened : List ℕ} (h : Reading n₀ log s opened) (hlog : log <+: log') :
    Reading n₀ log' s opened := by
  obtain ⟨front, hand, hrecord, hinbound, hhands, hnohand⟩ := h.record
  exact ⟨h.sized, h.numbered, front, hand, hrecord.mono hlog, hinbound, hhands, hnohand⟩

lemma Joint.step (h : Joint n₀ S y) (hm : SizedReads m) (hstep : PairStep sealInPlace S y m y') : Joint n₀ S y' := by
  cases hstep with
  | write hw => exact ⟨hw.writing h.writing, h.watchful, h.reading.mono hw.log_isPrefix⟩
  | read hr => exact ⟨h.writing, h.watchful.step hr, h.reading.step h.writing.log_le h.watchful hm hr⟩

lemma joint_init (hn₀ : n₀ ≤ maxNonce) (h : (pair sealInPlace S n₀).init y) : Joint n₀ S y := by
  cases h
  refine ⟨⟨.start hn₀, nofun, nofun, le_rfl, Sublist.refl _⟩, watchful_initial, nofun,
    .start hn₀, [], [], ?_, rfl, nofun, fun _ => rfl⟩
  refine ⟨fun _ => ⟨0, [], le_rfl, nofun, rfl, rfl, rfl, nofun, fun _ => rfl⟩, prefix_refl _, nofun,
    nofun, List.Pairwise.nil, nofun⟩

/-- Once the socket has ended, nothing is in hand. -/
theorem Joint.front_eq (h : Joint n₀ S y) (hended : y.reader.received.ended) :
    Record n₀ y.writer.log y.reader.received y.reader.results y.reader.inbound := by
  obtain ⟨front, hand, hrecord, hinbound, hhands, hnohand⟩ := h.reading.record
  have hhand : hand = [] := by
    refine hnohand fun t => ?_
    by_contra hne
    obtain ⟨bytes, hbytes⟩ := ne_none_iff_exists'.mp hne
    rw [(hhands t bytes hbytes).2] at hended
    cases hended
  rw [hhand, append_nil] at hinbound
  rwa [hinbound] at hrecord

end RocNet.Noise
