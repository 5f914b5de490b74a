import RocNet.Model.Copy

/-!
# Copying: the steps, taken apart

What a step of a direction can do, with what it found (`Advance`), and the steps of the whole system
(`Step`).
-/

namespace RocNet.Copy

open Option Transition

variable {c : Config} {s s' : State} {d x : Side} {o : Outcome} {l : Label}

@[simp] lemma Side.other_other (d : Side) : d.other.other = d := by cases d <;> rfl

@[simp] lemma Side.other_ne (d : Side) : d.other ≠ d := by cases d <;> decide

@[simp] lemma Side.ne_other (d : Side) : d ≠ d.other := by cases d <;> decide

lemma Side.eq_or_other (d x : Side) : x = d ∨ x = d.other := by cases d <;> cases x <;> decide

inductive Advance (c : Config) (s : State) (d : Side) : State → Prop
  | retry (hpc : (s.dirs d).pc = .leading ∨ (s.dirs d).pc = .writing) : Advance c s d s
  | leadFails (hpc : (s.dirs d).pc = .leading) : Advance c s d (s.goto d (.broken (writeErr d.other e)))
  | leadDone (hpc : (s.dirs d).pc = .leading) (hpos : 0 < (s.dirs d).left) (hok : (s.streams d.other).aborted = false) :
      Advance c s d ((s.setStream d.other ((s.streams d.other).give ((s.dirs d).hand.take (s.dirs d).left))).setDir d
      (((s.dirs d).wrote (s.dirs d).left .leading).begin (UInt64.ofNat c.leading.length) c.limit))
  | writeSome {k : ℕ} (hpc : (s.dirs d).pc = .leading ∨ (s.dirs d).pc = .writing) (hpos : 0 < k)
      (hlt : k < (s.dirs d).left) (hok : (s.streams d.other).aborted = false) : Advance c s d
      ((s.setStream d.other ((s.streams d.other).give ((s.dirs d).hand.take k))).setDir d
      ((s.dirs d).wrote k (s.dirs d).pc))
  | writeLast (hpc : (s.dirs d).pc = .writing) (hpos : 0 < (s.dirs d).left) (hok : (s.streams d.other).aborted = false)
      : Advance c s d ((s.setStream d.other ((s.streams d.other).give ((s.dirs d).hand.take (s.dirs d).left))).setDir d
      (((s.dirs d).wrote (s.dirs d).left .writing).goto (.lowering none)))
  | writeFails (hpc : (s.dirs d).pc = .writing) : Advance c s d (s.goto d (.lowering (some e)))
  | start (hpc : (s.dirs d).pc = .start) : Advance c s d
        (s.setDir d
          { s.dirs d with
            splicing := c.linux && (s.streams d).kind.plain && (s.streams d.other).kind.plain
            pc := .top })
  | limit (hpc : (s.dirs d).pc = .top) (hlimit : (s.dirs d).limitReached = true) :
      Advance c s d ((s.setPool (s.givenBack d)).goto d (.stopped .limit))
  | goOn (hpc : (s.dirs d).pc = .top) (hlimit : (s.dirs d).limitReached = false) :
      Advance c s d (s.goto d (s.dirs d).next)
  | late (hpc : (s.dirs d).pc = .top ∨ ∃ seen, (s.dirs d).pc = .expired seen) :
      Advance c s d (s.goto d (.broken .messageTimeout))
  | sample (hpc : (s.dirs d).pc = .sample) : Advance c s d (s.sample d)
  | waited (hpc : (s.dirs d).pc = .waiting seen) : Advance c s d (s.goto d .equip)
  | expired (hpc : (s.dirs d).pc = .waiting seen) : Advance c s d (s.goto d (.expired seen))
  | waitFails (hpc : (s.dirs d).pc = .waiting seen) : Advance c s d (s.goto d (.broken (readErr d e)))
  | moved (hpc : (s.dirs d).pc = .expired seen) (hmoved : s.progress ≠ seen) : Advance c s d (s.goto d .sample)
  | unmoved (hpc : (s.dirs d).pc = .expired seen) (hsame : s.progress = seen) : Advance c s d (s.goto d .unmoved)
  | busy (hpc : (s.dirs d).pc = .unmoved) (hwriting : 0 < s.writing) : Advance c s d (s.goto d .sample)
  | timeOut (hpc : (s.dirs d).pc = .unmoved) (hwriting : s.writing = 0) :
      Advance c s d (s.goto d (.broken (.read d .timedOut)))
  | newPipe (hpc : (s.dirs d).pc = .equip) (hsplicing : (s.dirs d).splicing = true) :
      Advance c s d (s.setDir d ((s.dirs d).setPipe []))
  | oldPipe (hpc : (s.dirs d).pc = .equip) (hsplicing : (s.dirs d).splicing = true) (hpool : s.pool[i]? = some hand) :
      Advance c s d ((s.setPool (s.pool.eraseIdx i)).setDir d ((s.dirs d).setPipe hand))
  | noPipe (hpc : (s.dirs d).pc = .equip) (hsplicing : (s.dirs d).splicing = true) :
      Advance c s d (s.setDir d (s.dirs d).fallBack)
  | buffer (hpc : (s.dirs d).pc = .equip) (hsplicing : (s.dirs d).splicing = false) :
      Advance c s d (s.setDir d (s.dirs d).setBuffer)
  | readBytes (hpc : (s.dirs d).pc = .reading) (hbytes : (s.streams d).hasBytes k) (hroom : k ≤ (s.dirs d).room) :
      Advance c s d ((s.setStream d ((s.streams d).take k)).setDir d ((s.dirs d).took ((s.streams d).arrived.take k)))
  | readEof (hpc : (s.dirs d).pc = .reading) (hend : (s.streams d).atEnd ∨ (s.dirs d).room = 0) :
      Advance c s d ((s.setPool (s.givenBack d)).goto d (.stopped .eof))
  | readEmpty (hpc : (s.dirs d).pc = .reading) : Advance c s d ((s.setPool (s.givenBack d)).setDir d (s.dirs d).drained)
  | unsupported (hpc : (s.dirs d).pc = .reading) (hsplicing : (s.dirs d).splicing = true)
      (hfirst : (s.dirs d).spliced = 0) : Advance c s d (s.setDir d (s.dirs d).fallBack)
  | readFails (hpc : (s.dirs d).pc = .reading) : Advance c s d (s.goto d (.broken e))
  | raise (hpc : (s.dirs d).pc = .raising) : Advance c s d (s.raise d)
  | lower (hpc : (s.dirs d).pc = .lowering e) : Advance c s d (s.lower d e)
  | counted (hpc : (s.dirs d).pc = .counting none) : Advance c s d (s.count d (s.dirs d).counted)
  | countedFailure (hpc : (s.dirs d).pc = .counting (some e)) :
      Advance c s d (s.count d ((s.dirs d).goto (.broken (writeErr d.other e))))
  | shutdown (hpc : (s.dirs d).pc = .stopped how) (hboth : c.both = true) :
      Advance c s d ((s.setStream d.other (s.streams d.other).shutdownWrite).goto d .marking)
  | shutdownFails (hpc : (s.dirs d).pc = .stopped how) (hboth : c.both = true) : Advance c s d (s.goto d .marking)
  | breaks (hpc : (s.dirs d).pc = .broken e) (hboth : c.both = true) : Advance c s d (s.goto d (.failing (.lock e)))
  | mark (hpc : (s.dirs d).pc = .marking) : Advance c s d (s.mark d)
  | fail (hpc : (s.dirs d).pc = .failing f) :
      Advance c s d ((Copy.fail s f).1.goto d (((Copy.fail s f).2.map Pc.failing).getD .done))

lemma fail_fst (f : Fail) :
    (fail s f).1 = { s with streams := (fail s f).1.streams, firstErr := (fail s f).1.firstErr } := by
  cases f with
  | lock e =>
    simp only [fail]
    split <;> rfl
  | load x | finish x stop => rfl

section Fail

variable {f : Fail}

@[simp] lemma fail_dirs : (fail s f).1.dirs = s.dirs := by rw [fail_fst f]

@[simp] lemma fail_progress : (fail s f).1.progress = s.progress := by rw [fail_fst f]

@[simp] lemma fail_writing : (fail s f).1.writing = s.writing := by rw [fail_fst f]

lemma fail_stirred : (fail s f).1.stirred = s.stirred := by rw [fail_fst f]

@[simp] lemma fail_pool : (fail s f).1.pool = s.pool := by rw [fail_fst f]

lemma fail_caller : (fail s f).1.caller = s.caller := by rw [fail_fst f]

end Fail

lemma Advance.active (h : Advance c s d s') : (s.dirs d).pc ≠ .idle ∧ (s.dirs d).pc ≠ .done := by
  cases h with
  | retry hpc | writeSome hpc => rcases hpc with hpc | hpc <;> simp [hpc]
  | late hpc => rcases hpc with hpc | ⟨seen, hpc⟩ <;> simp [hpc]
  | _ => simp [*]

lemma Advance.other (h : Advance c s d s') : s'.dirs d.other = s.dirs d.other := by
  cases h <;> simp

lemma Advance.caller (h : Advance c s d s') : s'.caller = s.caller := by
  cases h with
  | fail => exact fail_caller
  | _ => rfl

lemma write_cases {next : Dir → Dir} (hwrite : write s d next o = some s') :
    s' = s ∨ ∃ k, 0 < k ∧ k ≤ (s.dirs d).left ∧ (s.streams d.other).aborted = false ∧
      s' = (s.setStream d.other ((s.streams d.other).give ((s.dirs d).hand.take k))).setDir d
        (if (s.dirs d).left = k then next ((s.dirs d).wrote k (s.dirs d).pc)
          else (s.dirs d).wrote k (s.dirs d).pc) := by
  cases o with
  | bytes k =>
    obtain ⟨⟨hpos, hle, hok⟩, rfl⟩ := of_guard hwrite
    exact .inr ⟨k, hpos, hle, hok, rfl⟩
  | empty =>
    cases hwrite
    exact .inl rfl
  | _ => cases hwrite

lemma top_cases (hpc : (s.dirs d).pc = .top) (htop : top c s d o = some s') : Advance c s d s' := by
  unfold top at htop
  split at htop
  · next hlimit =>
    cases htop
    exact .limit hpc hlimit
  · next hlimit =>
    split at htop
    · cases htop
      exact .goOn hpc (Bool.eq_false_iff.mpr hlimit)
    · obtain ⟨-, rfl⟩ := of_guard htop
      exact .late (.inl hpc)
    · cases htop

lemma equip_cases (hpc : (s.dirs d).pc = .equip) (hequip : equip s d o = some s') : Advance c s d s' := by
  unfold equip at hequip
  split at hequip
  · next hsplicing =>
    split at hequip
    · cases hequip
      exact .newPipe hpc hsplicing
    · obtain ⟨hand, hpool, rfl⟩ := map_eq_some_iff.mp hequip
      exact .oldPipe hpc hsplicing hpool
    · cases hequip
      exact .noPipe hpc hsplicing
    · cases hequip
  · next hsplicing =>
    obtain ⟨-, rfl⟩ := of_guard hequip
    exact .buffer hpc (Bool.eq_false_iff.mpr hsplicing)

lemma read_cases (hpc : (s.dirs d).pc = .reading) (hread : read s d o = some s') : Advance c s d s' := by
  cases o with
  | bytes k =>
    obtain ⟨⟨hbytes, hroom⟩, rfl⟩ := of_guard hread
    exact .readBytes hpc hbytes hroom
  | eof =>
    obtain ⟨hend, rfl⟩ := of_guard hread
    exact .readEof hpc hend
  | empty =>
    cases hread
    exact .readEmpty hpc
  | unsupported =>
    obtain ⟨hsplicing, hread⟩ := ite_none_right_eq_some.mp hread
    split at hread
    · next hfirst =>
      cases hread
      exact .unsupported hpc hsplicing hfirst
    · cases hread
      exact .readFails hpc
  | fails e =>
    cases hread
    exact .readFails hpc
  | ok => cases hread

lemma advance_cases (hstep : advance c s d o = some s') : Advance c s d s' := by
  unfold advance at hstep
  split at hstep
  · next hpc =>
    cases hstep
    exact .leadFails hpc
  · next hpc _ =>
    rcases write_cases hstep with rfl | ⟨k, hpos, hle, hok, rfl⟩
    · exact .retry (.inl hpc)
    · split
      · next heq =>
        subst heq
        rw [hpc]
        exact .leadDone hpc hpos hok
      · next hne => exact .writeSome (.inl hpc) hpos (by omega) hok
  · next hpc =>
    cases hstep
    exact .start hpc
  · next hpc => exact top_cases hpc hstep
  · next hpc =>
    cases hstep
    exact .sample hpc
  · next hpc =>
    cases hstep
    exact .waited hpc
  · next hpc =>
    cases hstep
    exact .expired hpc
  · next hpc =>
    cases hstep
    exact .waitFails hpc
  · next hpc =>
    obtain ⟨-, rfl⟩ := of_guard hstep
    exact .late (.inr ⟨_, hpc⟩)
  · next hpc =>
    cases hstep
    split
    · next hsame => exact .unmoved hpc hsame
    · next hmoved => exact .moved hpc hmoved
  · next hpc =>
    cases hstep
    split
    · next hwriting => exact .busy hpc hwriting
    · next hwriting => exact .timeOut hpc (by omega)
  · next hpc => exact equip_cases hpc hstep
  · next hpc => exact read_cases hpc hstep
  · next hpc =>
    cases hstep
    exact .raise hpc
  · next hpc =>
    cases hstep
    exact .writeFails hpc
  · next hpc _ =>
    rcases write_cases hstep with rfl | ⟨k, hpos, hle, hok, rfl⟩
    · exact .retry (.inr hpc)
    · split
      · next heq =>
        subst heq
        rw [hpc]
        exact .writeLast hpc hpos hok
      · next hne => exact .writeSome (.inr hpc) hpos (by omega) hok
  · next hpc =>
    cases hstep
    exact .lower hpc
  · next hpc =>
    cases hstep
    exact .counted hpc
  · next hpc =>
    cases hstep
    exact .countedFailure hpc
  · next hpc =>
    obtain ⟨hboth, rfl⟩ := of_guard hstep
    exact .shutdown hpc hboth
  · next hpc =>
    obtain ⟨hboth, rfl⟩ := of_guard hstep
    exact .shutdownFails hpc hboth
  · next hpc =>
    obtain ⟨hboth, rfl⟩ := of_guard hstep
    exact .breaks hpc hboth
  · next hpc =>
    cases hstep
    exact .mark hpc
  · next hpc =>
    cases hstep
    exact .fail hpc
  · cases hstep

lemma next_cases (x : Dir) : x.next = .reading ∨ x.next = .sample := by
  unfold Dir.next
  split
  · split
    · exact .inl rfl
    · exact .inr rfl
  · split
    · exact .inr rfl
    · exact .inl rfl

lemma after_fail_cases (o : Option Fail) :
    (o.map Pc.failing).getD .done = .done ∨ ∃ f, (o.map Pc.failing).getD .done = .failing f := by
  cases o with
  | none => exact .inl rfl
  | some f => exact .inr ⟨f, rfl⟩

/-! ## The whole system -/

inductive Step (c : Config) (s : State) : State → Prop
  | dir {d : Side} {s' : State} (h : Advance c s d s') : Step c s s'
  | spawn (hcaller : s.caller = .starting) : Step c s (((s.goto .a .start).goto .b .start).setCaller .waiting)
  | spawnFails (hcaller : s.caller = .starting) : Step c s ((s.setFirstErr .taskLimit).setCaller .finished)
  | cancel (hcaller : s.caller = .waiting) (hdone : (s.dirs .a).pc = .done) :
      Step c s (s.setCaller (.failing (.lock .cancelled)))
  | caller {f : Fail} (hcaller : s.caller = .failing f) :
      Step c s ((fail s f).1.setCaller (((fail s f).2.map Caller.failing).getD .waitingOn))
  | finish (hcaller : s.caller = .waiting ∨ s.caller = .waitingOn) : Step c s (s.setCaller .finished)
  | peerSends {x : Side} {bytes : List UInt8} (hopen : (s.streams x).peerEnded = false) :
      Step c s (s.setStream x ((s.streams x).peerSends bytes))
  | peerEnds {x : Side} : Step c s (s.setStream x (s.streams x).peerEnds)

/-- Until the helper was started, neither direction was. -/
def NotStarted (s : State) : Prop := s.caller = .starting → ∀ d, (s.dirs d).pc = .idle

lemma NotStarted.step (h : NotStarted s) (hstep : Step c s s') : NotStarted s' := by
  intro hstarting
  cases hstep with
  | dir hadv => exact absurd (h (hadv.caller ▸ hstarting) _) hadv.active.1
  | @caller f hcaller =>
    rcases hnext : (fail s f).2 with _ | g <;> simp [hnext] at hstarting
  | spawn | spawnFails | cancel | finish => simp at hstarting
  | peerSends | peerEnds => exact h hstarting

lemma step_cases (hstep : step c s l = some s') : Step c s s' := by
  cases l with
  | dir d o => exact .dir (advance_cases hstep)
  | spawn ok =>
    obtain ⟨hcaller, hstep⟩ := ite_none_right_eq_some.mp hstep
    split at hstep
    · cases hstep
      exact .spawn hcaller
    · cases hstep
      exact .spawnFails hcaller
  | cancel =>
    obtain ⟨⟨hcaller, hdone⟩, rfl⟩ := of_guard hstep
    exact .cancel hcaller hdone
  | caller =>
    simp only [step] at hstep
    split at hstep
    · next hcaller =>
      cases hstep
      exact .caller hcaller
    · cases hstep
  | finish =>
    obtain ⟨⟨hcaller, -⟩, rfl⟩ := of_guard hstep
    exact .finish hcaller
  | peerSends x bytes =>
    simp only [step, ite_none_left_eq_some, Option.some.injEq] at hstep
    obtain ⟨hopen, rfl⟩ := hstep
    exact .peerSends (Bool.eq_false_iff.mpr hopen)
  | peerEnds x =>
    cases hstep
    exact .peerEnds

/-- Two TCP streams, without `splice`. -/
def tcpPair : Transition.System State Label := copyBoth (fun _ => .tcp) false

def tcpStart : State := .new (fun _ => .tcp) [] (fun _ => .new .idle) .starting

lemma tcpPair_init : tcpPair.init tcpStart := ⟨0, rfl⟩

end RocNet.Copy
