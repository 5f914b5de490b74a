import RocNet.Analysis.ListenerReturns

/-!
# Closed listeners and a full heap

`accept!` waits for a slot before it looks at the listener, and a poll reports `TooManySockets` before it does. So at
rest after a `close!` the calls that are left wait for slots.
-/

namespace RocNet.Listener

open Function List Option
open Sched (TaskId)
open Transition

variable {S : ℕ} {s s' : State} {t u : TaskId} {c : Call} {x : Place} {l : Label}

/-! ## Tasks that wait for slots -/

/-- Only tasks in `reserve` are parked. -/
def Parks (s : State) : Prop := ∀ t, s.heap.parked t ≠ none → ∃ a, s.ops t = .reserving a

/-- The task that steps ends up in `reserve`, or is not parked; nobody else is parked or unparked. -/
theorem Parks.updated (h : Parks s) (hops : s'.ops = update s.ops t o)
    (hparked : ∀ u ≠ t, s'.heap.parked u = s.heap.parked u) (hself : s'.heap.parked t ≠ none → ∃ a, o = .reserving a) :
    Parks s' := by
  unfold Parks
  rw [hops, forall_update_iff s.ops fun u o => s'.heap.parked u ≠ none → ∃ a, o = .reserving a]
  refine ⟨hself, ?_⟩
  intro u hu
  rw [hparked u hu]
  exact h u

lemma Parks.step (h : Parks s) (hstep : Step S s l s') : Parks s' := by
  have hnot : ∀ {t o}, s.ops t = o → (∀ a, o ≠ .reserving a) → s.heap.parked t = none := by
    intro t o ho hne
    by_contra hparked
    obtain ⟨a, ha⟩ := h t hparked
    rw [ha] at ho
    exact hne a ho.symm
  cases hstep with
  | same | sock | grab | give | cancel | claim | pollFull => exact h
  | begins => exact h.updated rfl (fun _ _ => rfl) fun _ => ⟨_, rfl⟩
  | enterGot hop hfree hl hparked => exact h.updated rfl (fun _ _ => rfl) fun hne => absurd hparked hne
  | @enterPark _ t a hop | @relockPark _ t a _ _ hop =>
    intro u hu
    by_cases hut : u = t
    · exact ⟨a, by rw [hut]; exact hop⟩
    · exact h u (by simpa [hut] using hu)
  | relockGot | relockCancelled | relockGivesUp =>
    exact h.updated rfl (fun u hu => by simp [hu]) (by simp)
  | poll hop | move hop | finish hop | stream hop | block hop | wait hop | deliver hop | close hop | lock hop
  | already hop | load hop | replace hop | closeFails hop | store hop | wake hop =>
    exact h.updated rfl (fun _ _ => rfl) fun hne => absurd (hnot hop nofun) hne

/-! ## Rest -/

/-- A task that cannot go on: its wait for a slot, or for the socket, was not ended, and nobody is about to
end it. -/
def Blocked (s : State) (t : TaskId) : Prop :=
  match s.ops t with
  | .reserving _ => Resource.Waiting s.heap t
  | .run _ .waiting => ∃ w io, s.sock.code t = .asleep w io ∧ s.sock.wait t = w ∧
      ∀ a S woken todo, s.sock.act a = .waking S woken todo → (t, w) ∉ woken
  | _ => False

/-- Every task in a call, or in `reserve` for something else, or closing, has run as far as it can. -/
def AtRest (s : State) : Prop := ∀ t, s.ops t ≠ .none → Blocked s t

/-- At rest after a `close!`, tasks wait for slots, if for anything. -/
theorem AtRest.reserving (hrest : AtRest s) (h : Sound S s) (hshut : s.shut) (hop : s.ops t ≠ .none) :
    ∃ a, s.ops t = .reserving a ∧ Resource.Waiting s.heap t := by
  have hblocked := hrest t hop
  unfold Blocked at hblocked
  split at hblocked
  · next a heq => exact ⟨a, heq, hblocked⟩
  · next c heq =>
    obtain ⟨w, io, hcode, hwait, hnobody⟩ := hblocked
    have hio : (Op.run c .waiting).coded S (.asleep w io) := by
      rw [← heq, ← hcode]
      exact h.coded t
    obtain rfl : io = [S] := hio
    obtain ⟨a, woken, todo, hact, hmem⟩ :=
      h.awaited.sleeper (h.closed hshut).2.2 hcode (mem_singleton_self S) hwait
    exact absurd hmem (hnobody a S woken todo hact)
  · exact hblocked.elim

/-- At rest with a slot free, nobody waits for one. -/
theorem AtRest.free (hrest : AtRest s) (h : Sound S s) (hparks : Parks s) (hshut : s.shut)
    (hfree : s.heap.free ≠ []) (t : TaskId) : s.ops t = .none := by
  by_contra hop
  obtain ⟨a, -, hwaiting⟩ := hrest.reserving h hshut hop
  obtain ⟨n, htally, hle⟩ := h.closing.promised
  have hbound := hle ⟨t, hwaiting⟩
  have hpos := length_pos_of_ne_nil hfree
  -- so somebody was told of the slot, who has not looked again
  obtain ⟨u, hu⟩ : ∃ u, Resource.Woken s.heap u := htally.exists_of_pos (by omega)
  have hparked : s.heap.parked u ≠ none := by
    obtain ⟨id, w, hparked, -⟩ := hu
    rw [hparked]
    exact nofun
  obtain ⟨b, hb⟩ := hparks u hparked
  have hblocked := hrest u (by rw [hb]; exact nofun)
  simp only [Blocked, hb] at hblocked
  exact hu.not_waiting hblocked

/-! ## After the rest -/

/-- `NotConnected`; or the task was cancelled. -/
def Report.Refused (h : Resource.Heap) (r : Report) : Prop :=
  r.outcome = .notConnected ∨ (r.outcome = .cancelled ∧ h.cancelled r.task = true)

/-- Closed, with calls that have not got past the head of the loop, and with these reports and others that
refuse. -/
structure Quiet (before : List Report) (s : State) : Prop where
  shut : s.shut = true
  top : ∀ t c x, s.ops t = .run c x → x = .top
  refused : ∃ new, s.reports = before ++ new ∧ ∀ r ∈ new, r.Refused s.heap

/-- The condition on a poll: it finds a free slot. -/
def Label.polls : Label → Bool
  | .tryAccept _ => true
  | _ => false

def Served (s : State) (l : Label) : Prop := l.polls = true → s.heap.free ≠ []

instance (s : State) (l : Label) : Decidable (Served s l) := inferInstanceAs (Decidable (_ → _))

variable {before : List Report}

section

variable (h : Quiet before s) (hstep : Step S s l s') (hops : ∀ t c x, s'.ops t = .run c x → x = .top)

include h hstep hops

lemma Quiet.same (hreports : s'.reports = s.reports) : Quiet before s' := by
  obtain ⟨new, hnew, hrefused⟩ := h.refused
  refine ⟨hstep.flags.2.2 h.shut, hops, new, by rw [hreports, hnew], ?_⟩
  intro r hr
  exact (hrefused r hr).imp_right fun ⟨hout, hcancelled⟩ => ⟨hout, hstep.cancelled hcancelled⟩

lemma Quiet.returns (hreports : s'.reports = s.reports ++ [r]) (hr : r.Refused s'.heap) : Quiet before s' := by
  obtain ⟨new, hnew, hrefused⟩ := h.refused
  refine ⟨hstep.flags.2.2 h.shut, hops, new ++ [r], by rw [hreports, hnew, append_assoc], ?_⟩
  intro r' hr'
  rcases mem_append.mp hr' with hbefore | hself
  · exact (hrefused r' hbefore).imp_right fun ⟨hout, hcancelled⟩ => ⟨hout, hstep.cancelled hcancelled⟩
  · cases mem_singleton.mp hself
    exact hr

end

/-- A task goes on to something that is not a call, or to the head of the loop. -/
theorem Quiet.top_update (h : Quiet before s) (ho : ∀ c x, o = .run c x → x = .top) :
    ∀ u c x, update s.ops t o u = .run c x → x = .top := by
  rw [forall_update_iff s.ops fun _ o => ∀ c x, o = .run c x → x = .top]
  exact ⟨ho, fun u _ => h.top u⟩

lemma granted_top (a : Option Bool) (i : ℕ) (c : Call) (x : Place) (h : granted a i = .run c x) : x = .top := by
  cases a with
  | none => cases h
  | some late =>
    cases h
    rfl

lemma Quiet.step (h : Quiet before s) (hsound : Sound S s) (hserved : Served s l) (hstep : Step S s l s') :
    Quiet before s' := by
  have hclosed := (hsound.closed h.shut).1
  have hkept := hstep
  cases hstep with
  | same => exact h
  | sock | grab | give | cancel | claim | enterPark | relockPark => exact h.same hkept h.top rfl
  | begins | relockGivesUp | close | lock | already | load | replace | closeFails | store | wake =>
    exact h.same hkept (h.top_update nofun) rfl
  | enterGot | relockGot => exact h.same hkept (h.top_update (granted_top _ _)) rfl
  | @relockCancelled _ t late id w hop hparked hwait =>
    exact h.returns hkept (h.top_update nofun) rfl (.inr ⟨rfl, hsound.closing.cancelled t id w hparked hwait⟩)
  | poll =>
    refine h.same hkept (h.top_update ?_) rfl
    rintro c x heq
    cases heq
    rfl
  | pollFull hop hfree => exact absurd hfree (hserved rfl)
  | move hop hmoves =>
    obtain rfl := h.top _ _ _ hop
    cases hmoves with
    | load hopen =>
      rw [hclosed] at hopen
      cases hopen
  | finish hop hends =>
    obtain rfl := h.top _ _ _ hop
    cases hends with
    | closed => exact h.returns hkept (h.top_update nofun) rfl (.inl rfl)
  | stream hop | block hop | wait hop | deliver hop => exact absurd (h.top _ _ _ hop) nofun

/-! ## The result -/

lemma parks_of_reachable (h : Reachable (system S capacity) s) : Parks s := by
  refine h.invariant ?_ ?_
  · rintro s rfl t hparked
    exact absurd rfl hparked
  · intro s l s' hs hstep
    exact hs.step (step_cases hstep)

/-- **A closed listener fails every accept, while there are slots.** When all is at rest after a `close!`, and a
slot is free, no call is left; and what ends after that is refused, as long as polls find a free slot. -/
theorem closed_listener_fails_accepts {capacity : ℕ} (hreach : Reachable (system S capacity) s)
    (hshut : s.shut = true) (hrest : AtRest s) : (s.heap.free ≠ [] → ∀ t, s.ops t = .none) ∧
      ∀ s', ReachableBy ((system S capacity).startAt s) Served s' →
        ∃ new, s'.reports = s.reports ++ new ∧ ∀ r ∈ new, r.Refused s'.heap := by
  have hsound := sound_of_reachable hreach
  refine ⟨?_, ?_⟩
  · intro hfree t
    exact hrest.free hsound (parks_of_reachable hreach) hshut hfree t
  · intro s' hreach'
    have hquiet : Quiet s.reports s := by
      refine ⟨hshut, ?_, [], by simp, nofun⟩
      intro t c x hop
      obtain ⟨a, hreserving, -⟩ := hrest.reserving (t := t) hsound hshut (by rw [hop]; exact nofun)
      rw [hop] at hreserving
      cases hreserving
    have hall := hreach'.invariant (I := fun r => Sound S r ∧ Quiet s.reports r) ?_ ?_
    · exact hall.2.refused
    · rintro r rfl
      exact ⟨hsound, hquiet⟩
    · intro r l r' hserved ⟨hr, hq⟩ hstep
      exact ⟨hr.step (step_cases hstep), hq.step hr hserved (step_cases hstep)⟩

/-! ## Runs -/

lemma Step.ops_of_ne (h : Step S s l s') (hl : l.task ≠ some t) : s'.ops t = s.ops t := by
  have hne : ∀ {u o}, l.task = some u → update s.ops u o t = s.ops t := by
    intro u o hu
    have hut : t ≠ u := by
      rintro rfl
      exact hl hu
    exact update_of_ne hut _ _
  cases h with
  | same | sock | grab | give | cancel | claim | enterPark | relockPark | pollFull => rfl
  | begins _ _ _ hu | enterGot _ _ hu | relockGot _ _ _ hu | relockCancelled _ _ _ hu | relockGivesUp _ _ _ hu
  | poll _ _ _ hu | move _ _ hu | finish _ _ hu | stream _ _ _ hu | block _ _ _ _ _ hu | wait _ _ hu | deliver _ hu
  | close _ _ _ hu | lock _ _ hu | already _ _ hu | load _ _ hu | replace _ hu | closeFails _ hu | store _ hu
  | wake _ _ hu => exact hne hu

lemma ops_of_run (hrun : run (system S capacity) s ls = some s') (hls : ∀ l ∈ ls, l.task ≠ some t) :
    s'.ops t = s.ops t := by
  induction ls generalizing s with
  | nil =>
    cases hrun
    rfl
  | cons l ls ih =>
    obtain ⟨m, hm, hrest⟩ := bind_eq_some_iff.mp hrun
    rw [ih hrest fun l' hl' => hls l' (mem_cons_of_mem _ hl')]
    exact (step_cases hm).ops_of_ne (hls l mem_cons_self)

/-- Task 3 polls on worker 2. -/
def poll : List Label := [.sock (.resume 3 2), .tryAccept 3, .next 3]

/-- One accept waits through the close; another starts after it, and is refused too. -/
theorem closed_listener_fails_accepts_polled : ∃ s s', Reachable (system 5 1) s ∧ AtRest s ∧ (∀ t, s.ops t = .none) ∧
    s.reports = [⟨1, .notConnected, false, false⟩] ∧ ReachableBy ((system 5 1).startAt s) Served s' ∧
    s'.reports = s.reports ++ [⟨3, .notConnected, true, false⟩] ∧
    ∃ new, s'.reports = s.reports ++ new ∧ ∀ r ∈ new, r.Refused s'.heap := by
  obtain ⟨s, hrun, hs⟩ := (any_eq_true (fun s : State => decide (s.shut = true ∧ s.ops 1 = .none ∧ s.ops 2 =
    .none ∧ s.heap.free ≠ [] ∧ s.reports = [⟨1, .notConnected, false, false⟩] ∧
    (runBy ((system 5 1).startAt s) Served s poll).any (fun s' => decide
    (s'.reports = s.reports ++ [(⟨3, .notConnected, true, false⟩ : Report)])) = true))
    (run (system 5 1) (initial 1) (acceptWaits ++ closes ++ waitEnds))).mp (by decide)
  obtain ⟨hshut, hone, htwo, hfree, hreports, hpoll⟩ := of_decide_eq_true hs
  obtain ⟨s', hreach', hs'⟩ := exists_reachableBy_of_runBy ((system 5 1).startAt s) Served rfl poll _ hpoll
  have hreach : Reachable (system 5 1) s := .of_run (.start rfl) hrun
  have hrest : AtRest s := by
    intro t ht
    by_cases h1 : t = 1
    · exact absurd (h1 ▸ hone) ht
    · by_cases h2 : t = 2
      · exact absurd (h2 ▸ htwo) ht
      · refine absurd (ops_of_run hrun ?_) ht
        simp [acceptWaits, closes, waitEnds, Label.task, Ne.symm h1, Ne.symm h2]
  obtain ⟨hnone, hafter⟩ := closed_listener_fails_accepts hreach hshut hrest
  exact ⟨s, s', hreach, hrest, hnone hfree, hreports, hreach', of_decide_eq_true hs', hafter s' hreach'⟩

/-- Others have the only slot, and task 1 waits for it in `accept!`. -/
def waitsForSlot : List Label := [.grab, .sock (.resume 1 0), .accept 1, .enter 1, .sock (.yield 1)]

/-- With no free slot, a call of `accept!` goes on waiting after the listener was closed, and a poll reports
`TooManySockets`. -/
theorem full_heap_hides_close : ∃ s s', Reachable (system 5 1) s ∧ s.shut = true ∧ AtRest s ∧
    s.ops 1 = .reserving (some false) ∧ step 5 s (.tryAccept 3) = some s' ∧
    s'.reports = [⟨3, .tooManySockets, true, false⟩] := by
  obtain ⟨s, hrun, hs⟩ := (any_eq_true (fun s : State => decide (s.shut = true ∧
    s.ops 1 = .reserving (some false) ∧ s.ops 2 = .none ∧ s.heap.parked 1 = some (1, 1) ∧ s.heap.waits 1 = none ∧
    (step 5 s (.tryAccept 3)).any (fun s' => decide (s'.reports = [⟨3, .tooManySockets, true, false⟩])) = true))
    (run (system 5 1) (initial 1) (waitsForSlot ++ closes ++ [.sock (.resume 3 2)]))).mp (by decide)
  obtain ⟨hshut, hone, htwo, hparked, hwait, hpoll⟩ := of_decide_eq_true hs
  obtain ⟨s', hstep, hs'⟩ := (any_eq_true _ _).mp hpoll
  refine ⟨s, s', .of_run (.start rfl) hrun, hshut, ?_, hone, hstep, of_decide_eq_true hs'⟩
  intro t ht
  obtain rfl | h1 := eq_or_ne t 1
  · simp only [Blocked, hone]
    exact ⟨1, 1, hparked, hwait⟩
  · by_cases h2 : t = 2
    · exact absurd (h2 ▸ htwo) ht
    · refine absurd (ops_of_run hrun ?_) ht
      simp [waitsForSlot, closes, Label.task, Ne.symm h1, Ne.symm h2]

end RocNet.Listener
