import RocNet.Analysis.SocketWatching

/-!
# Waits on sockets, and their entries

A wait is open from its beginning until its task is resumed or abandons it. Meanwhile its entries in the sockets'
waiters stay until an event takes them to wake the task (`Woken`). A registration that failed is taken off by its
wait's id alone, so this needs that no two tasks have the same wait (`Owned`).
-/

namespace RocNet.Sockets

open Function List State

variable {s s' : State} {t u a S w : ℕ} {c : Code} {l : Label} {x : IoWaiter}

/-! ## Open waits -/

/-- The wait a task is in. -/
def Code.wait : Code → Option ℕ
  | .opened w _ | .armed w _ | .asleep w _ => some w
  | .entering k | .watching k _ => some k.wait
  | .free | .failed _ _ | .forgetting _ _ => none

/-- The wait a task is in or has not cleaned up after. -/
def Code.own : Code → Option ℕ
  | .failed w _ | .forgetting w _ => some w
  | c => c.wait

lemma own_of_wait (h : c.wait = some w) : c.own = some w := by
  cases c with
  | failed w' io | forgetting w' io => cases h
  | _ => exact h

@[simp]
lemma wait_added {k : Watch} : k.added.wait = some k.wait := by
  unfold Watch.added
  split <;> rfl

@[simp]
lemma wait_refused {k : Watch} : k.refused.wait = none := by
  unfold Watch.refused
  split <;> rfl

lemma own_refused {k : Watch} : k.refused.own = none ∨ k.refused.own = some k.wait := by
  unfold Watch.refused
  split
  · exact .inr rfl
  · exact .inl rfl

structure Open (s : State) (t w : ℕ) : Prop where
  wait : (s.code t).wait = some w
  unclaimed : s.wait t = w

/-- What a task's code becomes: it stays in its wait, leaves it, or begins one. -/
inductive NextCode (s s' : State) (t : ℕ) (c : Code) : Prop
  | stay (hwait : c.wait = (s.code t).wait) (hown : c.own = (s.code t).own)
  | leave (hwait : c.wait = none) (hown : c.own = none ∨ c.own = (s.code t).own)
  | begin (hown : c.own = some s.nextWait) (hnext : s'.nextWait = s.nextWait + 1)

lemma TaskStep.nextCode (h : TaskStep s t a l s') : ∃ c, s'.code = update s.code t c ∧ NextCode s s' t c := by
  have hsame : s.code = update s.code t (s.code t) := (update_eq_self t s.code).symm
  have hstay : ∀ {k : Watch} {c' : Code}, (s.code t).wait = some k.wait → c'.wait = some k.wait →
      NextCode s s' t c' := by
    intro k c' hcode hc'
    exact .stay (hc'.trans hcode.symm) ((own_of_wait hc').trans (own_of_wait hcode).symm)
  have hrefused : ∀ {k : Watch}, (s.code t).wait = some k.wait → NextCode s s' t k.refused := by
    intro k hcode
    exact .leave wait_refused (own_refused.imp_right fun h => h.trans (own_of_wait hcode).symm)
  cases h with
  | yield hcode | succeed hcode hready | block hcode hready => exact ⟨_, hsame, .stay rfl rfl⟩
  | suspend hcode =>
    refine ⟨_, rfl, ?_⟩
    rcases hcode with hcode | hcode
    · exact .stay (by rw [hcode]; rfl) (by rw [hcode]; rfl)
    · exact .stay (by rw [hcode]; rfl) (by rw [hcode]; rfl)
  | waitIo hcode htried | beginMultiWait hcode => exact ⟨_, rfl, .begin rfl rfl⟩
  | addIo hcode => exact ⟨_, rfl, .stay (by rw [hcode]; rfl) (by rw [hcode]; rfl)⟩
  | abandon hcode =>
    refine ⟨_, rfl, .leave rfl (.inr ?_)⟩
    rcases hcode with hcode | hcode
    · rw [hcode]
      rfl
    · rw [hcode]
      rfl
  | closedWait hcode | forgotten hcode => exact ⟨_, rfl, .leave rfl (.inl rfl)⟩
  | closedAdd hcode | notRearmed hcode | giveUp hcode => exact ⟨_, rfl, hrefused (by rw [hcode]; rfl)⟩
  | mine hcode hlock howner | rearmed hcode hreg | store hcode => exact ⟨_, rfl, hstay (by rw [hcode]; rfl) wait_added⟩
  | shared hcode hlock howner | alone hcode hlock hwaiters | unowned hcode hlock | deregistered hcode
  | notDeregistered hcode | alreadyExists hcode hreg | registered hcode | reregistered hcode =>
    exact ⟨_, rfl, hstay (by rw [hcode]; rfl) rfl⟩
  | notRegistered hcode =>
    refine ⟨_, rfl, ?_⟩
    rcases hcode with hcode | hcode
    · exact hstay (by rw [hcode]; rfl) rfl
    · exact hstay (by rw [hcode]; rfl) rfl
  | forget hcode hlock => exact ⟨_, rfl, .leave rfl (.inr (by rw [hcode]; rfl))⟩

section

variable (h : Step s l s')

include h

lemma Step.nextCode (u : ℕ) : NextCode s s' u (s'.code u) := by
  cases h with
  | @task t a l s' hon h =>
    obtain ⟨c, hcode, hnext⟩ := h.nextCode
    rw [hcode]
    obtain rfl | hu := eq_or_ne u t
    · rwa [update_self]
    · rw [update_of_ne hu]
      exact .stay rfl rfl
  | @resume t a hact hon =>
    simp only [setAct_code, setOn_code, setCode_code]
    obtain rfl | hu := eq_or_ne u t
    · rw [update_self]
      cases hcode : s.code u with
      | asleep w io => exact .leave rfl (.inr (by rw [hcode]; rfl))
      | _ => exact .stay (by rw [hcode]; rfl) (by rw [hcode]; rfl)
    · rw [update_of_ne hu]
      exact .stay rfl rfl
  | _ => exact .stay rfl rfl

/-- A step changes the code of one task at most. -/
theorem Step.code_of_ne : ∃ t, ∀ u ≠ t, s'.code u = s.code u := by
  cases h with
  | @task t a l s' hon h =>
    obtain ⟨c, hcode, -⟩ := h.nextCode
    exact ⟨t, fun u hu => by rw [hcode, update_of_ne hu]⟩
  | @resume t a hact hon => exact ⟨t, fun u hu => update_of_ne hu _ _⟩
  | _ => exact ⟨0, fun _ _ => rfl⟩

lemma Step.nextWait_le : s.nextWait ≤ s'.nextWait := by
  cases h with
  | task hon h =>
    cases h with
    | waitIo hcode htried | beginMultiWait hcode => exact Nat.le_succ _
    | _ => exact Nat.le_refl _
  | _ => exact Nat.le_refl _

lemma Step.wait_back (hw : (s'.code u).wait = some w) : (s.code u).wait = some w ∨ w = s.nextWait := by
  cases h.nextCode u with
  | stay hwait hown => exact .inl (hwait.symm.trans hw)
  | leave hwait hown =>
    rw [hwait] at hw
    cases hw
  | begin hown hnext => exact .inr (Option.some.inj ((own_of_wait hw).symm.trans hown))

lemma Step.own_back (hw : (s'.code u).own = some w) :
    (s.code u).own = some w ∨ w = s.nextWait ∧ s'.nextWait = s.nextWait + 1 := by
  cases h.nextCode u with
  | stay hwait hown => exact .inl (hown.symm.trans hw)
  | leave hwait hown =>
    rcases hown with hown | hown
    · rw [hown] at hw
      cases hw
    · exact .inl (hown.symm.trans hw)
  | begin hown hnext => exact .inr ⟨Option.some.inj (hw.symm.trans hown), hnext⟩

/-- A running task's place and code are changed by its own steps only. -/
theorem Step.frame (hl : l.task ≠ some u) (hu : s.on u = some b) : s'.on u = some b ∧ s'.code u = s.code u := by
  cases h with
  | @task t a l s' hon h =>
    have hne : u ≠ t := by
      rintro rfl
      exact hl (by cases h <;> rfl)
    obtain ⟨c, hcode, -⟩ := h.nextCode
    refine ⟨?_, by rw [hcode, update_of_ne hne]⟩
    cases h with
    | yield _ | suspend _ => simpa [hne] using hu
    | _ => exact hu
  | @resume t a hact hon =>
    have hne : u ≠ t := by
      rintro rfl
      rw [hon] at hu
      cases hu
    exact ⟨by simpa [hne] using hu, by simp [hne]⟩
  | _ => exact ⟨hu, rfl⟩

end

/-! ## Whose wait it is -/

/-- Waits have been given out once, and never 0. -/
structure Owned (s : State) : Prop where
  pos : 0 < s.nextWait
  issued : ∀ t w, (s.code t).own = some w → 0 < w ∧ w < s.nextWait
  distinct : ∀ t u w, (s.code t).own = some w → (s.code u).own = some w → t = u

lemma owned_initial : Owned initial := by
  refine ⟨Nat.one_pos, fun _ _ h => ?_, fun _ _ _ h => ?_⟩
  · cases h
  · cases h

lemma Owned.step (h : Owned s) (hstep : Step s l s') : Owned s' := by
  have hle := hstep.nextWait_le
  refine ⟨Nat.lt_of_lt_of_le h.pos hle, fun t w hw => ?_, fun t u w ht hu => ?_⟩
  · rcases hstep.own_back hw with hold | ⟨rfl, hnext⟩
    · have hissued := h.issued t w hold
      exact ⟨hissued.1, Nat.lt_of_lt_of_le hissued.2 hle⟩
    · exact ⟨h.pos, hnext ▸ Nat.lt_succ_self _⟩
  · obtain ⟨v, hv⟩ := hstep.code_of_ne
    rcases hstep.own_back ht with hold | ⟨rfl, -⟩
    · rcases hstep.own_back hu with hold' | ⟨rfl, -⟩
      · exact h.distinct t u w hold hold'
      · exact absurd (h.issued t _ hold).2 (Nat.lt_irrefl _)
    · -- the wait just began, and only the task that took the step can be in it
      have hself : ∀ y, (s'.code y).own = some s.nextWait → y = v := by
        intro y hy
        by_contra hne
        rw [hv y hne] at hy
        exact Nat.lt_irrefl _ (h.issued y _ hy).2
      rw [hself t ht, hself u hu]

/-! ## What an open wait keeps -/

/-- A task in a wait keeps what it knows of the sockets. -/
theorem Step.tried_subset (hw : Watched s) (h : Step s l s') (hwait : (s'.code u).wait = some w) :
    s.tried u ⊆ s'.tried u := by
  cases h with
  | @task t a l s' hon h =>
    cases h with
    | @block S d drain hcode hready =>
      intro x hx
      obtain rfl | hu := eq_or_ne u t
      · simp [hx]
      · simpa [hu] using hx
    | _ => exact fun _ hx => hx
  | @resume t a hact hon =>
    by_cases hu : u = t
    · -- a task in a wait that no worker runs is suspended, and leaves the wait when resumed
      subst hu
      have hok := hw.code u
      simp only [setAct_code, setOn_code, setCode_code, update_self] at hwait
      revert hok hwait
      cases s.code u with
      | opened w io | armed w io | entering k =>
        rintro ⟨-, a, ha⟩
        rw [hon] at ha
        cases ha
      | watching k x =>
        rintro ⟨-, -, a, ha, -⟩
        rw [hon] at ha
        cases ha
      | _ => exact fun _ hwait => by cases hwait
    · simp [hu]
  | observe hready => exact fun _ hx => mem_cons_of_mem _ hx
  | _ => exact fun _ hx => hx

lemma Step.word_back (h : Step s l s') :
    s'.wait u = s.wait u ∨ s'.wait u = 0 ∨ s'.wait u = s.nextWait ∨ (s'.code u).wait = none := by
  have hupdate : ∀ {t n : ℕ}, (u = t → n = 0 ∨ n = s.nextWait ∨ (s'.code u).wait = none) →
      update s.wait t n u = s.wait u ∨ update s.wait t n u = 0 ∨
        update s.wait t n u = s.nextWait ∨ (s'.code u).wait = none := by
    intro t n hn
    obtain rfl | hu := eq_or_ne u t
    · rw [update_self]
      exact .inr (hn rfl)
    · rw [update_of_ne hu]
      exact .inl rfl
  cases h with
  | task hon h =>
    cases h with
    | waitIo hcode htried | beginMultiWait hcode => exact hupdate fun _ => .inr (.inl rfl)
    | abandon hcode | closedWait hcode => exact hupdate fun hu => .inr (.inr (by simp [hu, Code.wait]))
    | _ => exact .inl rfl
  | claim => exact hupdate fun _ => .inl rfl
  | @wake a S t w woken todo hact =>
    simp only [setAct_wait, setWait_wait]
    obtain rfl | hu := eq_or_ne u t
    · rw [update_self]
      split
      · exact .inr (.inl rfl)
      · exact .inl rfl
    · rw [update_of_ne hu]
      exact .inl rfl
  | close hlock =>
    simp only [close_wait]
    split
    · exact .inr (.inl rfl)
    · exact .inl rfl
  | _ => exact .inl rfl

/-- A wait that is open was, unless it just began. -/
theorem Open.back (ho : Owned s) (hstep : Step s l s') (h : Open s' u w) : Open s u w ∨ w = s.nextWait := by
  rcases hstep.wait_back h.wait with hwait | hnew
  · have hpos := (ho.issued u w (own_of_wait hwait)).1
    rcases hstep.word_back (u := u) with hword | hword | hword | hword
    · exact .inl ⟨hwait, hword.symm.trans h.unclaimed⟩
    · rw [h.unclaimed] at hword
      exact absurd hword (Nat.ne_of_gt hpos)
    · exact .inr (h.unclaimed.symm.trans hword)
    · rw [h.wait] at hword
      cases hword
  · exact .inr hnew

/-! ## The entries of open waits -/

lemma Step.waiters_back (h : Step s l s') (hx : x ∈ s'.waiters S) :
    x ∈ s.waiters S ∨ ∃ k, s.code x.task = .entering k ∧ S = k.socket ∧ x = k.waiter x.task := by
  have hpush : ∀ {t : ℕ} {k : Watch}, s.code t = .entering k →
      x ∈ (s.setWaiters k.socket (s.waiters k.socket ++ [k.waiter t])).waiters S →
      x ∈ s.waiters S ∨ ∃ k, s.code x.task = .entering k ∧ S = k.socket ∧ x = k.waiter x.task := by
    intro t k hcode hmem
    rcases mem_setWaiters hmem with ⟨rfl, hmem'⟩ | ⟨-, hmem⟩
    · rcases mem_append.mp hmem' with hmem | hmem
      · exact .inl hmem
      · cases mem_singleton.mp hmem
        exact .inr ⟨k, hcode, rfl, rfl⟩
    · exact .inl hmem
  cases h with
  | task hon h =>
    cases h with
    | mine hcode hlock howner | shared hcode hlock howner | alone hcode hlock hwaiters
    | unowned hcode hlock => exact hpush hcode hx
    | giveUp hcode | forget hcode hlock => exact .inl (mem_of_mem_forget hx)
    | _ => exact .inl hx
  | handle hact hlock =>
    rcases mem_setWaiters hx with ⟨rfl, hx'⟩ | ⟨-, hx'⟩
    · exact .inl (mem_filter.mp hx').1
    · exact .inl hx'
  | @close T hlock =>
    obtain rfl | hS := eq_or_ne S T
    · simp at hx
    · exact .inl (by simpa [hS] using hx)
  | _ => exact .inl hx

/-- A worker took a waiter of `S` off to wake it, and has not yet. -/
def Woken (s : State) (S : ℕ) (x : IoWaiter) : Prop :=
  ∃ a woken todo, s.act a = .waking S woken todo ∧ (x.task, x.wait) ∈ woken

/-- A waiter whose wait is open is listed with the socket, or about to be woken. -/
def Enlisted (s : State) (S : ℕ) (x : IoWaiter) : Prop := x ∈ s.waiters S ∨ Woken s S x

lemma woken_setAct (h : Woken s S x) (hout : ∀ woken todo, s.act a ≠ .waking S woken todo) :
    Woken (s.setAct a y) S x := by
  obtain ⟨b, woken, todo, hact, hmem⟩ := h
  have hba : b ≠ a := by
    rintro rfl
    exact hout woken todo hact
  exact ⟨b, woken, todo, by simpa [hba] using hact, hmem⟩

/-- Workers run the tasks that run on them. -/
def Runs (s : State) : Prop := ∀ t a, s.on t = some a → s.act a = .running t

lemma Woken.step (hruns : Runs s) (ho : Owned s) (hstep : Step s l s')
    (hopen : Open s' x.task x.wait) (h : Woken s S x) : Woken s' S x := by
  cases hstep with
  | task hon hstep =>
    have hrun := hruns _ _ hon
    cases hstep with
    | yield hcode => exact woken_setAct h (by simp [hrun])
    | suspend hcode => exact woken_setAct (s := (s.setCode _ _).setOn _ _) h (by simp [hrun])
    | _ => exact h
  | @resume t a hact hon =>
    exact woken_setAct (s := ((s.setTried t []).setCode t (s.code t).resumed).setOn t (some a)) h (by simp [hact])
  | collect hact hreports => exact woken_setAct (s := s.setPending _ _) h (by simp [hact])
  | done hact => exact woken_setAct h (by simp [hact])
  | @handle a e todo hact hlock => exact woken_setAct (s := s.setWaiters _ _) h (by simp [hact])
  | @wokeAll a T todo hact =>
    obtain ⟨b, woken, todo, hb, hmem⟩ := h
    have hba : b ≠ a := by
      rintro rfl
      rw [hact] at hb
      cases hb
      cases hmem
    exact ⟨b, woken, todo, by simpa [hba] using hb, hmem⟩
  | @wake a T t w woken todo hact =>
    obtain ⟨b, woken', todo', hb, hmem⟩ := h
    obtain rfl | hba := eq_or_ne b a
    · rw [hact] at hb
      cases hb
      rcases mem_cons.mp hmem with heq | hmem
      · -- the wait of this waiter is claimed now
        cases heq
        have hpos := (ho.issued _ _ (own_of_wait hopen.wait)).1
        have hword := hopen.unclaimed
        simp only [setAct_wait, setWait_wait, update_self] at hword
        split at hword
        · exact absurd hword (Nat.ne_of_lt hpos)
        · next hne => exact absurd hword hne
      · exact ⟨b, woken, todo, by simp, hmem⟩
    · exact ⟨b, woken', todo', by simpa [hba] using hb, hmem⟩
  | _ => exact h

/-- **An entry of a wait stays as long as the wait is open**, or until it is woken. -/
theorem Enlisted.step (hruns : Runs s) (ho : Owned s) (hstep : Step s l s')
    (hopen : Open s' x.task x.wait) (h : Enlisted s S x) : Enlisted s' S x := by
  rcases h with hx | hwoken
  swap
  · exact .inr (hwoken.step hruns ho hstep hopen)
  -- entries are taken off by the id of a wait that its task is not in any more
  have hforget : ∀ {t T n : ℕ}, (s.code t).own = some n → (s'.code t).wait = none →
      (∀ u ≠ t, s'.code u = s.code u) → x ∈ (s.forget T n).waiters S := by
    intro t T n hown hout hsame
    have hne : x.wait ≠ n := by
      intro hxn
      by_cases ht : x.task = t
      · have hwait := hopen.wait
        rw [ht, hout] at hwait
        cases hwait
      · have hown' := own_of_wait hopen.wait
        rw [hsame _ ht, hxn] at hown'
        exact ht (ho.distinct _ _ _ hown' hown)
    obtain rfl | hS := eq_or_ne S T
    · simp [State.forget, hx, hne]
    · simpa [State.forget, hS] using hx
  have hpush : ∀ {t : ℕ} {k : Watch}, x ∈ (s.setWaiters k.socket (s.waiters k.socket ++ [k.waiter t])).waiters S := by
    intro t k
    obtain rfl | hS := eq_or_ne S k.socket
    · simp [hx]
    · simpa [hS] using hx
  cases hstep with
  | task hon hstep =>
    cases hstep with
    | mine hcode hlock howner | shared hcode hlock howner | alone hcode hlock hwaiters
    | unowned hcode hlock => exact .inl hpush
    | giveUp hcode =>
      exact .inl (hforget (by rw [hcode]; rfl) (by simp) fun u hu => by simp [State.forget, hu])
    | forget hcode hlock =>
      exact .inl (hforget (by rw [hcode]; rfl) (by simp [Code.wait])
        fun u hu => by simp [State.forget, hu])
    | _ => exact .inl hx
  | @handle a e todo hact hlock =>
    obtain rfl | hS := eq_or_ne S e.socket
    · cases hhit : e.hits x.writable with
      | false => exact .inl (by simp [hx, hhit])
      | true =>
        refine .inr ⟨a, _, todo, update_self _ _ _, List.mem_map.mpr ⟨x, ?_, rfl⟩⟩
        exact mem_filter.mpr ⟨hx, hhit⟩
    · exact .inl (by simpa [hS] using hx)
  | @close T hlock =>
    obtain rfl | hS := eq_or_ne S T
    · have hpos := (ho.issued _ _ (own_of_wait hopen.wait)).1
      have hword := hopen.unclaimed
      simp only [close_wait] at hword
      split at hword
      · exact absurd hword (Nat.ne_of_lt hpos)
      · next hany =>
        refine absurd (List.any_eq_true.mpr ⟨x, hx, ?_⟩) hany
        simp [hword]
    · exact .inl (by simpa [hS] using hx)
  | _ => exact .inl hx

/-- A task that enters `watch_io` is listed with the socket when it comes out of it in its wait. -/
theorem Step.entering_next {k : Watch} (hstep : Step s l s') (hcode : s.code t = .entering k)
    (hopen : Open s' t k.wait) : s'.code t = .entering k ∨ Enlisted s' k.socket (k.waiter t) := by
  have hpush : k.waiter t ∈ (s.setWaiters k.socket (s.waiters k.socket ++ [k.waiter t])).waiters k.socket := by simp
  cases hstep with
  | @task u a l s' hon hstep =>
    obtain rfl | hu := eq_or_ne t u
    · have hwait := hopen.wait
      cases hstep with
      | yield _ | succeed _ _ | block _ _ => exact .inl hcode
      | closedWait _ => simp [Code.wait] at hwait
      | closedAdd _ => simp at hwait
      | mine hk _ _ | shared hk _ _ | alone hk _ _ | unowned hk _ =>
        cases hcode.symm.trans hk
        exact .inr (.inl hpush)
      | suspend hk | abandon hk | notRegistered hk =>
        rcases hk with hk | hk
        · cases hcode.symm.trans hk
        · cases hcode.symm.trans hk
      | waitIo hk _ | beginMultiWait hk | addIo hk | rearmed hk _ | notRearmed hk | deregistered hk
      | notDeregistered hk | alreadyExists hk _ | registered hk | reregistered hk | store hk | giveUp hk
      | forgotten hk | forget hk _ => cases hcode.symm.trans hk
    · obtain ⟨c, hupdate, -⟩ := hstep.nextCode
      rw [hupdate, update_of_ne hu]
      exact .inl hcode
  | @resume u a hact hon =>
    obtain rfl | hu := eq_or_ne t u
    · exact .inl (by simp [hcode, Code.resumed])
    · exact .inl (by simpa [hu] using hcode)
  | _ => exact .inl hcode

/-! ## Being suspended -/

/-- Suspended tasks do not run. -/
def Suspended (s : State) : Prop := ∀ t w io, s.code t = .asleep w io → s.on t = none

lemma Suspended.step (h : Suspended s) (hstep : Step s l s') : Suspended s' := by
  intro u w io hcode
  cases hstep with
  | @task t a l s' hon htask =>
    obtain rfl | hu := eq_or_ne u t
    · have hawake : s.code u ≠ .asleep w io := by
        intro hasleep
        rw [h u w io hasleep] at hon
        cases hon
      cases htask with
      | suspend _ | yield _ => simp
      | succeed _ _ | block _ _ => exact absurd hcode hawake
      | closedAdd _ | mine _ _ _ | rearmed _ _ | notRearmed _ | store _ | giveUp _ =>
        simp only [setCode_code, update_self, Watch.added, Watch.refused] at hcode
        split at hcode <;> cases hcode
      | _ => simp [State.begin] at hcode
    · obtain ⟨c, hsame, -⟩ := htask.nextCode
      rw [hsame, update_of_ne hu] at hcode
      have hold := h u w io hcode
      cases htask with
      | yield _ | suspend _ => simpa [hu] using hold
      | _ => exact hold
  | @resume t a hact hon =>
    obtain rfl | hu := eq_or_ne u t
    · simp only [setAct_code, setOn_code, setCode_code, update_self] at hcode
      cases hold : s.code u <;> rw [hold] at hcode <;> cases hcode
    · simpa [hu] using h u w io (by simpa [hu] using hcode)
  | _ => exact h u w io hcode

lemma suspended_of_reachable (h : Transition.Reachable system s) : Suspended s := by
  refine Transition.Reachable.invariant (fun r hr => ?_) (fun r l r' hr hs => hr.step (step_cases hs)) h
  cases hr
  exact nofun

end RocNet.Sockets
