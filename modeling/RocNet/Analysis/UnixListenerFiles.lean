import RocNet.Model.UnixFiles

/-!
# An open listener and the file at its path

Dropping a listener's handle removes the file at its path, whoever's it is by then. As long as that
never is the file of another open listener, every open listener is reached through its path.
-/

namespace RocNet.UnixFiles

open Function Option Transition State

variable {P : Type} [DecidableEq P] {s s' : State P} {p q : P} {n m : ℕ} {f : Faults}

/-! ## What `listen!` does -/

/-- How a call of `listen!` changes files and listeners: nothing, or the path it is given, at which
nobody was listening. -/
inductive Listens (s : State P) (p : P) : State P → Prop
  | same : Listens s p s
  | removed (hstale : s.isStaleSocket p = true) : Listens s p (s.setFile p none)
  -- the new socket's file is there, without or with its listener
  | bound (hfree : s.files p = none ∨ s.isStaleSocket p = true) :
      Listens s p { s.setFile p (some (.socket s.next)) with next := s.next + 1 }
  | listening (hfree : s.files p = none ∨ s.isStaleSocket p = true) : Listens s p
        ({ s.setFile p (some (.socket s.next)) with next := s.next + 1 }.setListener s.next (some ⟨p, false⟩))

lemma bind_eq_ok (hbind : s.bind p fails = .ok (n, s')) :
    s.files p = none ∧ n = s.next ∧ s' = { s.setFile p (some (.socket s.next)) with next := s.next + 1 } := by
  unfold State.bind at hbind
  split at hbind
  · cases hbind
  · split at hbind
    · cases hbind
    · next hnone =>
      cases hbind
      exact ⟨hnone, rfl, rfl⟩

lemma listens_listening (hfree : s.files p = none ∨ s.isStaleSocket p) (fails : Bool) :
    Listens s p
      (({ s.setFile p (some (.socket s.next)) with next := s.next + 1 } : State P).listening p s.next fails).1 := by
  unfold State.listening
  split
  · exact .bound hfree
  · exact .listening hfree

lemma setFile_setFile (g h : Option File) : (s.setFile p g).setFile p h = s.setFile p h := by
  simp [State.setFile]

lemma listens_rocUnixListen : Listens s p (s.rocUnixListen p f).1 := by
  unfold State.rocUnixListen
  split
  · exact .same
  · unfold State.unixListen
    split
    · next n s' hbind =>
      obtain ⟨hnone, rfl, rfl⟩ := bind_eq_ok hbind
      exact listens_listening (.inl hnone) f.nonblocking
    · split
      · next hstale =>
        split
        · exact .same
        · split
          · next n s' hbind =>
            obtain ⟨-, rfl, rfl⟩ := bind_eq_ok hbind
            rw [setFile_setFile]
            exact listens_listening (.inr hstale) f.nonblocking
          · exact .removed hstale
      · exact .same
    · exact .same

/-! ## The invariant -/

/-- Every open listener's socket is the file at its path. -/
def Located (s : State P) : Prop :=
  ∀ n p, s.listeners n = some ⟨p, false⟩ → s.files p = some (.socket n)

omit [DecidableEq P] in
lemma Located.connect (h : Located s) (hopen : s.listeners n = some ⟨p, false⟩) : s.connect p = .reached n := by
  simp [State.connect, h n p hopen, State.isOpen, hopen]

omit [DecidableEq P] in
lemma Located.not_free (h : Located s) (hopen : s.listeners n = some ⟨p, false⟩) :
    ¬ (s.files p = none ∨ s.isStaleSocket p) := by
  rintro (hnone | hstale)
  · rw [h n p hopen] at hnone
    cases hnone
  · simp [State.isStaleSocket, h n p hopen, h.connect hopen] at hstale

/-- What is written at a path where nobody listens leaves the others located. -/
theorem Located.setFile (h : Located s) (hfree : s.files p = none ∨ s.isStaleSocket p)
    (g : Option File) (hopen : s.listeners n = some ⟨q, false⟩) : (s.setFile p g).files q = some (.socket n) := by
  have hne : q ≠ p := by
    rintro rfl
    exact h.not_free hopen hfree
  rw [setFile_files, update_of_ne hne]
  exact h n q hopen

lemma Located.listens (h : Located s) (hlisten : Listens s p s') : Located s' := by
  cases hlisten with
  | same => exact h
  | removed hstale =>
    intro n q hopen
    exact h.setFile (.inr hstale) none hopen
  | bound hfree =>
    intro n q hopen
    exact h.setFile hfree _ hopen
  | listening hfree =>
    intro n q hopen
    obtain rfl | hn := eq_or_ne n s.next
    · obtain rfl : p = q := by simpa using hopen
      simp
    · have hbefore : s.listeners n = some ⟨q, false⟩ := by simpa [hn] using hopen
      exact h.setFile hfree _ hbefore

omit [DecidableEq P] in
lemma Located.close (h : Located s) (hclose : s.rocListenerClose n fails = some s') : Located s' := by
  obtain ⟨l, hl, rfl⟩ := map_eq_some_iff.mp hclose
  split
  · exact h
  · split
    · exact h
    · intro m q hopen
      by_cases hm : m = n
      · simp [hm] at hopen
      · exact h m q (by simpa [hm] using hopen)

/-! ## Releases -/

/-- If a handle is released, no other open listener has its path, that is, one that resolves to the same file. -/
def OwnFile (s : State P) : Label P → Prop
  | .release n _ => ∀ l ∈ s.listeners n, ∀ m, m ≠ n → s.listeners m ≠ some ⟨l.path, false⟩
  | _ => True

omit [DecidableEq P] in
lemma listeners_release (hr : r = none) :
    (s.setListener n r).listeners m = some ⟨p, false⟩ ↔ m ≠ n ∧ s.listeners m = some ⟨p, false⟩ := by
  subst hr
  by_cases hm : m = n
  · simp [hm]
  · simp [hm]

lemma Located.release (h : Located s) (hown : OwnFile s (.release n fails)) (hrelease : s.release n fails = some s') :
    Located s' := by
  obtain ⟨l, hl, rfl⟩ := map_eq_some_iff.mp hrelease
  split
  · intro m q hopen
    exact h m q ((listeners_release rfl).mp hopen).2
  · intro m q hopen
    obtain ⟨hm, hbefore⟩ := (listeners_release rfl).mp hopen
    have hne : q ≠ l.path := by
      rintro rfl
      exact hown l hl m hm hbefore
    rw [setListener_files, setFile_files, update_of_ne hne]
    exact h m q hbefore

/-- A release that removes the file at its path is the end of another listener that is open there. -/
theorem located_release_iff (h : Located s) (hrelease : s.release n false = some s') :
    Located s' ↔ OwnFile s (.release n false) := by
  constructor
  · intro hafter l hl m hm hopen
    obtain ⟨l', hl', rfl⟩ := map_eq_some_iff.mp hrelease
    obtain rfl : l = l' := some_injective _ (hl.symm.trans hl')
    have hfile := hafter m l.path ((listeners_release rfl).mpr ⟨hm, hopen⟩)
    simp at hfile
  · intro hown
    exact h.release hown hrelease

/-! ## Every run -/

lemma located_of_reachableBy (hreach : ReachableBy (system P) OwnFile s) : Located s := by
  refine hreach.invariant ?_ ?_
  · rintro a ⟨hnone, -⟩ n p hopen
    rw [hnone n] at hopen
    cases hopen
  · intro a l b hown hlocated hstep
    cases l with
    | listen p f =>
      cases hstep
      exact hlocated.listens listens_rocUnixListen
    | close n fails => exact hlocated.close hstep
    | release n fails => exact hlocated.release hown hstep

/-- **Reachable at its path.** In every run in which no handle is released while another open listener has
its path, the file at the path of every open listener is its socket, and a connect reaches it. The
condition is exact: from such a state, a release that removes the file at its path keeps this if and only
if the condition is met. -/
theorem open_listener_reached (hreach : ReachableBy (system P) OwnFile s) :
    (∀ n p, s.listeners n = some ⟨p, false⟩ → s.files p = some (.socket n) ∧ s.connect p = .reached n) ∧
    ∀ n s', step s (.release n false) = some s' → (Located s' ↔ OwnFile s (.release n false)) := by
  have hlocated := located_of_reachableBy hreach
  constructor
  · intro n p hopen
    exact ⟨hlocated n p hopen, hlocated.connect hopen⟩
  · intro n s' hrelease
    exact located_release_iff hlocated hrelease

/-- No files and no listeners, with numbers for paths. -/
def noFiles : State ℕ := ⟨fun _ => none, fun _ => none, 0⟩

lemma system_init_noFiles : (system ℕ).init noFiles := ⟨fun _ => rfl, nofun⟩

/-- A listener is closed and released, and another one takes its path. -/
theorem open_listener_reached_again :
    ∃ s, ReachableBy (system ℕ) OwnFile s ∧ s.listeners 1 = some ⟨7, false⟩ ∧ s.connect 7 = .reached 1 := by
  have hlisten : ReachableBy (system ℕ) OwnFile _ :=
    .next (l := .listen 7 .none) (.start system_init_noFiles) trivial rfl
  have hclose : ReachableBy (system ℕ) OwnFile _ := .next (l := .close 0 false) hlisten trivial rfl
  have hrelease : ReachableBy (system ℕ) OwnFile _ := .next (l := .release 0 false) hclose
    (fun l _ m hm hopen => by
      simp [noFiles, hm, State.rocUnixListen, State.unixListen, State.bind, State.listening, Faults.none] at hopen)
    rfl
  have hagain : ReachableBy (system ℕ) OwnFile _ := .next (l := .listen 7 .none) hrelease trivial rfl
  exact ⟨_, hagain, rfl, ((open_listener_reached hagain).1 1 7 rfl).2⟩

/-- A closed listener's handle is released after another listener took its path, and removes its file. -/
theorem open_listener_unlinked : ∃ s, Reachable (system ℕ) s ∧ s.listeners 1 = some ⟨7, false⟩ ∧ s.files 7 = none ∧
      s.connect 7 = .notFound := by
  obtain ⟨s, hreach, hs⟩ := exists_reachable_of_run (system ℕ) system_init_noFiles
    [.listen 7 .none, .close 0 false, .listen 7 .none, .release 0 false]
    (fun s => decide (s.listeners 1 = some ⟨7, false⟩ ∧ s.files 7 = none ∧ s.connect 7 = .notFound)) (by decide)
  exact ⟨s, hreach, of_decide_eq_true hs⟩

end RocNet.UnixFiles
