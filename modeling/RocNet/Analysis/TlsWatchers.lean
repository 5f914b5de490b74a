import RocNet.Analysis.TlsBuffered

/-!
# What a `Select` on a TLS stream relies on

As on a Noise stream, a `Select` that `watch` told to wait relies on `Quiet` or on `Streams.Covers`. Here it may also
rely on a reader that found nothing and is about to take the read lock again (`Refilled`).

Three steps break this, and `Sound` rules them out: `watch` may pass `inner` by when its holder wakes nobody; a poll
that finds the socket full marks its hold idle whatever there is to read; and so does a poll whose read of the socket
is interrupted.
-/

namespace RocNet.Tls

open Sockets (Open Later Joined)
open Streams (LockName Kept Covers Change DropStep covers_of_busy covers_of_first_le seen_of_observe)
open Function List State

variable {S : ℕ} {s s' : State} {t u id w : ℕ} {o o' : Op} {x : Section} {c : Check} {l : Label}

/-! ## What a `Select` relies on -/

/-- A reader that found nothing in the stream is about to take the read lock, to go to the socket. -/
def Op.refills : Op → Bool
  | .leaving (.fill _) | .load (.fill _) | .sample (.fill _) | .sample (.fillNow _)
  | .wants (.fill _) _ | .wants (.fillNow _) _ => true
  | _ => false

def Refilled (s : State) : Prop := ∃ u, (s.ops u).refills = true

/-- Nothing is in the stream, and the socket was seen empty since task `t` was resumed. -/
def Quiet (S : ℕ) (s : State) (t : ℕ) : Prop :=
  s.buffered = false ∧ (S, false) ∈ s.stream.sock.tried t

/-- The `Select` of task `t` may sleep. -/
def Answered (S : ℕ) (s : State) (t id w : ℕ) : Prop :=
  Quiet S s t ∨ Covers s.stream t id w ∨ Refilled s

/-- What the `Select` of task `t` relies on, by where it stands. -/
def Relies (S : ℕ) (s : State) (t id w : ℕ) : Check → Prop
  | .waiting _ => Answered S s t id w
  | .joined => Answered S s t id w ∧ Joined S s.stream.sock t w
  | _ => True

structure Safe (S : ℕ) (s : State) : Prop where
  -- during the rest of an idle hold, those registered before it are quiet, or its task goes on to
  -- the socket
  idle : ∀ u, ∀ h ∈ s.stream.held u, h.lock = .read → h.guard = true → h.idle = true →
    (∃ g, s.ops u = .leaving (.fill g)) ∨ ∀ t id w, s.stream.registered t = some (id, w) → Open s.stream.sock t w → id <
    h.first → Quiet S s t
  relies : ∀ t c id w, s.ops t = .watching c → s.stream.registered t = some (id, w) →
    Open s.stream.sock t w → Relies S s t id w c

/-- A step that a `Select` can rely on: what `watch` passes by has a guard whose release will wake the
watcher, a poll with records to send finds the socket writable or nothing to read, and a read of the
socket is not interrupted. -/
def Sound (S : ℕ) (s : State) : Label → Prop
  | .check t =>
    match s.ops t, s.inner with
    | .watching (.unlocked _), some u => s.stream.held u ≠ []
    | _, _ => True
  | .run t i =>
    match s.ops t with
    | .inside (.flush _) => s.stream.sock.ready S true = true ∨ s.buffered = false ∧ s.stream.sock.ready S false = false
    | .reading _ => i.interrupted = false
    | _ => True
  | _ => True

instance (s : State) (l : Label) : Decidable (Sound S s l) := by
  unfold Sound
  split
  · split <;> infer_instance
  · split <;> infer_instance
  · infer_instance

/-- A task that has a guard, not idle, answers for everybody. -/
theorem Orderly.covers (ho : Orderly s) (hlocks : (s.ops u).locks = some (L :: locks)) : Covers s.stream t id w := by
  have hguarded := ho.placed.guarded u _ hlocks
  cases hheld : s.stream.held u with
  | nil =>
    have hnil := hguarded.held
    rw [hheld] at hnil
    cases hnil
  | cons g rest =>
    have hmem : g ∈ s.stream.held u := by
      rw [hheld]
      exact mem_cons_self
    exact covers_of_busy hmem (hguarded.busy g hmem).2

section

variable (h : Safe S s) (hk : Kept s.stream) (hlocked : s.stream.locked .read = some u)
  (hreg : s.stream.registered t = some (id, w)) (hopen : Open s.stream.sock t w)

include h hk hlocked hreg hopen

/-- While the read lock is held, a `Select` is quiet, or its holder will wake it or goes on to the
socket. -/
theorem Safe.of_locked : Quiet S s t ∨ Covers s.stream t id w ∨ ∃ g, s.ops u = .leaving (.fill g) := by
  obtain ⟨g, hmem, hread, hguard⟩ := hk.holder .read u hlocked
  cases hidle : g.idle with
  | false => exact .inr (.inl (covers_of_busy hmem hidle))
  | true =>
    rcases h.idle u g hmem hread hguard hidle with ⟨goal, hop⟩ | hquiet
    · exact .inr (.inr ⟨goal, hop⟩)
    · by_cases hid : id < g.first
      · exact .inl (hquiet t id w hreg hopen hid)
      · exact .inr (.inl (covers_of_first_le hmem (not_lt.mp hid)))

lemma Safe.answered_of_locked : Answered S s t id w := by
  rcases h.of_locked hk hlocked hreg hopen with hq | hc | ⟨g, hop⟩
  · exact .inl hq
  · exact .inr (.inl hc)
  · exact .inr (.inr ⟨u, by rw [hop]; rfl⟩)

end

/-! ## Steps -/

/-- **The rule for steps** after which nothing has appeared in the stream, no hold turned idle and
nobody registered. -/
theorem Safe.mono (h : Safe S s) (hk : Kept s.stream) (hl : Later s.stream.sock s'.stream.sock)
    (hcalm : s.buffered = false → s'.buffered = false)
    (hheld : ∀ u, ∀ h ∈ s'.stream.held u, h.guard → h.idle → h ∈ s.stream.held u)
    (hfill : ∀ u g, s.ops u = .leaving (.fill g) → s'.stream.held u ≠ [] → s'.ops u = .leaving (.fill g))
    (hreg : ∀ u id w, s'.stream.registered u = some (id, w) → s.stream.registered u = some (id, w))
    (hcovers : ∀ u id w, s.stream.registered u = some (id, w) → Open s'.stream.sock u w →
      Covers s.stream u id w → Covers s'.stream u id w)
    (hrefilled : ∀ u id w, s.stream.registered u = some (id, w) → Open s.stream.sock u w →
      Refilled s → s.buffered = false ∧ (S, false) ∈ s.stream.sock.tried u ∨
        Covers s'.stream u id w ∨ Refilled s') (hjoined : ∀ u w, Open s'.stream.sock u w → Joined S s.stream.sock u w →
      Joined S s'.stream.sock u w) (hops : ∀ u c id w, s'.ops u = .watching c → s'.stream.registered u = some (id, w) →
      Open s'.stream.sock u w → s.ops u = .watching c ∨ Relies S s' u id w c) : Safe S s' := by
  refine ⟨fun u g hmem hread hguard hidle => ?_, fun u c id w hop hr ho => ?_⟩
  · rcases h.idle u g (hheld u g hmem hguard hidle) hread hguard hidle with ⟨goal, hop⟩ | hquiet
    · exact .inl ⟨goal, hfill u goal hop (ne_nil_of_mem hmem)⟩
    · refine .inr fun t id w hr ho hid => ?_
      have hr' := hreg t id w hr
      obtain ⟨ho', htried⟩ := hk.open_back hl hr' ho
      have hq := hquiet t id w hr' ho' hid
      exact ⟨hcalm hq.1, htried hq.2⟩
  · rcases hops u c id w hop hr ho with hold | hnew
    · have hr' := hreg u id w hr
      obtain ⟨ho', htried⟩ := hk.open_back hl hr' ho
      have hrelies := h.relies u c id w hold hr' ho'
      have hanswered : Answered S s u id w → Answered S s' u id w := by
        rintro (hq | hc | hf)
        · exact .inl ⟨hcalm hq.1, htried hq.2⟩
        · exact .inr (.inl (hcovers u id w hr' ho hc))
        · rcases hrefilled u id w hr' ho' hf with hq | hc
          · exact .inl ⟨hcalm hq.1, htried hq.2⟩
          · exact .inr hc
      cases c with
      | waiting b => exact hanswered hrelies
      | joined => exact ⟨hanswered hrelies.1, hjoined u w ho hrelies.2⟩
      | _ => trivial
    · exact hnew

lemma Refilled.updated (h : Refilled s) (hops : s'.ops = update s.ops t o)
    (hnot : (s.ops t).refills → o.refills) : Refilled s' := by
  obtain ⟨u, hu⟩ := h
  refine ⟨u, ?_⟩
  rw [hops]
  obtain rfl | hut := eq_or_ne u t
  · rw [update_self]
    exact hnot hu
  · rwa [update_of_ne hut]

lemma Answered.setOp (h : Answered S s t id w) (hop : s.ops u = .watching c) : Answered S (s.setOp u o) t id w := by
  refine h.imp_right (Or.imp_right fun hf => hf.updated rfl fun hrefills => ?_)
  rw [hop] at hrefills
  cases hrefills

section

variable (h : Safe S s) (ho : Orderly s)

include h ho

lemma Safe.quiet (hstream : Change S s.stream t s'.stream)
    (hheld : s'.stream.held = s.stream.held) (hwaking : s'.stream.waking = s.stream.waking)
    (hreg : s'.stream.registered = s.stream.registered) (hops : s'.ops = update s.ops t o)
    (hnot : (s.ops t).refills = false) (hcalm : s.buffered = false → s'.buffered = false)
    (hself : ∀ c id w, o = .watching c → s.stream.registered t = some (id, w) →
      Open s'.stream.sock t w → Relies S s' t id w c) : Safe S s' := by
  refine h.mono ho.kept (hstream.later ho.sock) hcalm (fun u g hmem _ _ => hheld ▸ hmem)
    (fun u g hop _ => ?_) (fun u id w hr => hreg ▸ hr) (fun u id w _ _ hc => ?_)
    (fun u id w _ _ hf => .inr (.inr (hf.updated hops fun hrefills => ?_)))
    (fun u w hopen hj => hstream.joined ho.sock hopen hj) (fun u c id w hop hr hopen => ?_)
  · have hu : u ≠ t := by
      rintro rfl
      rw [hop] at hnot
      cases hnot
    rw [hops, update_of_ne hu, hop]
  · simpa only [Covers, hheld, hwaking] using hc
  · cases hnot.symm.trans hrefills
  · rw [hops] at hop
    obtain rfl | hu := eq_or_ne u t
    · rw [update_self] at hop
      exact .inr (hself c id w hop (hreg ▸ hr) hopen)
    · rw [update_of_ne hu] at hop
      exact .inl hop

lemma Safe.setSock (hstep : Sockets.step s.stream.sock m = some y) : Safe S (s.setSock y) := by
  have hready := Sockets.readiness_of_reachable ho.sock
  exact h.mono ho.kept (Streams.later_of_step ho.sock hstep) id (fun _ _ hmem _ _ => hmem) (fun _ _ hop _ => hop)
    (fun _ _ _ hr => hr) (fun _ _ _ _ _ hc => hc) (fun _ _ _ _ _ hf => .inr (.inr hf))
    (fun _ _ hopen hj => hj.step hready.watched hready.owned (Sockets.step_cases hstep) hopen) fun _ _ _ _ hop _ _ =>
    .inl hop

/-- Everybody is answered for, and those registered before an idle hold are quiet. -/
theorem Safe.of_answered (hstream : Change S s.stream t s'.stream) (hreg : s'.stream.registered = s.stream.registered)
    (hops : s'.ops = update s.ops t o) (hself : ∀ c, o ≠ .watching c)
    (hidle : ∀ u, ∀ h ∈ s'.stream.held u, h.lock = .read → h.guard → h.idle →
      (∃ g, s'.ops u = .leaving (.fill g)) ∨ ∀ t id w, s'.stream.registered t = some (id, w) →
        Open s'.stream.sock t w → id < h.first → Quiet S s' t) (hanswered : ∀ u id w, Answered S s' u id w) :
    Safe S s' := by
  refine ⟨hidle, fun u c id w hop hr hopen => ?_⟩
  have hu : u ≠ t := by
    rintro rfl
    rw [hops, update_self] at hop
    exact hself c hop
  rw [hops, update_of_ne hu] at hop
  rw [hreg] at hr
  have hl := hstream.later ho.sock
  have hold := h.relies u c id w hop hr (hl.opened u w (ho.kept.issued u id w hr).2 hopen)
  cases c with
  | waiting b => exact hanswered u id w
  | joined => exact ⟨hanswered u id w, hstream.joined ho.sock hopen hold.2⟩
  | _ => trivial

/-- After somebody saw the socket empty, with nothing in the stream, everybody is quiet. -/
theorem Safe.observed (hcalm : s.buffered = false) (hstep : Sockets.step s.stream.sock (.observe S false) = some y)
    (hsock : s'.stream = (s.stream.setSock y).markIdle t) (hsame : s'.buffered = s.buffered)
    (hops : s'.ops = update s.ops t o) (hself : ∀ c, o ≠ .watching c) : Safe S s' := by
  have hquiet : ∀ u, Quiet S s' u := fun u => by
    refine ⟨hsame.trans hcalm, ?_⟩
    rw [hsock]
    exact seen_of_observe hstep u
  have hstream : Change S s.stream t s'.stream := hsock ▸ .sockIdle (.observe _) hstep
  exact h.of_answered ho hstream (by rw [hsock]; rfl) hops hself
    (fun _ _ _ _ _ _ => .inr fun u _ _ _ _ _ => hquiet u) fun u _ _ => .inl (hquiet u)

end

lemma goesOn_of_shakes (h : x.shakes) : x.goesOn := by
  cases x <;> first | rfl | cases h

lemma Safe.sectionStep (h : Safe S s) (ho : Orderly s) (hset : Settled s) (hop : s.ops t = .inside x)
    (hstep : SectionStep S s t x s') (hsound : ∀ g, x = .flush g → s.stream.sock.ready S true ∨
      s.buffered = false ∧ s.stream.sock.ready S false = false) : Safe S s' := by
  have hplace : x.after := by
    have hplace := hset.places t
    rwa [hop] at hplace
  have hnot : x.goesOn → Safe S s' := fun hgo => by
    cases (after_of_goesOn hgo).symm.trans hplace
  have hrefills : (s.ops t).refills = false := by rw [hop]; rfl
  have hstream := hstep.stream
  have hcalm := buffered_sectionStep hset hop hstep
  cases hstep with
  | exit hexits =>
    refine h.quiet ho hstream rfl rfl rfl rfl hrefills id fun c id w hc => ?_
    cases hexits <;> cases hc
  | emit hgo _ _ _ | absorb hgo _ _ _ | finish _ hgo | ended hgo _ => exact hnot hgo
  | wait hx _ => exact hnot (goesOn_of_shakes hx)
  | blocked _ | blockedIdle _ | alerted _ => exact hnot rfl
  | returned g rest _ | feed _ | fed _ _ | eof _ | flushed _ | queued w _ | taken w _ =>
    exact h.quiet ho hstream rfl rfl rfl rfl hrefills (hcalm rfl) nofun
  | idle g =>
    refine h.of_answered ho hstream rfl rfl nofun (fun u a hmem hread hguard hidle => ?_)
      fun _ _ _ => .inr (.inr ⟨t, by simp [Op.refills]⟩)
    rcases Streams.mem_update_held hmem with ⟨rfl, -⟩ | ⟨hu, hmem'⟩
    · exact .inl ⟨g, by simp⟩
    · refine (h.idle u a hmem' hread hguard hidle).imp (fun ⟨goal, hopu⟩ => ⟨goal, ?_⟩) id
      simpa [hu] using hopu
  | store g bytes =>
    have hlocks : (s.ops t).locks = some [.read] := by rw [hop]; rfl
    refine h.of_answered ho hstream rfl rfl nofun (fun u a hmem hread hguard hidle => ?_)
      fun u id w => .inr (.inl (ho.covers hlocks))
    -- an idle guard of the read lock would be this task's, which is not idle
    have hmine := ho.locked hlocks mem_cons_self
    have hlock := ho.kept.guarded u a hmem hguard
    rw [hread, hmine] at hlock
    cases hlock
    cases ((ho.placed.guarded t _ hlocks).busy a hmem).2.symm.trans hidle
  | full hfull hready =>
    rcases hsound _ rfl with hwritable | ⟨-, hempty⟩
    · cases hfull.symm.trans hwritable
    · cases hempty.symm.trans hready
  | fullEmpty hfull hstep =>
    rcases hsound _ rfl with hwritable | ⟨hbuffered, -⟩
    · cases hfull.symm.trans hwritable
    · exact h.observed ho hbuffered hstep rfl rfl rfl nofun

lemma Moves.refills (h : Moves S s o o') (hdone : s.handshaken) (ho : o.refills) :
    o'.refills ∨ (∃ g first, o = .wants (.fillNow g) first) ∧ ∃ u, s.stream.locked .read = some u := by
  cases h with
  | load f =>
    cases f with
    | fill g =>
      rw [hdone]
      cases g <;> exact .inl rfl
    | _ => cases ho
  | sample w =>
    cases w with
    | fill g | fillNow g => exact .inl rfl
    | _ => cases ho
  | @refused w first u hblocks hheld =>
    cases w with
    | fill g => cases hblocks
    | fillNow g => exact .inr ⟨⟨g, first, rfl⟩, u, hheld⟩
    | _ => cases ho
  | _ => cases ho

section

variable (h : Safe S s) (ho : Orderly s)

include h ho

lemma Safe.move (hset : Settled s) (hop : s.ops t = o) (hmoves : Moves S s o o') : Safe S (s.setOp t o') := by
  subst hop
  refine h.mono ho.kept (.refl _) id (fun _ _ hmem _ _ => hmem) (fun u g hop _ => ?_) (fun _ _ _ hr => hr)
    (fun _ _ _ _ _ hc => hc) (fun u id w hr hopen hf => ?_) (fun _ _ _ hj => hj) fun u c id w hop hr hopen => ?_
  · have hu : u ≠ t := by
      rintro rfl
      rw [hop] at hmoves
      cases hmoves
    simpa [hu] using hop
  · cases hrefills : (s.ops t).refills with
    | false =>
      refine .inr (.inr (hf.updated rfl fun hyes => ?_))
      cases hrefills.symm.trans hyes
    | true =>
      rcases hmoves.refills hset.done hrefills with hyes | ⟨⟨g, first, hwants⟩, v, hlocked⟩
      · exact .inr (.inr (hf.updated rfl fun _ => hyes))
      · -- refused: whoever holds the lock answers
        rcases h.of_locked ho.kept hlocked hr hopen with hq | hc | ⟨g', hopv⟩
        · exact .inl hq
        · exact .inr (.inl hc)
        · have hv : v ≠ t := by
            rintro rfl
            cases hwants.symm.trans hopv
          exact .inr (.inr ⟨v, by simp [hv, hopv, Op.refills]⟩)
  · obtain rfl | hu := eq_or_ne u t
    · refine .inr ?_
      have ho' : o' = .watching c := by simpa using hop
      subst ho'
      obtain ⟨c', hc'⟩ := hmoves.of_watching
      rw [hc'] at hmoves
      cases hmoves with
      | busy hheld =>
        rw [hset.done] at hheld
        exact (h.answered_of_locked ho.kept hheld hr hopen).setOp hc'
      | _ => trivial
    · exact .inl (by simpa [hu] using hop)

lemma Safe.dropStep (hd : DropStep s.stream t y) : Safe S (s.setStream y) := by
  have hready := Sockets.readiness_of_reachable ho.sock
  have hstream : Change S s.stream t y := .drop hd
  have hl := hstream.later ho.sock
  exact h.mono ho.kept hl id (fun _ _ hmem hguard _ => hd.held_back hmem hguard) (fun _ _ hop _ => hop)
    (fun _ _ _ hreg => hd.registered ▸ hreg) (fun _ _ _ hreg hopen hc => hc.dropStep ho.kept hl hready.owned hreg hopen
    hd) (fun _ _ _ _ _ hf => .inr (.inr hf)) (fun _ _ hopen hj => hstream.joined ho.sock hopen hj) fun _ _ _ _ hop _ _
    => .inl hop

lemma Safe.dropped {next : After} (hop : s.ops t = .leaving next)
    (hnil : s.stream.held t = []) : Safe S (s.setOp t next.op) := by
  refine h.mono ho.kept (.refl _) id (fun _ _ hmem _ _ => hmem) (fun u g hopu hne => ?_) (fun _ _ _ hr => hr)
    (fun _ _ _ _ _ hc => hc) (fun _ _ _ _ _ hf => .inr (.inr (hf.updated rfl fun hrefills => ?_))) (fun _ _ _ hj => hj)
    fun u c id w hopu hr hopen => ?_
  · have hu : u ≠ t := by
      rintro rfl
      exact hne hnil
    simpa [hu] using hopu
  · rw [hop] at hrefills
    cases next with
    | fill g => rfl
    | _ => cases hrefills
  · obtain rfl | hu := eq_or_ne u t
    · have hplain := plain_op next
      rw [show next.op = .watching c by simpa using hopu] at hplain
      cases hplain
    · exact .inl (by simpa [hu] using hopu)

lemma Safe.lock (hop : s.ops t = .wants v first) (hfree : s.stream.locked v.lock = none) :
    Safe S ((s.setStream (s.stream.lock v.lock t first)).setOp t v.taken) := by
  have hself : ∀ c, v.taken ≠ .watching c := by
    intro c hc
    have hplain := plain_taken v
    rw [hc] at hplain
    cases hplain
  refine h.of_answered ho (.lock hfree (ho.placed.sampled t v first hop)) rfl rfl hself
    (fun u g hmem hread hguard hidle => ?_) fun u id w => .inr (.inl ?_)
  · have hold : g ∈ s.stream.held u := by
      rcases Streams.mem_update_held hmem with ⟨rfl, hmem'⟩ | ⟨-, hmem'⟩
      · rcases mem_cons.mp hmem' with rfl | hmem'
        · cases hidle
        · exact hmem'
      · exact hmem'
    refine (h.idle u g hold hread hguard hidle).imp (fun ⟨goal, hopu⟩ => ⟨goal, ?_⟩) id
    have hu : u ≠ t := by
      rintro rfl
      cases hop.symm.trans hopu
    simpa [hu] using hopu
  · exact covers_of_busy (u := t) (h := ⟨v.lock, true, first, false⟩) (by simp) rfl

lemma Safe.unwatch (hop : s.ops t = .watching c) (hsame : s'.stream = s.stream.unwatch t id)
    (hbuffered : s'.buffered = s.buffered) (hops : s'.ops = update s.ops t .none) : Safe S s' := by
  refine h.mono ho.kept (by rw [hsame]; exact .refl _) (fun hc => hbuffered.trans hc)
    (fun u g hmem _ _ => by rwa [hsame] at hmem) (fun u g hopu _ => ?_) (fun u id' w hreg => ?_)
    (fun u id' w _ _ hc => by rw [hsame]; exact hc)
    (fun _ _ _ _ _ hf => .inr (.inr (hf.updated hops fun hrefills => ?_)))
    (fun u w _ hj => by rw [hsame]; exact hj) fun u c' id' w hopu _ _ => .inl ?_
  · have hu : u ≠ t := by
      rintro rfl
      cases hop.symm.trans hopu
    rw [hops, update_of_ne hu, hopu]
  · rw [hsame] at hreg
    by_cases hu : u = t
    · simp [hu] at hreg
    · simpa [hu] using hreg
  · rw [hop] at hrefills
    cases hrefills
  · rw [hops] at hopu
    have hu : u ≠ t := by
      rintro rfl
      rw [update_self] at hopu
      cases hopu
    rwa [update_of_ne hu] at hopu

/-- A watcher registers, after the ids of all holds were read. -/
theorem Safe.register (hop : s.ops t = .none) :
    Safe S ((s.setStream (s.stream.register t w)).setOp t (.watching .added)) := by
  have hrefilled : Refilled s → Refilled ((s.setStream (s.stream.register t w)).setOp t (.watching .added)) := by
    refine fun hf => hf.updated rfl fun hrefills => ?_
    rw [hop] at hrefills
    cases hrefills
  refine ⟨fun u g hmem hread hguard hidle => ?_, fun u c id w' hop' hreg hopen => ?_⟩
  · rcases h.idle u g hmem hread hguard hidle with ⟨goal, hopu⟩ | hquiet
    · have hu : u ≠ t := by
        rintro rfl
        cases hop.symm.trans hopu
      exact .inl ⟨goal, by simpa [hu] using hopu⟩
    · refine .inr fun v id w' hreg hopen hid => ?_
      obtain rfl | hv := eq_or_ne v t
      · simp only [setOp_stream, setStream_stream, Streams.State.register_registered,
          update_self, Option.some.injEq, Prod.mk.injEq] at hreg
        exact absurd (hreg.1 ▸ hid) (not_lt.mpr (ho.kept.sampled u g hmem))
      · exact hquiet v id w' (by simpa [hv] using hreg) hopen hid
  · obtain rfl | hu := eq_or_ne u t
    · simp only [setOp_ops, update_self] at hop'
      cases hop'
      trivial
    · have hrelies := h.relies u c id w' (by simpa [hu] using hop') (by simpa [hu] using hreg) hopen
      cases c with
      | waiting b => exact Or.imp_right (Or.imp_right hrefilled) hrelies
      | joined => exact ⟨Or.imp_right (Or.imp_right hrefilled) hrelies.1, hrelies.2⟩
      | _ => trivial

end

/-- The holder of `inner` that has a guard answers for whoever passes `inner` by. -/
theorem Orderly.covers_of_inner (ho : Orderly s) (hinner : s.inner = some u)
    (hheld : s.stream.held u ≠ []) : Covers s.stream t id w := by
  obtain ⟨g, hg⟩ := exists_mem_of_ne_nil _ hheld
  have hin := (ho.placed.inner u).mpr hinner
  have hlocks : ∃ locks, (s.ops u).locks = some locks := by
    cases hop : s.ops u with
    | leaving next =>
      rw [hop] at hin
      cases hin
    | _ => exact ⟨_, rfl⟩
  obtain ⟨locks, hlocks⟩ := hlocks
  exact covers_of_busy hg ((ho.placed.guarded u locks hlocks).busy g hg).2

lemma Safe.taskStep (h : Safe S s) (ho : Orderly s) (hset : Settled s) (hcalm : Calm s)
    (hsound : Sound S s l) (hstep : TaskStep S s t l s') : Safe S s' := by
  have hstream := hstep.stream (ho.placed.sampled t)
  cases hstep with
  | move hop hmoves => exact h.move ho hset hop hmoves
  | lock hop hfree => exact h.lock ho hop hfree
  | lockInner hop hinner | readSome hop hstep | readBlocked hop hstep | writeSome hop hstep
  | writeBlocked hop hstep | writeFails hop => exact h.quiet ho hstream rfl rfl rfl rfl (by rw [hop]; rfl) id nofun
  | @inside x i s' hop hstep =>
    refine h.sectionStep ho hset hop hstep fun g hx => ?_
    subst hx
    simpa only [Sound, hop] using hsound
  | readIdle hop hstep =>
    exact h.observed ho (hcalm t (by rw [hop]; rfl)) hstep rfl rfl rfl nofun
  | interrupted hop hi =>
    simp only [Sound, hop, hi] at hsound
    cases hsound
  | drop hop hdrop => exact h.dropStep ho hdrop
  | dropped hop hdone => exact h.dropped ho hop hdone.2
  | watch hop hcode => exact h.register ho hop
  | tryInner hop hinner =>
    refine h.quiet ho hstream rfl rfl rfl rfl (by rw [hop]; rfl) id fun c id w hc _ _ => ?_
    cases hc
    trivial
  | @passed hs u hop hinner =>
    refine h.quiet ho hstream rfl rfl rfl rfl (by rw [hop]; rfl) id fun c id w hc _ _ => ?_
    cases hc
    have hheld : s.stream.held u ≠ [] := by simpa only [Sound, hop, hinner] using hsound
    exact .inr (.inl (ho.covers_of_inner hinner hheld))
  | @notReady hs y hop hstep =>
    refine h.quiet ho hstream rfl rfl rfl rfl (by rw [hop]; rfl) id fun c id w hc _ _ => ?_
    cases hc
    exact .inl ⟨hcalm t (by rw [hop]; rfl), seen_of_observe hstep t⟩
  | found hop hreg | unwatch hop hreg => exact h.unwatch ho hop rfl rfl rfl
  | @foundBusy hs u hop hheld =>
    refine h.quiet ho hstream rfl rfl rfl rfl (by rw [hop]; rfl) id fun c id w hc hreg hopen => ?_
    cases hc
    have hs' : hs := by
      have hplace := hset.places t
      rwa [hop] at hplace
    subst hs'
    exact (h.answered_of_locked ho.kept hheld hreg hopen).setOp hop
  | @addIo b y hop hstep =>
    refine h.quiet ho hstream rfl rfl rfl rfl (by rw [hop]; rfl) id fun c id w hc hreg hopen => ?_
    cases hc
    have hlt := (ho.kept.issued t id w hreg).2
    have hl := hstream.later ho.sock
    have hold : Answered S s t id w := h.relies t (.waiting b) id w hop hreg (hl.opened t w hlt hopen)
    refine ⟨?_, .inl ?_⟩
    · rcases hold.setOp (o := .watching .joined) hop with hq | hrest
      · exact .inl ⟨hq.1, hl.tried t w hlt hopen hq.2⟩
      · exact .inr hrest
    · cases Sockets.step_cases hstep with
      | task hon htask =>
        cases htask with
        | @addIo w' _ _ io hcode =>
          have hw : w' = w := by simpa [Sockets.Code.wait] using hopen.wait
          exact ⟨_, update_self _ _ _, rfl, by rw [← hw]; rfl⟩

end RocNet.Tls
