/-
How a call stands towards the other calls.

Whatever a call does, the other calls notice three things of it: where it is at the locks, which
group it works on, and which deeds it may do.  A `Station` holds these, with what the work relies
on, and a `Stride` says what one step may do to the world and to the station of the call that takes
it.  Work under a lock strides if the work itself does (`Guarded.step_ensures`), whatever the
work is.
-/
import Rendezvous.Flow.Guarded
import Rendezvous.Proofs.Lock.Custody
import Rendezvous.Proofs.Section
import Rendezvous.Proofs.Traffic

namespace Rendezvous

/-- What others notice of a call: its place at the locks, the group it works on with what the
work relies on, and the deeds it may do next. -/
structure Station where
  post : Post
  work : Option (CorrelationKey × (Page → Prop))
  may : Deed → Prop

namespace Station

def idle : Station := ⟨.away, none, fun _ => False⟩

def Grounded (a : Station) (h : List Deed) : Prop :=
  ∀ key ground, a.work = some (key, ground) → ground (page key h)

/-- Work is done under the lock of its key, and deeds are done for the group that is worked on. -/
structure Proper (a : Station) : Prop where
  inside : ∀ {key ground}, a.work = some (key, ground) → ∃ t, a.post = .inside key.lockKey t
  own : ∀ {key d}, a.may d → d.key? = some key → ∃ ground, a.work = some (key, ground)

theorem idle_proper : idle.Proper := by
  refine ⟨?_, ?_⟩ <;> simp [idle]

end Station

variable {κ σ ρ : Type} {names : HeaderNames}

/-- The message that was offered to the error channel. -/
def Event.offered? : Event → Option RawMessage
  | .offered _ m => some m
  | _ => none

/-- Nothing changed that locks or groups depend on. -/
structure World.Aside (w w' : World κ) : Prop where
  storeFaults : w'.storeFaults = w.storeFaults
  groups : w'.groups = w.groups
  history : w'.history = w.history
  desk : w'.desk = w.desk

theorem World.Aside.trans {w w' w'' : World κ} (h : w.Aside w') (h' : w'.Aside w'') :
    w.Aside w'' :=
  ⟨h'.storeFaults.trans h.storeFaults, h'.groups.trans h.groups, h'.history.trans h.history,
    h'.desk.trans h.desk⟩

/-- What a step may do to the world and to the station of its call. -/
structure Stride (names : HeaderNames) (w : World κ) (a : Station) (w' : World κ) (a' : Station) :
    Prop where
  faithful : Faithful names w'
  dealing : Dealing w.desk a.post w'.desk a'.post
  grows : Grows names a.may w.history w'.history
  begins : a.work = none → ∀ key ground, a'.work = some (key, ground) →
    ∀ p : Page, p.due = none → ground p
  goesOn : ∀ key ground, a.work = some (key, ground) →
    (∃ ground', a'.work = some (key, ground') ∧ ground' (page key w'.history)) ∨
      a'.work = none ∧ (page key w'.history).due = none

/-- A step of a call that works on no group before or after it, and does nothing to any. -/
theorem Stride.quiet {w w' : World κ} {a a' : Station} (hw : Faithful names w)
    (hf : w'.storeFaults = w.storeFaults) (hg : w'.groups = w.groups)
    (hh : w'.history = w.history) (hd : Dealing w.desk a.post w'.desk a'.post)
    (ha : a.work = none) (ha' : a'.work = none) : Stride names w a w' a' := by
  refine ⟨hw.congr hf hg hh, hd, Or.inl hh, fun _ => ?_, ?_⟩
  · simp [ha']
  · simp [ha]

/-- A step that has nothing to do with locks or groups. -/
theorem Stride.aside {w w' : World κ} {a a' : Station} (hw : Faithful names w)
    (h : w.Aside w') (hp : a'.post = a.post) (ha : a.work = none) (ha' : a'.work = none) :
    Stride names w a w' a' := by
  refine .quiet hw h.storeFaults h.groups h.history ?_ ha ha'
  rw [h.desk, hp]
  exact .rest "" (Desk.change_rfl w.desk "")

/-- What others do not notice of the station after a step. -/
theorem Stride.congr {w w' : World κ} {a a' a'' : Station} (h : Stride names w a w' a')
    (hp : a''.post = a'.post) (hw : a''.work = a'.work) : Stride names w a w' a'' :=
  ⟨h.faithful, hp ▸ h.dealing, h.grows, fun ha => hw ▸ h.begins ha, hw ▸ h.goesOn⟩

namespace Desk

variable {d : Desk} {lk : String}

/-- A request takes a free lock, or changes nothing. -/
theorem request_spec (d : Desk) (lk : String) (p : Patience) :
    (∃ d', d.request lk p = (d', .granted d.issued) ∧ (d.table.lock lk).holder = none ∧
        d.Change d' lk ⟨some d.issued, (d.table.lock lk).queue⟩ (d.issued + 1)) ∨
      ∃ d' answer, d.request lk p = (d', answer) ∧ (answer = .busy ∨ answer = .interrupted) ∧
        d.Change d' lk (d.table.lock lk) d.issued := by
  have hob := d.change_obtain lk
  simp only [request]
  split
  · exact Or.inr ⟨_, _, rfl, Or.inr rfl, hob⟩
  · split
    · next hfree =>
      refine Or.inl ⟨_, rfl, ?_, ?_⟩
      · rw [LockTable.isFree, hob.self] at hfree
        simpa using hfree
      · have hgr := change_grant { d with table := d.table.obtain lk } lk
        rw [hob.self] at hgr
        exact hob.trans hgr
    · exact Or.inr ⟨_, _, rfl, Or.inl rfl, hob⟩

/-- Lining up takes a lock that is free by then, or a place in the queue. -/
theorem lineUp_spec (d : Desk) (lk : String) : ∃ d', d.lineUp lk = (d', d.issued) ∧
    ((d.table.lock lk).holder = none ∧
        d.Change d' lk ⟨some d.issued, (d.table.lock lk).queue⟩ (d.issued + 1) ∨
      d.Change d' lk ⟨(d.table.lock lk).holder, (d.table.lock lk).queue ++ [d.issued]⟩
        (d.issued + 1)) := by
  rw [lineUp]
  split
  · next hfree =>
    refine ⟨_, rfl, Or.inl ⟨?_, d.change_grant lk⟩⟩
    simpa [LockTable.isFree] using hfree
  · exact ⟨_, rfl, Or.inr (d.change_enqueue lk)⟩

/-- A look at a request that waits: it was handed the lock, it leaves, or nothing changes. -/
theorem check_spec (d : Desk) (lk : String) (t : Ticket) (deadline : Option Nat) (now : Nat) :
    (d.check lk t deadline now = (d, .granted) ∧ (d.table.lock lk).holder = some t) ∨
      (d.check lk t deadline now = (d.leave lk t, .interrupted)) ∨
      (d.check lk t deadline now = (d.leave lk t, .late)) ∨
      d.check lk t deadline now = (d, .waiting) := by
  unfold check
  split
  · exact Or.inr (Or.inl rfl)
  · split
    · next hh => exact Or.inl ⟨rfl, by simpa [LockTable.holds] using hh⟩
    · split
      · split
        · exact Or.inr (Or.inr (Or.inl rfl))
        · exact Or.inr (Or.inr (Or.inr rfl))
      · exact Or.inr (Or.inr (Or.inr rfl))

end Desk

namespace Guarded

/-- The station of work under the lock `lk` on the group of `key`, where work of stage `s` relies
on `ground · s` and may do the deeds `may`. -/
def station (lk : String) (key : CorrelationKey) (ground : Page → σ → Prop)
    (may : σ → Deed → Prop) : Guarded σ ρ → Station
  | inside t s => ⟨.inside lk t, some (key, fun p => ground p s), may s⟩
  | leaving t _ => ⟨.inside lk t, some (key, fun p => p.due = none), fun _ => False⟩
  | queued t _ => ⟨.queued lk t, none, fun _ => False⟩
  | _ => .idle

theorem station_proper {key : CorrelationKey} {ground : Page → σ → Prop}
    {may : σ → Deed → Prop} (hmay : ∀ s d k, may s d → d.key? = some k → k = key)
    (g : Guarded σ ρ) :
    (g.station key.lockKey key ground may).Proper := by
  cases g with
  | asking | lining | givingUp => exact Station.idle_proper
  | queued t since => refine ⟨?_, ?_⟩ <;> simp [station]
  | leaving t r =>
    refine ⟨?_, ?_⟩
    · rintro k g' h
      obtain ⟨rfl, -⟩ : key = k ∧ _ := by simpa [station] using h
      exact ⟨t, rfl⟩
    · simp [station]
  | inside t s =>
    refine ⟨?_, ?_⟩
    · rintro k g' h
      obtain ⟨rfl, -⟩ : key = k ∧ _ := by simpa [station] using h
      exact ⟨t, rfl⟩
    · intro k d hd hk
      obtain rfl := hmay s d k hd hk
      exact ⟨_, rfl⟩

theorem refuse_ensures {P : World κ → Guarded σ ρ → Prop} {Q : World κ → Entry ρ → Prop}
    {w : World κ} {lk : String} {interrupted : Bool}
    (h : ∀ (t : Total) (r : Entry ρ), Q (w.count t) r) :
    (refuse w lk interrupted).Ensures P Q := by
  unfold refuse
  split <;> exact h _ _

/-- Work under a lock strides if what it does inside keeps what it relies on. -/
theorem step_ensures {lk : String} {key : CorrelationKey} {p : Patience} {start : σ}
    {work : World κ → σ → Progress (World κ) σ ρ} {ground : Page → σ → Prop}
    {may : σ → Deed → Prop} {w : World κ} {g : Guarded σ ρ} (hw : Faithful names w)
    (hg : (g.station lk key ground may).Grounded w.history)
    (hstart : ∀ pg : Page, pg.due = none → ground pg start)
    (hwork : ∀ s, ground (page key w.history) s → (work w s).Ensures
      (fun w' s' => Worked names (may s) w w' ∧ ground (page key w'.history) s')
      (fun w' _ => Worked names (may s) w w' ∧ (page key w'.history).due = none)) :
    (g.step lk p start work w).Ensures
      (fun w' g' => Stride names w (g.station lk key ground may) w'
        (g'.station lk key ground may))
      (fun w' _ => Stride names w (g.station lk key ground may) w' .idle) := by
  cases g with
  | asking =>
    rw [step]
    obtain ⟨d', hreq, hfree, hchange⟩ | ⟨d', answer, hreq, hanswer, hchange⟩ :=
      w.desk.request_spec lk p
    · rw [hreq]
      refine ⟨hw.congr rfl rfl rfl, .take lk hfree hchange (Or.inr rfl), Or.inl rfl, fun _ => ?_,
        fun _ _ h => by cases h⟩
      intro k ground' h pg hpg
      obtain ⟨-, rfl⟩ : key = k ∧ (fun p => ground p start) = ground' := by
        simpa [station] using h
      exact hstart pg hpg
    · have hrest {w' : World κ} {a' : Station} (hf : w'.storeFaults = w.storeFaults)
          (hgr : w'.groups = w.groups) (hh : w'.history = w.history) (hd : w'.desk = d')
          (ha : a' = .idle) : Stride names w .idle w' a' := by
        subst ha
        exact .quiet hw hf hgr hh (.rest lk (hd ▸ hchange)) rfl rfl
      rw [hreq]
      rcases hanswer with rfl | rfl
      · dsimp only
        split
        · exact refuse_ensures fun t r => hrest rfl rfl rfl rfl rfl
        · exact hrest rfl rfl rfl rfl rfl
      · exact refuse_ensures fun t r => hrest rfl rfl rfl rfl rfl
  | lining =>
    rw [step]
    obtain ⟨d', hline, h⟩ := w.desk.lineUp_spec lk
    rw [hline]
    refine .quiet hw rfl rfl rfl ?_ rfl rfl
    rcases h with ⟨hfree, hchange⟩ | hchange
    · exact .take lk hfree hchange (Or.inl rfl)
    · exact .line lk hchange
  | queued t since =>
    rw [step]
    obtain ⟨hc, hh⟩ | hc | hc | hc := w.desk.check_spec lk t (p.deadline since) w.now
    · rw [hc]
      refine ⟨hw.congr rfl rfl rfl, .enter hh (Desk.change_rfl w.desk lk), Or.inl rfl, fun _ => ?_,
        fun _ _ h => by cases h⟩
      intro k ground' h pg hpg
      obtain ⟨-, rfl⟩ : key = k ∧ (fun p => ground p start) = ground' := by
        simpa [station] using h
      exact hstart pg hpg
    · rw [hc]
      exact .quiet hw rfl rfl rfl (.leave rfl (Desk.change_leave w.desk lk t)) rfl rfl
    · rw [hc]
      exact .quiet hw rfl rfl rfl (.leave rfl (Desk.change_leave w.desk lk t)) rfl rfl
    · rw [hc]
      trivial
  | givingUp interrupted =>
    rw [step]
    exact refuse_ensures fun t r => .aside hw ⟨rfl, rfl, rfl, rfl⟩ rfl rfl rfl
  | inside t s =>
    rw [step, Progress.ensures_andThen]
    have hrest {w' : World κ} (hk : w.Kept w') :
        Dealing w.desk (.inside lk t) w'.desk (.inside lk t) :=
      .rest lk (hk.desk ▸ Desk.change_rfl w.desk lk)
    have hs : ground (page key w.history) s := hg key _ rfl
    refine (hwork s hs).mono ?_ ?_
    · rintro w' s' ⟨hd, hs'⟩
      refine ⟨hd.faithful, hrest hd.kept, hd.grows, fun h => (by cases h), ?_⟩
      intro k ground' h
      obtain ⟨rfl, -⟩ : key = k ∧ _ := by simpa [station] using h
      exact Or.inl ⟨_, rfl, hs'⟩
    · rintro w' r ⟨hd, hdue⟩
      refine ⟨hd.faithful, hrest hd.kept, hd.grows, fun h => (by cases h), ?_⟩
      intro k ground' h
      obtain ⟨rfl, -⟩ : key = k ∧ _ := by simpa [station] using h
      exact Or.inl ⟨_, rfl, hdue⟩
  | leaving t r =>
    rw [step]
    refine ⟨hw.congr rfl rfl rfl, .leave rfl (Desk.change_leave w.desk lk t), Or.inl rfl,
      fun h => (by cases h), ?_⟩
    intro k ground' h
    obtain ⟨rfl, hgr⟩ : key = k ∧ (fun p : Page => p.due = none) = ground' := by
      simpa [station] using h
    exact Or.inr ⟨rfl, hg key _ rfl⟩

/-- What asking for a lock and leaving it do not touch is kept by work under a lock if the work
itself keeps it.  Of what is counted, asking touches the locks that were not had, and how long they
were waited for. -/
theorem step_keeps_of_locks {P : World κ → Prop} {lk : String} {p : Patience} {start : σ}
    {work : World κ → σ → Progress (World κ) σ ρ} {w : World κ} {g : Guarded σ ρ}
    (hdesk : ∀ w d, P w → P (withDesk w d))
    (hunavailable : ∀ w, P w → P (w.count .lockUnavailable))
    (hinterrupted : ∀ w, P w → P (w.count .lockInterrupted))
    (hwait : ∀ w n, P w → P (w.time .lockWait n))
    (hrecord : ∀ w e, e.offered? = none → P w → P (w.record e)) (hw : P w)
    (hwork : ∀ t s, g = inside t s →
      (work w s).Ensures (fun w' _ => P w') fun w' _ => P w') :
    (g.step lk p start work w).Ensures (fun w' _ => P w') fun w' _ => P w' := by
  have hrefuse (w : World κ) (interrupted : Bool) (hw : P w) :
      (refuse w lk interrupted : Progress (World κ) (Guarded σ ρ) (Entry ρ)).Ensures
        (fun w' _ => P w') fun w' _ => P w' := by
    unfold refuse
    split
    · exact hinterrupted w hw
    · exact hunavailable w hw
  have henter (w : World κ) (t : Ticket) (n : Nat) (hw : P w) : P (enter w lk t n) :=
    hrecord _ _ rfl (hwait _ _ hw)
  cases g with
  | asking =>
    rw [step]
    split
    · exact henter _ _ _ (hdesk _ _ hw)
    · split
      · exact hrefuse _ _ (hdesk _ _ hw)
      · exact hdesk _ _ hw
    · exact hrefuse _ _ (hdesk _ _ hw)
  | lining => exact hdesk _ _ hw
  | queued t since =>
    rw [step]
    split
    · exact henter _ _ _ (hdesk _ _ hw)
    · exact hdesk _ _ hw
    · exact hdesk _ _ hw
    · trivial
  | givingUp interrupted => exact hrefuse _ _ hw
  | inside t s =>
    rw [step, Progress.ensures_andThen]
    exact hwork t s rfl
  | leaving t r => exact hrecord _ _ rfl (hdesk _ _ hw)

/-- The same of what nothing that is counted touches. -/
theorem step_keeps {P : World κ → Prop} {lk : String} {p : Patience} {start : σ}
    {work : World κ → σ → Progress (World κ) σ ρ} {w : World κ} {g : Guarded σ ρ}
    (hdesk : ∀ w d, P w → P (withDesk w d)) (hcount : ∀ w t, P w → P (w.count t))
    (htime : ∀ w t n, P w → P (w.time t n))
    (hrecord : ∀ w e, e.offered? = none → P w → P (w.record e)) (hw : P w)
    (hwork : ∀ t s, g = inside t s →
      (work w s).Ensures (fun w' _ => P w') fun w' _ => P w') :
    (g.step lk p start work w).Ensures (fun w' _ => P w') fun w' _ => P w' :=
  step_keeps_of_locks hdesk (fun w => hcount w _) (fun w => hcount w _) (fun w => htime w _)
    hrecord hw hwork

/-- Work that waits may be dropped: it leaves its lock, and nothing is due. -/
theorem abandon_stride {lk : String} {key : CorrelationKey} {ground : Page → σ → Prop}
    {may : σ → Deed → Prop} {inner : σ → Bool} {w : World κ} {g : Guarded σ ρ}
    (hw : Faithful names w) (hg : (g.station lk key ground may).Grounded w.history)
    (hinner : ∀ s, inner s = true → ∀ p : Page, ground p s → p.due = none)
    (hs : g.suspends inner = true) :
    Stride names w (g.station lk key ground may) (g.abandon lk w) .idle := by
  cases g with
  | asking | givingUp | leaving => cases hs
  | lining => exact .aside hw ⟨rfl, rfl, rfl, rfl⟩ rfl rfl rfl
  | queued t since =>
    exact .quiet hw rfl rfl rfl (.leave rfl (Desk.change_leave w.desk lk t)) rfl rfl
  | inside t s =>
    refine ⟨hw.congr rfl rfl rfl, .leave rfl (Desk.change_leave w.desk lk t), Or.inl rfl,
      fun h => (by cases h), ?_⟩
    intro k ground' h
    obtain ⟨rfl, -⟩ : key = k ∧ _ := by simpa [station] using h
    exact Or.inr ⟨rfl, hinner s hs _ (hg key _ rfl)⟩

end Guarded
end Rendezvous
