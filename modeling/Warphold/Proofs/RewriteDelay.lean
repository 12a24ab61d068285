import Warphold.Maintenance.Cycle

/-!
# Orphaned packs are deleted long enough after a rewrite

The history keeps fifty entries of a task, so a rewrite that counts may drop out of it. It does so
only when later rewrites were attempted, and those are attempted once a deletion is as late as the
rewrite.
-/

namespace Warphold.Maintenance.Cycle

open Schedule

variable {runs : List RunInfo}

lemma maxEndTime_le_iff {b : ℤ} :
    maxEndTime runs ≤ b ↔ 0 ≤ b ∧ ∀ r ∈ runs, r.success = true → r.end_ ≤ b := by
  suffices h : ∀ a : ℤ, runs.foldl
      (fun result r => if r.success ∧ result < r.end_ then r.end_ else result) a ≤ b
      ↔ a ≤ b ∧ ∀ r ∈ runs, r.success = true → r.end_ ≤ b from h 0
  induction runs with
  | nil => simp
  | cons r runs ih =>
    intro a
    rw [List.foldl_cons, ih]
    simp only [List.forall_mem_cons, ← and_assoc]
    refine and_congr_left fun _ => ?_
    split_ifs with h
    · constructor
      · exact fun hb => ⟨h.2.le.trans hb, fun _ => hb⟩
      · exact fun hb => hb.2 h.1
    · constructor
      · exact fun hb => ⟨hb, fun hs => (not_lt.1 fun hlt => h ⟨hs, hlt⟩).trans hb⟩
      · exact fun hb => hb.1

lemma le_maxEndTime {r : RunInfo} (hr : r ∈ runs) (hs : r.success = true) :
    r.end_ ≤ maxEndTime runs :=
  (maxEndTime_le_iff.1 le_rfl).2 r hr hs

lemma maxEndTime_append {runs' : List RunInfo} :
    maxEndTime (runs ++ runs') = max (maxEndTime runs) (maxEndTime runs') := by
  refine eq_of_forall_ge_iff fun b => ?_
  simp only [max_le_iff, maxEndTime_le_iff, List.mem_append, or_imp, forall_and]
  tauto

namespace Schedule

variable {s : Schedule} {t : TaskType} {info : RunInfo}

lemma reportRun_of_ne {t' : TaskType} (h : t' ≠ t) : s.reportRun t info t' = s t' :=
  Function.update_of_ne h _ _

lemma latestRewrite_reportRun (h : t.isRewrite = false) :
    (s.reportRun t info).latestRewrite = s.latestRewrite := by
  have hne : ∀ t', TaskType.isRewrite t' = true → t' ≠ t := by
    rintro t' ht' rfl
    exact absurd (ht'.symm.trans h) nofun
  unfold latestRewrite
  rw [reportRun_of_ne (hne _ rfl), reportRun_of_ne (hne _ rfl)]

lemma latestBlobDelete_reportRun (h : t.isDelete = false) :
    (s.reportRun t info).latestBlobDelete = s.latestBlobDelete := by
  have hne : ∀ t', TaskType.isDelete t' = true → t' ≠ t := by
    rintro t' ht' rfl
    exact absurd (ht'.symm.trans h) nofun
  unfold latestBlobDelete
  rw [reportRun_of_ne (hne _ rfl), reportRun_of_ne (hne _ rfl)]

lemma le_latestRewrite (h : t.isRewrite = true) : maxEndTime (s t) ≤ s.latestRewrite := by
  rw [latestRewrite, maxEndTime_append]
  cases t <;> cases h
  · exact le_max_right _ _
  · exact le_max_left _ _

variable (info) in
lemma le_latestRewrite_reportRun (h : t.isRewrite = true) (hs : info.success = true) :
    info.end_ ≤ (s.reportRun t info).latestRewrite := by
  refine le_trans (le_maxEndTime ?_ hs) (le_latestRewrite h)
  rw [reportRun, Function.update_self]
  exact List.mem_cons_self

lemma le_latestRewrite_or (h : t.isRewrite = true) {e : ℤ} (he : e ≤ s.latestRewrite) :
    e ≤ maxEndTime (s t) ∨ e ≤ (s.reportRun t info).latestRewrite := by
  rw [latestRewrite, maxEndTime_append, le_max_iff] at he
  cases t <;> cases h
  · refine he.symm.imp_right fun he => he.trans ?_
    rw [latestRewrite, reportRun_of_ne (by decide), maxEndTime_append]
    exact le_max_left _ _
  · refine he.imp_right fun he => he.trans ?_
    have hne : TaskType.rewriteContentsQuick ≠ .rewriteContentsFull := by decide
    rw [latestRewrite, reportRun_of_ne hne, maxEndTime_append]
    exact le_max_right _ _

end Schedule

section Invariant

variable (delay : ℤ)

structure Held (st : State) : Prop where
  clock : 0 < st.now
  rewrites : ∀ e ∈ st.rewrites, 0 < e ∧ e ≤ st.now
  deletions : ∀ d ∈ st.deletions, ∀ e ∈ d.2, e + delay ≤ d.1

def Passed (st : State) : Prop := ∀ e ∈ st.rewrites, e + delay ≤ st.now

def Blocked (st : State) (s : Schedule) : Prop :=
  ∀ e ∈ st.rewrites, e + delay ≤ st.now ∨ e ≤ s.latestRewrite

def Guarded (st : State) (s : Schedule) : Prop :=
  ∀ e ∈ st.rewrites, e + delay ≤ st.now ∨ e ≤ s.latestRewrite ∨ e ≤ s.latestBlobDelete

structure Inv (st : State) : Prop where
  held : Held delay st
  guarded : Guarded delay st st.stored

variable {delay} {l : Live} {t : TaskType} {o : Outcome} {s : Schedule} {st : State}

lemma Blocked.guarded (h : Blocked delay st s) : Guarded delay st s := fun e he =>
  (h e he).imp_right .inl

lemma Passed.blocked (h : Passed delay st) : Blocked delay st s := fun e he => .inl (h e he)

lemma now_le_report : l.state.now ≤ (l.report t o).state.now := by
  simp only [Live.report]
  omega

lemma rewrites_report (h : t.isRewrite = false ∨ o.rewritten = 0) :
    (l.report t o).state.rewrites = l.state.rewrites := by
  refine if_neg fun hc => ?_
  rcases h with h | h
  · exact absurd (h.symm.trans hc.1) nofun
  · omega

lemma Held.report (h : Held delay l.state) (hd : t.isDelete = true → Passed delay l.state) :
    Held delay (l.report t o).state where
  clock := h.clock.trans_le now_le_report
  rewrites e he := by
    have hnow := now_le_report (l := l) (t := t) (o := o)
    have hold : ∀ e ∈ l.state.rewrites, 0 < e ∧ e ≤ (l.report t o).state.now :=
      fun e he => ⟨(h.rewrites e he).1, (h.rewrites e he).2.trans hnow⟩
    simp only [Live.report] at he
    split_ifs at he
    · rcases List.mem_cons.1 he with rfl | he
      · exact ⟨h.clock.trans_le hnow, le_rfl⟩
      · exact hold e he
    · exact hold e he
  deletions d hd' := by
    simp only [Live.report] at hd'
    split_ifs at hd' with ht
    · rcases List.mem_cons.1 hd' with rfl | hd'
      · intro e he
        have := hd ht e he
        omega
      · exact h.deletions d hd'
    · exact h.deletions d hd'

lemma Guarded.later {st' : State} {s' : Schedule} (h : Guarded delay st s)
    (hr : st'.rewrites = st.rewrites) (hn : st.now ≤ st'.now)
    (hl : s'.latestRewrite = s.latestRewrite) (hb : s'.latestBlobDelete = s.latestBlobDelete) :
    Guarded delay st' s' := by
  intro e he
  rw [hl, hb]
  rcases h e (hr ▸ he) with h | h
  · exact .inl (h.trans hn)
  · exact .inr h

lemma Passed.later {st' : State} (h : Passed delay st) (hr : st'.rewrites = st.rewrites)
    (hn : st.now ≤ st'.now) : Passed delay st' := fun e he => (h e (hr ▸ he)).trans hn

lemma Blocked.later {st' : State} {s' : Schedule} (h : Blocked delay st s)
    (hr : st'.rewrites = st.rewrites) (hn : st.now ≤ st'.now)
    (hl : s'.latestRewrite = s.latestRewrite) : Blocked delay st' s' := fun e he =>
  (h e (hr ▸ he)).imp (fun h => h.trans hn) fun h => h.trans hl.ge

variable (delay) in
/-- A run's copy of the schedule guards the rewrites as the saved one does. -/
structure LiveInv (l : Live) : Prop where
  inv : Inv delay l.state
  copy : Guarded delay l.state l.s

lemma LiveInv.of_report (hheld : Held delay (l.report t o).state)
    (hnew : Guarded delay (l.report t o).state (l.report t o).s)
    (hold : o.saved = false → Guarded delay (l.report t o).state l.state.stored) :
    LiveInv delay (l.report t o) := by
  refine ⟨⟨hheld, ?_⟩, hnew⟩
  cases hs : o.saved with
  | true => rwa [show (l.report t o).state.stored = (l.report t o).s from if_pos hs]
  | false =>
    rw [show (l.report t o).state.stored = l.state.stored from if_neg (by simp [hs])]
    exact hold hs

lemma LiveInv.report_other (h : LiveInv delay l) (hr : t.isRewrite = false)
    (hd : t.isDelete = false) : LiveInv delay (l.report t o) :=
  .of_report (h.inv.held.report fun ht => absurd (hd.symm.trans ht) nofun)
    (h.copy.later (rewrites_report (.inl hr)) now_le_report
      (latestRewrite_reportRun hr) (latestBlobDelete_reportRun hd))
    fun _ => h.inv.guarded.later (rewrites_report (.inl hr)) now_le_report rfl rfl

lemma LiveInv.report_delete (h : LiveInv delay l) (hr : t.isRewrite = false)
    (hp : Passed delay l.state) : LiveInv delay (l.report t o) :=
  have hp' : Passed delay (l.report t o).state :=
    hp.later (rewrites_report (.inl hr)) now_le_report
  .of_report (h.inv.held.report fun _ => hp) hp'.blocked.guarded fun _ => hp'.blocked.guarded

lemma LiveInv.report_rewrite (h : LiveInv delay l) (hr : t.isRewrite = true)
    (hok : 0 < o.rewritten → o.success = true ∧ o.saved = true)
    (hdue : ∀ e ∈ l.state.rewrites, e ≤ maxEndTime (l.s t) →
      e + delay ≤ l.state.now ∨ e ≤ l.s.latestBlobDelete) :
    LiveInv delay (l.report t o)
      ∧ (o.success = true → Blocked delay (l.report t o).state (l.report t o).s) := by
  have hd : t.isDelete = false := by cases t <;> first | rfl | cases hr
  have hheld : Held delay (l.report t o).state :=
    h.inv.held.report fun ht => absurd (hd.symm.trans ht) nofun
  have hblocked : o.success = true → Blocked delay (l.report t o).state (l.report t o).s :=
    fun hs e he => .inr ((hheld.rewrites e he).2.trans
      (le_latestRewrite_reportRun ⟨_, _, o.success⟩ hr hs))
  refine ⟨.of_report hheld ?_ fun hs => ?_, hblocked⟩
  · cases hs : o.success with
    | true => exact (hblocked hs).guarded
    | false =>
      have h0 : o.rewritten = 0 :=
        Nat.eq_zero_of_not_pos fun hpos => absurd (hs.symm.trans (hok hpos).1) nofun
      intro e he
      rw [rewrites_report (.inr h0)] at he
      have hnow := now_le_report (l := l) (t := t) (o := o)
      have hdel : (l.report t o).s.latestBlobDelete = l.s.latestBlobDelete :=
        latestBlobDelete_reportRun hd
      rw [hdel]
      rcases h.copy e he with hp | hl | hb
      · exact .inl (hp.trans hnow)
      · rcases le_latestRewrite_or hr hl with hl | hl
        · exact (hdue e he hl).imp (fun hp => hp.trans hnow) .inr
        · exact .inr (.inl hl)
      · exact .inr (.inr hb)
  · have h0 : o.rewritten = 0 :=
      Nat.eq_zero_of_not_pos fun hpos => absurd (hs.symm.trans (hok hpos).2) nofun
    exact h.inv.guarded.later (rewrites_report (.inr h0)) now_le_report rfl rfl

end Invariant

section Run

variable {safety : SafetyParameters} {p : RunParameters} {delay : ℤ} {l : Live}

def Ends (delay : ℤ) (P : Live → Prop) : Except Live Live → Prop
  | .ok l => P l
  | .error l => Inv delay l.state

lemma Ends.bind {P Q : Live → Prop} {r : Except Live Live} {f : Live → Except Live Live}
    (h : Ends delay P r) (hf : ∀ l, P l → Ends delay Q (f l)) : Ends delay Q (r >>= f) := by
  cases r with
  | ok l => exact hf l h
  | error l => exact h

variable {t : TaskType}

lemma ends_reportRun {o : Outcome} {P : Live → Prop}
    (h : LiveInv delay (l.report t o)) (hP : o.success = true → P (l.report t o)) :
    Ends delay P (reportRun t o l) := by
  unfold reportRun
  split_ifs with hs
  · exact hP hs
  · exact h.inv

lemma ends_runTasks : ∀ (ts : List TaskType) {l : Live}, LiveInv delay l →
    (∀ t ∈ ts, t.isRewrite = false ∧ t.isDelete = false) →
    Ends delay (LiveInv delay) (runTasks p ts l)
  | [], _, h, _ => h
  | t :: ts, l, h, ht => by
    obtain ⟨⟨hr, hd⟩, hts⟩ := List.forall_mem_cons.1 ht
    rw [runTasks, List.foldlM_cons]
    exact (ends_reportRun (h.report_other hr hd) fun _ => h.report_other hr hd).bind
      fun l' hl' => ends_runTasks ts hl' hts

lemma Blocked.passed (h : Blocked safety.minRewriteToOrphanDeletionDelay l.state l.s)
    (hheld : Held safety.minRewriteToOrphanDeletionDelay l.state)
    (hs : l.s.shouldDeleteOrphanedPacks safety l.state.now = true) :
    Passed safety.minRewriteToOrphanDeletionDelay l.state := by
  intro e he
  rcases h e he with hp | hl
  · exact hp
  · have hpos := (hheld.rewrites e he).1
    have hle := of_decide_eq_true hs
    rw [nextPackDeleteTime, if_neg (by omega)] at hle
    omega

lemma Guarded.blocked {s : Schedule} {st : State} (h : Guarded delay st s) (latest : ℤ)
    (hlt : s.latestBlobDelete < latest) (hle : latest ≤ s.latestRewrite) : Blocked delay st s := by
  intro e he
  rcases h e he with hp | hl | hb
  · exact .inl hp
  · exact .inr hl
  · exact .inr (by omega)

/-- The first stage of a run: contents are rewritten when it is time to, which is when the last
rewrite that is looked at is no later than the last deletion. -/
lemma ends_rewrite {latest : ℤ} {should : Bool} (h : LiveInv delay l)
    (hr : t.isRewrite = true) (hle : maxEndTime (l.s t) ≤ latest) (hle' : latest ≤ l.s.latestRewrite)
    (hshould : should = (decide (latest = 0) || decide (delay = 0)
      || decide (latest ≤ l.s.latestBlobDelete)))
    (hok : 0 < (p.outcome t).rewritten →
      (p.outcome t).success = true ∧ (p.outcome t).saved = true) :
    Ends delay (fun l => LiveInv delay l ∧ Blocked delay l.state l.s) (runTaskIf p should t l) := by
  unfold runTaskIf
  split_ifs with hs
  · have hdue : ∀ e ∈ l.state.rewrites, e ≤ maxEndTime (l.s t) →
        e + delay ≤ l.state.now ∨ e ≤ l.s.latestBlobDelete := by
      intro e he hle
      have hpos := h.inv.held.rewrites e he
      rw [hshould] at hs
      simp only [Bool.or_eq_true, decide_eq_true_eq] at hs
      omega
    obtain ⟨hinv, hblocked⟩ := h.report_rewrite hr hok hdue
    exact ends_reportRun hinv fun hsucc => ⟨hinv, hblocked hsucc⟩
  · refine ⟨h, h.copy.blocked latest ?_ hle'⟩
    rw [hshould] at hs
    simp only [Bool.or_eq_true, decide_eq_true_eq, not_or] at hs
    omega

lemma ends_delete (hr : t.isRewrite = false)
    (h : LiveInv safety.minRewriteToOrphanDeletionDelay l)
    (hb : Blocked safety.minRewriteToOrphanDeletionDelay l.state l.s) :
    Ends safety.minRewriteToOrphanDeletionDelay (LiveInv safety.minRewriteToOrphanDeletionDelay)
      (runTaskIf p (l.s.shouldDeleteOrphanedPacks safety l.state.now) t l) := by
  unfold runTaskIf
  split_ifs with hs
  · have hinv := h.report_delete (o := p.outcome t) hr (hb.passed h.inv.held hs)
    exact ends_reportRun hinv fun _ => hinv
  · exact h

lemma LiveInv.wait (h : LiveInv delay l) (d : ℕ) : LiveInv delay (l.wait d) := by
  have hnow : l.state.now ≤ (l.wait d).state.now := by
    simp only [Live.wait]
    omega
  exact ⟨⟨⟨h.inv.held.clock.trans_le hnow, fun e he => ⟨(h.inv.held.rewrites e he).1,
    (h.inv.held.rewrites e he).2.trans hnow⟩, h.inv.held.deletions⟩,
    h.inv.guarded.later rfl hnow rfl rfl⟩, h.copy.later rfl hnow rfl rfl⟩

lemma Blocked.wait (h : Blocked delay l.state l.s) (d : ℕ) :
    Blocked delay (l.wait d).state (l.wait d).s :=
  h.later rfl (by simp only [Live.wait]; omega) rfl

/-- Whatever a task rewrote, it succeeded and its report was saved. -/
def Outcome.Reported (o : Outcome) : Prop := 0 < o.rewritten → o.success = true ∧ o.saved = true

lemma ends_other {b : Bool} (hr : t.isRewrite = false) (hd : t.isDelete = false)
    (h : LiveInv delay l) : Ends delay (LiveInv delay) (runTaskIf p b t l) := by
  unfold runTaskIf
  split_ifs
  · exact ends_reportRun (h.report_other hr hd) fun _ => h.report_other hr hd
  · exact h

lemma ends_other_blocked {b : Bool} (hr : t.isRewrite = false)
    (hd : t.isDelete = false) (h : LiveInv delay l) (hb : Blocked delay l.state l.s) :
    Ends delay (fun l => LiveInv delay l ∧ Blocked delay l.state l.s) (runTaskIf p b t l) := by
  unfold runTaskIf
  split_ifs
  · have hinv := h.report_other (o := p.outcome t) hr hd
    exact ends_reportRun hinv fun _ => ⟨hinv, hb.later (rewrites_report (.inl hr)) now_le_report
      (latestRewrite_reportRun hr)⟩
  · exact ⟨h, hb⟩

lemma ends_quick (h : LiveInv safety.minRewriteToOrphanDeletionDelay l)
    (hok : (p.outcome .rewriteContentsQuick).Reported) :
    Ends safety.minRewriteToOrphanDeletionDelay (LiveInv safety.minRewriteToOrphanDeletionDelay)
      (runQuickMaintenance safety p l) := by
  unfold runQuickMaintenance
  split_ifs
  · exact ends_runTasks _ h (by decide)
  · refine (ends_rewrite h rfl (le_latestRewrite rfl) le_rfl rfl hok).bind
      fun l₁ ⟨h₁, hb₁⟩ => ?_
    refine Ends.bind (ends_delete ?_ (h₁.wait p.pause) (hb₁.wait p.pause)) fun l₂ h₂ => ?_
    · split_ifs <;> rfl
    · exact ends_runTasks _ h₂ (by decide)

lemma ends_full (h : LiveInv safety.minRewriteToOrphanDeletionDelay l)
    (hok : (p.outcome .rewriteContentsFull).Reported) :
    Ends safety.minRewriteToOrphanDeletionDelay (LiveInv safety.minRewriteToOrphanDeletionDelay)
      (runFullMaintenance safety p l) := by
  unfold runFullMaintenance
  refine (ends_rewrite h rfl le_rfl (le_latestRewrite rfl) rfl hok).bind
    fun l₁ ⟨h₁, hb₁⟩ => ?_
  refine Ends.bind (ends_other_blocked rfl rfl h₁ hb₁) fun l₂ ⟨h₂, hb₂⟩ => ?_
  refine Ends.bind (ends_delete rfl (h₂.wait p.pause) (hb₂.wait p.pause)) fun l₃ h₃ => ?_
  refine Ends.bind (ends_other rfl rfl h₃) fun l₄ h₄ => ?_
  refine Ends.bind (P := LiveInv safety.minRewriteToOrphanDeletionDelay) ?_ fun l₅ h₅ => ?_
  · unfold runTaskEpochMaintenanceFull
    split_ifs
    · exact ends_runTasks _ h₄ (by decide)
    · exact h₄
  · exact ends_reportRun (h₅.report_other rfl rfl) fun _ => h₅.report_other rfl rfl

/-- Every task that rewrites a content succeeds, and its report is saved. -/
def State.Reported (_ : State) : CycleAction → Prop
  | .quick p => (p.outcome .rewriteContentsQuick).Reported
  | .full p => (p.outcome .rewriteContentsFull).Reported
  | _ => True

instance (o : Outcome) : Decidable o.Reported :=
  inferInstanceAs (Decidable (0 < o.rewritten → o.success = true ∧ o.saved = true))

instance (st : State) : ∀ a : CycleAction, Decidable (st.Reported a)
  | .quick p => inferInstanceAs (Decidable (p.outcome .rewriteContentsQuick).Reported)
  | .full p => inferInstanceAs (Decidable (p.outcome .rewriteContentsFull).Reported)
  | .tick _ | .snapshotGC _ => .isTrue trivial

lemma Ends.after {r : Except Live Live} (h : Ends delay (LiveInv delay) r) :
    Inv delay (.after r) := by
  cases r with
  | ok l => exact LiveInv.inv h
  | error l => exact h

lemma Inv.step {st st' : State} (h : Inv safety.minRewriteToOrphanDeletionDelay st)
    {a : CycleAction} (hok : st.Reported a) (hs : st.step safety a = some st') :
    Inv safety.minRewriteToOrphanDeletionDelay st' := by
  cases a <;> cases hs
  case tick d => exact (LiveInv.wait (l := ⟨st, st.stored⟩) ⟨h, h.guarded⟩ d).inv
  case quick p => exact (ends_quick ⟨h, h.guarded⟩ hok).after
  case full p => exact (ends_full ⟨h, h.guarded⟩ hok).after
  case snapshotGC o =>
    have hinv := LiveInv.report_other (l := ⟨st, st.stored⟩) (o := o) ⟨h, h.guarded⟩
      (t := .snapshotGarbageCollection) rfl rfl
    exact (ends_reportRun hinv fun _ => hinv).after

/-- No orphaned pack is deleted before the delay after a rewrite is over. -/
theorem State.reach_deletions_delayed {st : State}
    (h : Runs.Reach (State.step safety) State.Reported State.Initial st) :
    ∀ d ∈ st.deletions, ∀ e ∈ d.2, e + safety.minRewriteToOrphanDeletionDelay ≤ d.1 := by
  have hinv : Inv safety.minRewriteToOrphanDeletionDelay st := by
    refine Runs.Reach.invariant ?_ (fun _ _ _ hi hok hs => hi.step hok hs) h
    rintro _ ⟨now, hnow, rfl⟩
    exact ⟨⟨hnow, nofun, nofun⟩, nofun⟩
  exact hinv.held.deletions

end Run

def RunParameters.plain (rewrite : Outcome) : RunParameters where
  epochManager := false
  extendObjectLocks := false
  outcome
    | .rewriteContentsFull | .rewriteContentsQuick => rewrite
    | _ => ⟨0, 10 ^ 9, 0, true, true⟩
  pause := 0

def Outcome.done : Outcome := ⟨0, 10 ^ 9, 10, true, true⟩

def Outcome.cut : Outcome := ⟨0, 10 ^ 9, 1, false, true⟩

/-- An hour after a quick rewrite, and a minute after a full one that failed. -/
theorem State.failed_rewrite_not_waited_for : ∃ st,
    Runs.Reach (State.step .full) Runs.Free State.Initial st
      ∧ ∃ d ∈ st.deletions, ∃ e ∈ d.2,
        d.1 < e + SafetyParameters.full.minRewriteToOrphanDeletionDelay :=
  Runs.exists_reach ⟨1, one_pos, rfl⟩
    [.quick (.plain .done), .tick (3540 * 10 ^ 9), .full (.plain .cut), .tick (60 * 10 ^ 9),
      .quick (.plain .done)] (by decide)

theorem State.reach_deletions_delayed_hour : ∃ st,
    Runs.Reach (State.step .full) State.Reported State.Initial st
      ∧ (∃ d ∈ st.deletions, d.2 ≠ [])
      ∧ ∀ d ∈ st.deletions, ∀ e ∈ d.2,
        e + SafetyParameters.full.minRewriteToOrphanDeletionDelay ≤ d.1 :=
  Runs.exists_reach_with ⟨1, one_pos, rfl⟩
    [.quick (.plain .done), .tick (3600 * 10 ^ 9), .quick (.plain .done)] (by decide)
    fun _ hreach _ => State.reach_deletions_delayed hreach

end Warphold.Maintenance.Cycle
