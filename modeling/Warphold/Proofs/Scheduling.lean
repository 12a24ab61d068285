import Warphold.Fleet.Jobs

/-!
# What the scheduler keeps enqueued

The scheduler decides by the newest row of a kind. If no other row of the kind is inserted while a
fleet-wide one is outstanding, the outstanding one is the newest, so the scheduler sees it.
-/

namespace Warphold.Fleet

open List Jobs

namespace Jobs

variable {t : Jobs} {kind : Kind} {j : Job}

def ofKind (t : Jobs) (kind : Kind) : List Job := t.rows.filter fun j => j.kind = kind

def newest (t : Jobs) (kind : Kind) : Option Job := (t.ofKind kind).getLast?

lemma recentJobs_one (t : Jobs) (kind : Kind) : t.recentJobs kind 1 = (t.newest kind).toList := by
  unfold recentJobs newest ofKind
  rw [filter_reverse, if_neg one_ne_zero, getLast?_eq_head?_reverse]
  cases (filter (fun j => decide (j.kind = kind)) t.rows).reverse <;> rfl

lemma ofKind_enqueueJob (t : Jobs) (kind kind' : Kind) (agentID : Option Str) (at_ : ℤ) :
    (t.enqueueJob kind' agentID at_).ofKind kind
      = t.ofKind kind ++ if kind' = kind then [t.newJob kind' agentID at_] else [] := by
  unfold ofKind enqueueJob
  rw [filter_append]
  by_cases h : kind' = kind <;> simp [newJob, h]

lemma newest_of_forall_le (hj : j ∈ t.ofKind kind) (hmax : ∀ i ∈ t.ofKind kind, i.id ≤ j.id) :
    t.newest kind = some j := by
  have hord : (t.ofKind kind).Pairwise fun a b => a.id < b.id := t.ordered.filter _
  obtain ⟨l, last, hlast⟩ := eq_nil_or_concat (t.ofKind kind) |>.resolve_left
    (ne_nil_of_mem hj)
  rw [concat_eq_append] at hlast
  rw [newest, hlast, getLast?_concat]
  rw [hlast] at hj hmax hord
  rcases mem_append.1 hj with hmem | hmem
  · have hlt := (pairwise_append.1 hord).2.2 j hmem last (mem_singleton_self _)
    have hle := hmax last (mem_append_right _ (mem_singleton_self _))
    omega
  · rw [mem_singleton.1 hmem]

/-- A fleet-wide job of the kind is pending or running. -/
def Outstanding (t : Jobs) (kind : Kind) : Prop :=
  ∃ j ∈ t.ofKind kind, j.agentID = none ∧ j.status.outstanding = true

instance (t : Jobs) (kind : Kind) : Decidable (t.Outstanding kind) :=
  inferInstanceAs (Decidable (∃ j ∈ t.ofKind kind, _))

def Leads (t : Jobs) : Prop :=
  ∀ j ∈ t.rows, j.agentID = none → j.status.outstanding = true →
    ∀ i ∈ t.rows, i.kind = j.kind → i.id ≤ j.id

lemma leads_empty : empty.Leads := fun _ h => absurd h not_mem_nil

lemma mem_ofKind : j ∈ t.ofKind kind ↔ j ∈ t.rows ∧ j.kind = kind := by
  rw [ofKind, mem_filter, decide_eq_true_eq]

lemma Leads.newest (h : t.Leads) (hout : t.Outstanding kind) :
    ∃ j, t.newest kind = some j ∧ j.status.outstanding = true := by
  obtain ⟨j, hj, hfleet, hstatus⟩ := hout
  obtain ⟨hmem, hkind⟩ := mem_ofKind.1 hj
  refine ⟨j, newest_of_forall_le hj fun i hi => ?_, hstatus⟩
  obtain ⟨hi, hkind'⟩ := mem_ofKind.1 hi
  exact h j hmem hfleet hstatus i hi (hkind'.trans hkind.symm)

lemma Leads.enqueueJob (h : t.Leads) (hnone : ¬ t.Outstanding kind) (agentID : Option Str)
    (at_ : ℤ) : (t.enqueueJob kind agentID at_).Leads := by
  intro j hj hfleet hstatus i hi hkind
  rcases mem_append.1 hj with hj | hj
  · rcases mem_append.1 hi with hi | hi
    · exact h j hj hfleet hstatus i hi hkind
    · rw [mem_singleton.1 hi] at hkind
      exact absurd ⟨j, mem_ofKind.2 ⟨hj, hkind.symm⟩, hfleet, hstatus⟩ hnone
  · rw [mem_singleton.1 hj]
    rcases mem_append.1 hi with hi | hi
    · exact (t.lt_nextID hi).le
    · rw [mem_singleton.1 hi]

/-- A row keeps its kind and its agent, and does not become outstanding. -/
structure Settles (i i' : Job) : Prop where
  kind : i'.kind = i.kind
  agentID : i'.agentID = i.agentID
  status : i'.status.outstanding = true → i.status.outstanding = true

lemma Settles.refl (i : Job) : Settles i i := ⟨rfl, rfl, id⟩

section Update

variable {f : Job → Job} (hf : ∀ j, (f j).id = j.id)

lemma Leads.update (h : t.Leads) (hs : ∀ i ∈ t.rows, Settles i (f i)) : (t.update f hf).Leads := by
  intro j hj hfleet hstatus i hi hkind
  obtain ⟨j₀, hj₀, rfl⟩ := mem_map.1 hj
  obtain ⟨i₀, hi₀, rfl⟩ := mem_map.1 hi
  have hsj := hs j₀ hj₀
  have hsi := hs i₀ hi₀
  rw [hsj.agentID] at hfleet
  rw [hsi.kind, hsj.kind] at hkind
  rw [hf, hf]
  exact h j₀ hj₀ hfleet (hsj.status hstatus) i₀ hi₀ hkind

lemma outstanding_of_update (hs : ∀ i ∈ t.rows, Settles i (f i))
    (h : (t.update f hf).Outstanding kind) : t.Outstanding kind := by
  obtain ⟨j, hj, hfleet, hstatus⟩ := h
  obtain ⟨hmem, hkind⟩ := mem_ofKind.1 hj
  obtain ⟨j₀, hj₀, rfl⟩ := mem_map.1 hmem
  have hsj := hs j₀ hj₀
  exact ⟨j₀, mem_ofKind.2 ⟨hj₀, hsj.kind ▸ hkind⟩, hsj.agentID ▸ hfleet, hsj.status hstatus⟩

end Update

lemma settles_requeueRow (kind : Kind) (cutoff : ℤ) (i : Job) :
    Settles i (requeueRow kind cutoff i) := by
  unfold requeueRow
  split_ifs with h
  · exact ⟨rfl, rfl, fun _ => by rw [h.1]; rfl⟩
  · exact .refl i

lemma settles_finishRow (id : ℕ) (now : ℤ) {status : JobStatus} (h : status.outstanding = false)
    (i : Job) : Settles i (finishRow id now status i) := by
  unfold finishRow
  split_ifs
  · exact ⟨rfl, rfl, fun hout => by rw [h] at hout; cases hout⟩
  · exact .refl i

lemma eq_of_id_eq (t : Jobs) {i j : Job} (hi : i ∈ t.rows) (hj : j ∈ t.rows) (h : i.id = j.id) :
    i = j := by
  have hnodup : (t.rows.map (·.id)).Nodup := pairwise_map.2 (t.ordered.imp Nat.ne_of_lt)
  exact inj_on_of_nodup_map hnodup hi hj h

lemma foldl_some_mem {f : Option Job → Job → Option Job}
    (hf : ∀ best i, f best i = some j → best = some j ∨ i = j) :
    ∀ (l : List Job) (best : Option Job), l.foldl f best = some j → best = some j ∨ j ∈ l
  | [], _, h => .inl h
  | i :: l, best, h => by
    rcases foldl_some_mem hf l _ h with h | h
    · exact (hf best i h).imp_right fun heq => mem_cons.2 (.inl heq.symm)
    · exact .inr (mem_cons_of_mem _ h)

lemma mem_of_dueJob {now : ℤ} (h : t.dueJob now = some j) : j ∈ t.rows ∧ j.status = .pending := by
  have hfold := foldl_some_mem (fun best i hi => ?_) _ _ h
  · obtain ⟨hmem, hdue⟩ := mem_filter.1 (hfold.resolve_left (by simp))
    rw [Bool.and_eq_true, decide_eq_true_eq] at hdue
    exact ⟨hmem, hdue.1⟩
  · cases best with
    | none => exact .inr (Option.some.inj hi)
    | some b =>
      simp only [] at hi
      split_ifs at hi
      · exact .inr (Option.some.inj hi)
      · exact .inl hi

lemma settles_claimRow {now : ℤ} (h : t.dueJob now = some j) {i : Job} (hi : i ∈ t.rows) :
    Settles i (claimRow j.id now i) := by
  obtain ⟨hj, hpending⟩ := mem_of_dueJob h
  unfold claimRow
  split_ifs with hid
  · refine ⟨rfl, rfl, fun _ => ?_⟩
    rw [t.eq_of_id_eq hi hj hid, hpending]
    rfl
  · exact .refl i

end Jobs

def SchedulerPc.enqueues (kind : Kind) : SchedulerPc → Bool
  | .enqueue kind' _ => kind' = kind
  | _ => false

namespace Scheduling

variable {cfg : Scheduler.Config} {s s' : Scheduling}

/-- Jobs that others insert come when no fleet-wide one of the kind is outstanding or about to be
inserted. -/
def Alone (s : Scheduling) (kind : Kind) : Prop :=
  ¬ s.jobs.Outstanding kind ∧ s.pc.enqueues kind = false

def InsertsAlone (s : Scheduling) : Action → Prop
  | .create kind _ _ => s.Alone kind
  | .revoke _ _ _ => s.Alone .reap
  | _ => True

structure Inv (s : Scheduling) : Prop where
  leads : s.jobs.Leads
  alone : ∀ kind now, s.pc = .enqueue kind now → ¬ s.jobs.Outstanding kind

lemma Inv.update (h : Inv s) {f : Job → Job} {hf : ∀ j, (f j).id = j.id}
    (hs : ∀ i ∈ s.jobs.rows, Settles i (f i)) {pc : SchedulerPc}
    (hpc : ∀ kind now, pc = .enqueue kind now → s.pc = .enqueue kind now) :
    Inv ⟨s.jobs.update f hf, pc⟩ where
  leads := h.leads.update hf hs
  alone kind now hpc' hout := h.alone kind now (hpc kind now hpc')
    (outstanding_of_update hf hs hout)

lemma Inv.insertBy (h : Inv s) {kind : Kind} (ha : s.Alone kind) (agentID : Option Str) (at_ : ℤ) :
    Inv { s with jobs := s.jobs.enqueueJob kind agentID at_ } where
  leads := h.leads.enqueueJob ha.1 agentID at_
  alone kind' now hpc := by
    rintro ⟨j, hj, hfleet, hstatus⟩
    have hne : kind ≠ kind' := fun heq => by
      have hfalse := ha.2
      rw [hpc, heq, SchedulerPc.enqueues, decide_eq_false_iff_not] at hfalse
      exact hfalse rfl
    rw [ofKind_enqueueJob, if_neg hne, append_nil] at hj
    exact h.alone kind' now hpc ⟨j, hj, hfleet, hstatus⟩

lemma not_enqueues_of_outstanding (h : s.jobs.Leads) {kind : Kind} (hout : s.jobs.Outstanding kind)
    (settings : Str → Option Str) (now : ℤ) :
    Scheduler.enqueues cfg settings now s.jobs kind = false := by
  obtain ⟨j, hj, hstatus⟩ := h.newest hout
  rw [Scheduler.enqueues, recentJobs_one, hj]
  simp [Scheduler.wants, hstatus]

lemma Inv.step (h : Inv s) {a : Action} (hok : InsertsAlone s a) (hs : s.step cfg a = some s') :
    Inv s' := by
  cases a <;> simp only [Scheduling.step] at hs
  case requeueStale kind now =>
    split_ifs at hs
    cases hs
    exact h.update (fun i _ => settles_requeueRow kind _ i) fun _ _ hpc => hpc
  case look kind settings now =>
    split_ifs at hs with hpc hen
    · cases hs
      refine ⟨h.leads, fun kind' now' heq hout => ?_⟩
      cases heq
      rw [not_enqueues_of_outstanding h.leads hout] at hen
      cases hen
    · cases hs
      exact h
  case insert =>
    split at hs
    next kind now hpc =>
      cases hs
      exact ⟨h.leads.enqueueJob (h.alone kind now hpc) _ _, nofun⟩
    next => cases hs
  case claim now =>
    simp only [claimDueJob] at hs
    split_ifs at hs with hpc
    rw [not_not] at hpc
    cases hdue : s.jobs.dueJob now with
    | none =>
      rw [hdue] at hs
      cases hs
      exact h
    | some j =>
      rw [hdue] at hs
      cases hs
      exact h.update (fun i hi => settles_claimRow hdue hi) nofun
  case finish now status =>
    split at hs
    all_goals cases hs
    · exact h.update (fun i _ => settles_finishRow _ _ rfl i) nofun
    · exact h.update (fun i _ => settles_finishRow _ _ rfl i) nofun
    · exact h.update (fun i _ => settles_finishRow _ _ rfl i) nofun
    · exact ⟨h.leads, nofun⟩
  case crash =>
    cases hs
    exact ⟨h.leads, nofun⟩
  case create kind agentID now =>
    cases hs
    exact h.insertBy hok agentID now
  case revoke agentID now retention =>
    cases hs
    exact h.insertBy hok _ _

/-- The scheduler inserts a fleet-wide job only when none of the kind is outstanding, if others
insert jobs only then. -/
theorem reach_inserts_alone (h : Runs.Reach (step cfg) InsertsAlone (· = start) s) (kind : Kind)
    (now : ℤ) (hpc : s.pc = .enqueue kind now) : ¬ s.jobs.Outstanding kind := by
  have hinv : Inv s := h.invariant (fun s hs => hs ▸ ⟨Jobs.leads_empty, nofun⟩)
    fun s a s' h hok hs => h.step hok hs
  exact hinv.alone kind now hpc

section Samples

instance (s : Scheduling) (kind : Kind) : Decidable (s.Alone kind) :=
  inferInstanceAs (Decidable (_ ∧ _))

instance (s : Scheduling) (a : Action) : Decidable (InsertsAlone s a) :=
  match a with
  | .create kind _ _ => inferInstanceAs (Decidable (s.Alone kind))
  | .revoke _ _ _ => inferInstanceAs (Decidable (s.Alone .reap))
  | .requeueStale .. | .look .. | .insert | .claim .. | .finish .. | .crash => isTrue trivial

def sampleConfig : Scheduler.Config := ⟨[.mirror, .reap], fun _ => 6 * Scheduler.hour⟩

def sampleRun : List Action :=
  [.look .mirror (fun _ => none) 0, .insert, .claim 0, .finish Scheduler.second (some .ok),
    .create .mirror (some [1]) Scheduler.minute, .claim Scheduler.minute,
    .finish Scheduler.minute (some .ok), .look .mirror (fun _ => none) (2 * Scheduler.hour)]

theorem reach_inserts_alone_sample : ∃ s, Runs.Reach (step sampleConfig) InsertsAlone (· = start) s ∧
    s.pc = .enqueue .mirror (2 * Scheduler.hour) ∧ ¬ s.jobs.Outstanding .mirror :=
  Runs.exists_reach_with rfl sampleRun (by decide) fun _ hreach hpc =>
    reach_inserts_alone hreach _ _ hpc

/-- The fleet-wide job is left running by a crash, and an agent's job runs after it: the scheduler
inserts another fleet-wide job. -/
theorem shadowed_job_doubled : ∃ s, Runs.Reach (step sampleConfig) Runs.Free (· = start) s ∧
    s.pc = .enqueue .mirror (2 * Scheduler.hour) ∧ s.jobs.Outstanding .mirror :=
  Runs.exists_reach rfl
    [.look .mirror (fun _ => none) 0, .insert, .claim 0, .crash,
      .create .mirror (some [1]) Scheduler.minute, .claim Scheduler.minute,
      .finish Scheduler.minute (some .ok), .requeueStale .mirror (2 * Scheduler.hour),
      .look .mirror (fun _ => none) (2 * Scheduler.hour)] (by decide)

end Samples

end Scheduling

namespace Scheduler

section Cadence

variable (cfg : Config) (settings : Str → Option Str) (now : ℤ) (t : Jobs) (kind : Kind)

def lastFleet : Option Job := ((t.ofKind kind).filter fun j => j.agentID = none).getLast?

def every : ℤ := intervalFor settings (intervals kind)

def Recent (j : Job) : Prop :=
  j.status.outstanding = true ∨ ∃ f, j.finishedAt = some f ∧ now - parseTS f < every settings kind

/-- No fleet-wide job of the kind is outstanding, and the last one has been finished for an
interval. -/
structure Due : Prop where
  runner : kind ∈ cfg.runners
  idle : ¬ t.Outstanding kind
  last : ∀ j, lastFleet t kind = some j → ¬ Recent settings now kind j

/-- The newest job of the kind is an agent's, and recent. -/
def Shadowed : Prop :=
  ∃ j, t.newest kind = some j ∧ j.agentID ≠ none ∧ Recent settings now kind j

/-- The tick inserts one job of the kind, for the whole fleet. -/
def Enqueues (order : Order) : Prop :=
  ∃ id, (enqueueIntervals cfg settings now order t).ofKind kind
    = t.ofKind kind ++ [⟨id, kind, none, ts now, none, none, .pending⟩]

variable {cfg settings now t kind}

lemma wants_iff : wants (every settings kind) now (t.newest kind).toList = true ↔
    ∀ j, t.newest kind = some j → ¬ Recent settings now kind j := by
  cases t.newest kind with
  | none => simp [wants]
  | some j =>
    simp only [Option.toList_some, wants, Option.some.injEq, forall_eq', Recent]
    cases j.status.outstanding with
    | true => simp
    | false =>
      cases j.finishedAt with
      | none => simp
      | some f => simp

lemma enqueues_iff : enqueues cfg settings now t kind = true ↔
    kind ∈ cfg.runners ∧ ∀ j, t.newest kind = some j → ¬ Recent settings now kind j := by
  rw [enqueues, Bool.and_eq_true, decide_eq_true_eq, recentJobs_one]
  exact and_congr_right fun _ => wants_iff

lemma enqueues_congr {t' : Jobs} (h : t'.ofKind kind = t.ofKind kind) :
    enqueues cfg settings now t' kind = enqueues cfg settings now t kind := by
  rw [enqueues, enqueues, recentJobs_one, recentJobs_one, newest, newest, h]

lemma ofKind_enqueueInterval (kind' : Kind) :
    (enqueueInterval cfg settings now t kind').ofKind kind
      = t.ofKind kind ++ if kind' = kind ∧ enqueues cfg settings now t kind' = true then
        [t.newJob kind' none now] else [] := by
  unfold enqueueInterval
  by_cases hen : enqueues cfg settings now t kind' = true
  · rw [if_pos hen, ofKind_enqueueJob]
    simp [hen]
  · rw [if_neg hen]
    simp [hen]

lemma ofKind_foldl_of_not_mem : ∀ (kinds : List Kind) (t : Jobs), kind ∉ kinds →
    (kinds.foldl (enqueueInterval cfg settings now) t).ofKind kind = t.ofKind kind
  | [], _, _ => rfl
  | k :: kinds, t, h => by
    rw [mem_cons, not_or] at h
    rw [foldl_cons, ofKind_foldl_of_not_mem kinds _ h.2, ofKind_enqueueInterval,
      if_neg fun hk => h.1 hk.1.symm, append_nil]

lemma ofKind_foldl : ∀ (kinds : List Kind) (t : Jobs), kinds.Nodup → kind ∈ kinds →
    ∃ id, (kinds.foldl (enqueueInterval cfg settings now) t).ofKind kind
      = t.ofKind kind ++ if enqueues cfg settings now t kind = true then
        [⟨id, kind, none, ts now, none, none, .pending⟩] else []
  | k :: kinds, t, hnodup, hmem => by
    obtain ⟨hnot, hnodup⟩ := nodup_cons.1 hnodup
    rw [foldl_cons]
    by_cases hk : k = kind
    · subst hk
      refine ⟨t.nextID, ?_⟩
      rw [ofKind_foldl_of_not_mem kinds _ hnot, ofKind_enqueueInterval]
      simp only [true_and]
      rfl
    · have hmem := (mem_cons.1 hmem).resolve_left (Ne.symm hk)
      have hsame : (enqueueInterval cfg settings now t k).ofKind kind = t.ofKind kind := by
        rw [ofKind_enqueueInterval, if_neg fun h => hk h.1, append_nil]
      obtain ⟨id, hid⟩ := ofKind_foldl kinds (enqueueInterval cfg settings now t k) hnodup hmem
      refine ⟨id, ?_⟩
      rw [hid, hsame, enqueues_congr hsame]

lemma Due.not_recent (h : Due cfg settings now t kind) {j : Job} (hj : t.newest kind = some j)
    (hfleet : j.agentID = none) : ¬ Recent settings now kind j := by
  refine h.last j ?_
  obtain ⟨l, hl⟩ := getLast?_eq_some_iff.1 hj
  rw [lastFleet, hl, filter_append]
  simp [hfleet]

lemma enqueues_of_order (order : Order) :
    Enqueues cfg settings now t kind order ↔ enqueues cfg settings now t kind = true := by
  obtain ⟨id, hid⟩ := @ofKind_foldl cfg settings now kind order.kinds t order.nodup
    (order.complete kind)
  unfold Enqueues enqueueIntervals
  rw [hid]
  constructor
  · rintro ⟨id', hid'⟩
    by_contra hno
    rw [if_neg hno, append_cancel_left_eq] at hid'
    cases hid'
  · intro hyes
    exact ⟨id, by rw [if_pos hyes]⟩

end Cadence

section Samples

def sampleOrder : Order where
  kinds := [.mirror, .verify, .testRestore, .maintenance, .reap, .stats, .digest]
  nodup := by decide
  complete kind := by cases kind <;> decide

def revoked : Jobs := Jobs.empty.enqueueJob .reap (some [1]) (30 * day)

lemma due_revoked (now : ℤ) : Due Scheduling.sampleConfig (fun _ => none) now revoked .reap where
  runner := by decide
  idle := by decide
  last j hj := by cases hj

end Samples

end Scheduler

end Warphold.Fleet
