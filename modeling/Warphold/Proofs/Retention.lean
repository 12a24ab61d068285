import Warphold.Lib.Quota
import Warphold.Snapshot.Retention

/-!
# What retention keeps

The pass over the snapshots is a run of `Quota.shared`: a snapshot asks for a place in each kind of
period, and a period id that has a place bars its equals.
-/

namespace Warphold.Retention

open List Reason

abbrev Placed := Manifest × ℕ

def Reason.kind? : Reason → Option Kind
  | .period k _ => some k
  | .incomplete => none

/-- The complete snapshots that hold a reason of a kind. -/
def holding (k : Kind) (out : List (Manifest × List Reason)) : List Placed :=
  (out.zipIdx.filter fun x => x.1.1.complete && x.1.2.any fun reason => reason.kind? = some k).map
    fun x => (x.1.1, x.2)

section Spec

variable (z : Zone) (r : RetentionPolicy) {manifests : List Manifest} (s : SortByTime manifests)

def completeOnes : List Placed := s.sorted.zipIdx.filter (·.1.complete)

def eligible (k : Kind) : List Placed :=
  (completeOnes s).filter fun x =>
    r.cutoff z (maxStartTime (manifests.filter (·.complete))) k ≤ x.1.startTime.toInt

/-- What the policy says: the newest complete snapshots, and of a kind of periods the newest one of
each of the most recent periods. -/
def kept (k : Kind) : List Placed :=
  match r.max k with
  | none => []
  | some n =>
    match k with
    | .latest => (completeOnes s).take n.toNat
    | k => (Quota.firsts (fun x => timePeriodID z x.2 x.1 k) (eligible z r s k)).take n.toNat

/-- No period that is kept for one kind has the id of one that is kept for another. -/
def IdsApart : Prop :=
  ∀ k k', k ≠ k' → ∀ x ∈ kept z r s k, ∀ y ∈ kept z r s k',
    timePeriodID z x.2 x.1 k ≠ timePeriodID z y.2 y.1 k'

end Spec

section Pass

variable (z : Zone) (r : RetentionPolicy) (base : ℤ)

/-- A snapshot's request for a place in a kind. -/
abbrev Request := Kind × Placed

def Request.key (e : Request) : Str := timePeriodID z e.2.2 e.2.1 e.1

def limit (k : Kind) : ℕ := ((r.max k).getD 0).toNat

def admitted (x : Placed) (k : Kind) : Bool :=
  x.1.complete && (r.max k).isSome && r.cutoff z base k ≤ x.1.startTime.toInt

def requests (xs : List Placed) : List Request :=
  xs.flatMap fun x => (Kind.all.filter (admitted z r base x)).map (·, x)

abbrev grant : List Request → Request → List Request :=
  Quota.grant Prod.fst (limit r) fun f e => Request.key z f = Request.key z e

structure Tally.Counts (t : Tally) (granted : List Request) : Prop where
  ids : ∀ id, id ∈ t.ids ↔ ∃ f ∈ granted, Request.key z f = id
  counters : ∀ k, t.idCounters k = granted.countP (·.1 = k)

variable {z r base} {granted : List Request} {x : Placed} {st : Tally × List Reason}

lemma considerCase_skip {k : Kind} (hc : x.1.complete = true)
    (h : admitted z r base x k = false) : considerCase z r base x.2 x.1 st k = st := by
  unfold considerCase
  cases hm : r.max k with
  | none => rfl
  | some n =>
    simp only [admitted, hc, hm, Option.isSome_some, Bool.and_true, Bool.true_and,
      decide_eq_false_iff_not, not_le] at h
    exact if_pos h

lemma Tally.Counts.free_iff (ht : st.1.Counts z granted) {k : Kind} {n : ℤ}
    (hm : r.max k = some n) :
    ((∀ f ∈ granted, decide (Request.key z f = Request.key z (k, x)) = false)
        ∧ granted.countP (·.1 = k) < limit r k)
      ↔ timePeriodID z x.2 x.1 k ∉ st.1.ids ∧ st.1.idCounters k < n := by
  have hids : (∀ f ∈ granted, decide (Request.key z f = Request.key z (k, x)) = false)
      ↔ timePeriodID z x.2 x.1 k ∉ st.1.ids := by
    simp only [ht.ids, not_exists, not_and]
    exact forall₂_congr fun f _ => decide_eq_false_iff_not
  have hlt : granted.countP (·.1 = k) < limit r k ↔ st.1.idCounters k < n := by
    rw [limit, hm, Option.getD_some, ht.counters]
    omega
  rw [hids, hlt]

lemma Tally.Counts.add {t : Tally} (ht : t.Counts z granted) (k : Kind) :
    Tally.Counts z ⟨timePeriodID z x.2 x.1 k :: t.ids,
      Function.update t.idCounters k (t.idCounters k + 1)⟩ (granted ++ [(k, x)]) where
  ids id := by
    simp only [mem_cons, ht.ids, mem_append, not_mem_nil, or_false, Request.key]
    constructor
    · rintro (rfl | ⟨f, hf, rfl⟩)
      · exact ⟨(k, x), Or.inr rfl, rfl⟩
      · exact ⟨f, Or.inl hf, rfl⟩
    · rintro ⟨f, hf | rfl, rfl⟩
      · exact Or.inr ⟨f, hf, rfl⟩
      · exact Or.inl rfl
  counters k' := by
    rw [countP_append]
    rcases eq_or_ne k' k with rfl | hk
    · simp [ht.counters]
    · simp [hk, hk.symm, ht.counters]

lemma considerCase_grant {k : Kind} (h : admitted z r base x k = true)
    (ht : st.1.Counts z granted) :
    (considerCase z r base x.2 x.1 st k).1.Counts z (grant z r granted (k, x))
      ∧ ∃ ns : List ℤ, ns.length ≤ 1
        ∧ (considerCase z r base x.2 x.1 st k).2 = st.2 ++ ns.map (.period k ·)
        ∧ grant z r granted (k, x) = granted ++ ns.map fun _ => (k, x) := by
  simp only [admitted, Bool.and_eq_true, decide_eq_true_eq] at h
  obtain ⟨n, hm⟩ := Option.isSome_iff_exists.1 h.1.2
  have hiff := ht.free_iff (x := x) hm
  unfold considerCase grant Quota.grant
  simp only [hm, if_neg (not_lt.2 h.2)]
  by_cases hfree : timePeriodID z x.2 x.1 k ∉ st.1.ids ∧ st.1.idCounters k < n
  · rw [if_pos (hiff.2 hfree), if_neg hfree.1, if_pos hfree.2]
    exact ⟨ht.add k, [st.1.idCounters k + 1], le_rfl, rfl, rfl⟩
  · rw [if_neg (fun hg => hfree (hiff.1 hg))]
    have hsame : (if timePeriodID z x.2 x.1 k ∈ st.1.ids then st
        else if st.1.idCounters k < n then
          (⟨timePeriodID z x.2 x.1 k :: st.1.ids,
            Function.update st.1.idCounters k (st.1.idCounters k + 1)⟩,
            st.2 ++ [.period k (st.1.idCounters k + 1)])
        else st) = st := by
      split_ifs with hid hlt
      · rfl
      · exact absurd ⟨hid, hlt⟩ hfree
      · rfl
    rw [hsame]
    exact ⟨ht, [], Nat.zero_le _, by simp, by simp⟩

variable (r base) in
lemma foldl_considerCase (hc : x.1.complete = true) : ∀ (ks : List Kind)
    {st : Tally × List Reason} {granted : List Request}, st.1.Counts z granted →
    ∃ ps : List (Kind × ℤ), (ps.map Prod.fst).Sublist ks
      ∧ (ks.foldl (considerCase z r base x.2 x.1) st).2
        = st.2 ++ ps.map (fun p => period p.1 p.2)
      ∧ ((ks.filter (admitted z r base x)).map (·, x)).foldl (grant z r) granted
        = granted ++ ps.map (fun p => (p.1, x))
      ∧ (ks.foldl (considerCase z r base x.2 x.1) st).1.Counts z
        (granted ++ ps.map fun p => (p.1, x))
  | [], st, granted, ht => ⟨[], .slnil, by simp, by simp, by simpa using ht⟩
  | k :: ks, st, granted, ht => by
    cases h : admitted z r base x k with
    | false =>
      obtain ⟨ps, hsub, hrs, hg, hcount⟩ := foldl_considerCase hc ks ht
      refine ⟨ps, hsub.cons k, ?_, ?_, ?_⟩
      · rwa [foldl_cons, considerCase_skip hc h]
      · rwa [filter_cons_of_neg (by simp [h])]
      · rwa [foldl_cons, considerCase_skip hc h]
    | true =>
      obtain ⟨ht', ns, hns, hrs, hg⟩ := considerCase_grant (x := x) h ht
      obtain ⟨ps, hsub, hrs', hg', hcount⟩ := foldl_considerCase hc ks ht'
      refine ⟨ns.map (k, ·) ++ ps, ?_, ?_, ?_, ?_⟩
      · rcases ns with _ | ⟨n, _ | ⟨m, ns⟩⟩
        · exact hsub.cons k
        · exact hsub.cons_cons k
        · simp at hns
      · simp only [foldl_cons, hrs', hrs, map_append, map_map, append_assoc]
        rfl
      · rw [filter_cons_of_pos h, map_cons, foldl_cons, hg', hg]
        simp only [map_append, map_map, append_assoc]
        rfl
      · rw [foldl_cons]
        rw [hg] at hcount
        simpa only [map_append, map_map, append_assoc, Function.comp_def] using hcount

def grantedBy (out : List ((Manifest × List Reason) × ℕ)) : List Request :=
  out.flatMap fun y => (y.1.2.filterMap Reason.kind?).map (·, (y.1.1, y.2))

lemma filterMap_kind_periods (ps : List (Kind × ℤ)) :
    (ps.map fun p => period p.1 p.2).filterMap kind? = ps.map Prod.fst := by
  rw [filterMap_map]
  exact congrFun filterMap_eq_map ps

variable (r base) in
lemma getRetentionReasons_spec (x : Placed) {t : Tally} (ht : t.Counts z granted) :
    (((getRetentionReasons z r base x.2 x.1 t).2.filterMap kind?).Sublist Kind.all)
      ∧ (x.1.complete = false → (getRetentionReasons z r base x.2 x.1 t).2 = [])
      ∧ (requests z r base [x]).foldl (grant z r) granted
        = granted ++ ((getRetentionReasons z r base x.2 x.1 t).2.filterMap kind?).map (·, x)
      ∧ (getRetentionReasons z r base x.2 x.1 t).1.Counts z
        ((requests z r base [x]).foldl (grant z r) granted) := by
  unfold getRetentionReasons
  by_cases hc : x.1.complete = true
  · obtain ⟨ps, hsub, hrs, hg, hcount⟩ := foldl_considerCase r base hc Kind.all
      (show Tally.Counts z (t, ([] : List Reason)).1 granted from ht)
    simp only [hc, if_true, hrs, nil_append, filterMap_kind_periods, requests,
      flatMap_cons, flatMap_nil, append_nil, hg, map_map]
    exact ⟨hsub, nofun, rfl, hcount⟩
  · have hnone : Kind.all.filter (admitted z r base x) = [] := by
      simp [admitted, hc]
    simp only [hc, Bool.false_eq_true, if_false, requests, flatMap_cons, hnone]
    exact ⟨nil_sublist _, fun _ => trivial, by simp, by simpa using ht⟩

lemma requests_cons (x : Placed) (xs : List Placed) :
    requests z r base (x :: xs) = requests z r base [x] ++ requests z r base xs := by
  simp [requests]

lemma foldl_grant_requests : ∀ (l : List Manifest) (i : ℕ) {t : Tally} {granted : List Request},
    t.Counts z granted → (requests z r base (l.zipIdx i)).foldl (grant z r) granted
      = granted ++ grantedBy ((reasonsFrom z r base i l t).zipIdx i)
  | [], i, t, granted, _ => by simp [requests, grantedBy, reasonsFrom]
  | m :: l, i, t, granted, ht => by
    obtain ⟨-, -, hg, hcount⟩ := getRetentionReasons_spec r base (m, i) ht
    rw [zipIdx_cons, requests_cons, foldl_append, foldl_grant_requests l (i + 1) hcount, hg]
    simp only [reasonsFrom, zipIdx_cons, grantedBy, flatMap_cons, append_assoc]

lemma shared_requests (l : List Manifest) :
    Quota.shared Prod.fst (Request.key z) (limit r) (requests z r base l.zipIdx)
      = grantedBy (reasonsFrom z r base 0 l ⟨[], fun _ => 0⟩).zipIdx := by
  have h0 : Tally.Counts z ⟨[], fun _ => 0⟩ [] := ⟨by simp, by simp⟩
  exact foldl_grant_requests l 0 h0

lemma filter_fst_map {k : Kind} {ks : List Kind} (h : ks.Nodup) :
    (ks.map (·, x)).filter (·.1 = k) = if k ∈ ks then [(k, x)] else [] := by
  have hk := filter_eq (l := ks) k
  rw [h.count] at hk
  rw [filter_map, show (fun e : Request => decide (e.1 = k)) ∘ (·, x)
    = fun k' => decide (k' = k) from rfl, hk]
  split_ifs <;> rfl

lemma filter_requests (k : Kind) : ∀ xs : List Placed,
    (requests z r base xs).filter (·.1 = k) = (xs.filter (admitted z r base · k)).map (k, ·)
  | [] => rfl
  | x :: xs => by
    have hmem : k ∈ Kind.all.filter (admitted z r base x) ↔ admitted z r base x k = true := by
      rw [mem_filter]
      exact and_iff_right (by cases k <;> decide)
    have hnodup : (Kind.all.filter (admitted z r base x)).Nodup :=
      Nodup.filter _ (by decide)
    rw [requests_cons, filter_append, filter_requests k xs, requests, flatMap_singleton,
      filter_fst_map hnodup, filter_cons]
    simp only [hmem]
    split_ifs <;> rfl

lemma filter_grantedBy (k : Kind) : ∀ out : List ((Manifest × List Reason) × ℕ),
    (∀ y ∈ out, (y.1.2.filterMap kind?).Nodup) →
    (grantedBy out).filter (·.1 = k) = (out.filter fun y => y.1.2.any fun reason =>
      reason.kind? = some k).map fun y => (k, (y.1.1, y.2))
  | [], _ => rfl
  | y :: out, h => by
    have hone : ((y.1.2.filterMap kind?).map fun k' => (k', (y.1.1, y.2))).filter (·.1 = k)
        = if y.1.2.any fun reason => reason.kind? = some k then [(k, (y.1.1, y.2))] else [] := by
      have hmem : (y.1.2.any fun reason => reason.kind? = some k) = true
          ↔ k ∈ y.1.2.filterMap kind? := by
        simp [mem_filterMap]
      simp only [filter_fst_map (h y mem_cons_self), hmem]
    have ih := filter_grantedBy k out fun y hy => h y (mem_cons_of_mem _ hy)
    rw [grantedBy, flatMap_cons, filter_append, hone]
    rw [grantedBy] at ih
    rw [ih, filter_cons]
    split_ifs <;> rfl

lemma mem_reasonsFrom : ∀ {l : List Manifest} {i : ℕ} {t : Tally} {granted : List Request},
    t.Counts z granted → ∀ y ∈ reasonsFrom z r base i l t,
      (y.2.filterMap kind?).Nodup ∧ (y.1.complete = false → y.2 = [])
  | m :: l, i, t, granted, ht, y, hy => by
    obtain ⟨hsub, hnil, -, hcount⟩ := getRetentionReasons_spec r base (m, i) ht
    rcases mem_cons.1 hy with rfl | hy
    · exact ⟨hsub.nodup (by decide), hnil⟩
    · exact mem_reasonsFrom hcount y hy

end Pass

lemma filter_keepIncomplete (k : Kind) (start : ℤ) :
    ∀ (out : List (Manifest × List Reason)) (i j : ℕ),
    (((keepIncomplete start i out).zipIdx j).filter fun y =>
        y.1.1.complete && y.1.2.any fun reason => reason.kind? = some k).map (fun y => (y.1.1, y.2))
      = ((out.zipIdx j).filter fun y =>
        y.1.1.complete && y.1.2.any fun reason => reason.kind? = some k).map fun y => (y.1.1, y.2)
  | [], _, _ => rfl
  | (m, reasons) :: out, i, j => by
    unfold keepIncomplete
    split_ifs with hc
    · rfl
    · simp only [zipIdx_cons, filter_cons, hc, Bool.false_and, Bool.false_eq_true, if_false]
      exact filter_keepIncomplete k start out (i + 1) (j + 1)
    · rfl

section Main

variable (z : Zone) (r : RetentionPolicy) {manifests : List Manifest} (s : SortByTime manifests)

lemma map_holding (k : Kind) : (holding k (computeRetentionReasons z r s)).map (k, ·)
    = (Quota.shared Prod.fst (Request.key z) (limit r) (requests z r
      (maxStartTime (manifests.filter (·.complete))) s.sorted.zipIdx)).filter (·.1 = k) := by
  have h0 : Tally.Counts z ⟨[], fun _ => 0⟩ [] := ⟨by simp, by simp⟩
  have hout : ∀ y ∈ (reasonsFrom z r (maxStartTime (manifests.filter (·.complete))) 0 s.sorted
      ⟨[], fun _ => 0⟩).zipIdx, _ := fun y hy =>
    mem_reasonsFrom h0 y.1 (fst_mem_of_mem_zipIdx hy)
  rw [shared_requests, filter_grantedBy k _ fun y hy => (hout y hy).1, holding,
    computeRetentionReasons, filter_keepIncomplete, map_map]
  congr 1
  refine filter_congr fun y hy => ?_
  cases hc : y.1.1.complete with
  | true => rfl
  | false => rw [(hout y hy).2 hc]; rfl

lemma eligible_latest : eligible z r s .latest = completeOnes s := by
  refine filter_eq_self.2 fun x _ => decide_eq_true ?_
  have hmin := x.1.startTime.le_toInt
  simp only [RetentionPolicy.cutoff, zeroTime]
  omega

lemma firsts_latest (xs : List Placed) (h : (xs.map Prod.snd).Nodup) :
    Quota.firsts (fun x => timePeriodID z x.2 x.1 .latest) xs = xs := by
  refine Quota.firsts_eq_self ?_
  rw [show xs.map (fun x => timePeriodID z x.2 x.1 .latest)
    = (xs.map Prod.snd).map fun n : ℕ => Strconv.formatInt n by rw [map_map]; rfl]
  exact h.map Strconv.formatInt_natCast_injective

lemma completeOnes_nodup : ((completeOnes s).map Prod.snd).Nodup := by
  have h : (s.sorted.zipIdx.map Prod.snd).Nodup := by
    rw [zipIdx_map_snd]
    exact nodup_range'
  exact h.sublist (filter_sublist.map _)

lemma kept_eq (k : Kind) : kept z r s k
    = (Quota.firsts (fun x => timePeriodID z x.2 x.1 k) (s.sorted.zipIdx.filter
      (admitted z r (maxStartTime (manifests.filter (·.complete))) · k))).take (limit r k) := by
  cases hm : r.max k with
  | none => simp [kept, hm, limit]
  | some n =>
    have helig : s.sorted.zipIdx.filter
        (admitted z r (maxStartTime (manifests.filter (·.complete))) · k) = eligible z r s k := by
      rw [eligible, completeOnes, filter_filter]
      exact filter_congr fun x _ => by simp [admitted, hm, Bool.and_comm]
    rw [helig, limit, hm, Option.getD_some]
    cases k
    case latest =>
      rw [eligible_latest, firsts_latest z _ (completeOnes_nodup s)]
      simp only [kept, hm]
    all_goals simp only [kept, hm]

/-- The kinds keep what the policy says exactly when their ids do not meet. -/
theorem retention_iff_idsApart :
    ((∀ k, holding k (computeRetentionReasons z r s) = kept z r s k)
      ∧ ∀ id, id ∈ getExpiredSnapshotsForSource z r s
        ↔ ∃ m reasons, (m, reasons) ∈ computeRetentionReasons z r s
          ∧ reasons = [] ∧ m.pins = [] ∧ m.id = id) ↔ IdsApart z r s := by
  have hplace : ∀ k, (kept z r s k).map (k, ·) = (Quota.firsts (Request.key z) ((requests z r
      (maxStartTime (manifests.filter (·.complete))) s.sorted.zipIdx).filter (·.1 = k))).take
        (limit r k) := by
    intro k
    rw [filter_requests, Quota.firsts_map, ← map_take, kept_eq]
    rfl
  have hinj : ∀ k : Kind, Function.Injective fun x : Placed => (k, x) :=
    fun k => Prod.mk_right_injective k
  have hexpired : ∀ id, id ∈ getExpiredSnapshotsForSource z r s
      ↔ ∃ m reasons, (m, reasons) ∈ computeRetentionReasons z r s
        ∧ reasons = [] ∧ m.pins = [] ∧ m.id = id := by
    intro id
    simp [getExpiredSnapshotsForSource, and_assoc]
  rw [and_iff_left hexpired]
  have hiff := Quota.filter_shared_iff Prod.fst (Request.key z) (limit r)
    (requests z r (maxStartTime (manifests.filter (·.complete))) s.sorted.zipIdx)
  simp only [← hplace, ← map_holding, (hinj _).list_map.eq_iff, forall_mem_map] at hiff
  exact hiff

end Main

def RetentionPolicy.monthlyWeekly : RetentionPolicy :=
  ⟨none, none, none, some 52, some 12, none⟩

def mayAndJanuary : SortByTime [⟨[1], 1715731200000000000, 1715731200000000000, [], []⟩,
    ⟨[2], 1706659200000000000, 1706659200000000000, [], []⟩] :=
  ⟨_, .refl _, by decide⟩

/-- The fifth week is not kept for the fifth month was. -/
theorem week_taken_for_month :
    (holding .weekly (computeRetentionReasons .utc .monthlyWeekly mayAndJanuary)).map (·.1.id)
      = [[1]]
    ∧ (kept .utc .monthlyWeekly mayAndJanuary .weekly).map (·.1.id) = [[1], [2]]
    ∧ ¬ IdsApart .utc .monthlyWeekly mayAndJanuary := by
  refine ⟨by decide, by decide +kernel, fun h => ?_⟩
  have hweek : (⟨[2], 1706659200000000000, 1706659200000000000, [], []⟩, 1)
      ∈ kept .utc .monthlyWeekly mayAndJanuary .weekly := by decide
  have hmonth : (⟨[1], 1715731200000000000, 1715731200000000000, [], []⟩, 0)
      ∈ kept .utc .monthlyWeekly mayAndJanuary .monthly := by decide
  exact h .weekly .monthly nofun _ hweek _ hmonth (by decide)

end Warphold.Retention
