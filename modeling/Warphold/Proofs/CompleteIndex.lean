import Warphold.Proofs.Snapshots

/-!
# When the complete index set is complete

`GetCompleteIndexSet` fixes the epoch it reads up to from the snapshot of its first attempt and
keeps it over retries.
-/

namespace Warphold.Epoch

open List

/-- What listing blobs by their prefix promises, of blobs the manager wrote. -/
structure Listing.WellFormed (l : Listing) : Prop where
  singles : ∀ bm ∈ l.singleEpochCompactions, ∃ e n, bm.blobID = .singleEpochCompaction e n
  ranges : ∀ bm ∈ l.rangeCheckpoints, ∃ lo hi n, bm.blobID = .rangeCheckpoint lo hi n ∧ lo < hi
  uncompacted : ∀ e, ∀ bm ∈ l.uncompacted e, ∃ n, bm.blobID = .uncompacted e n

/-- The attempt's snapshot is one a refresh produced. -/
structure Attempt.Refreshed (a : Attempt) : Prop where
  snapshot : ∃ p now l, a.snapshot = refreshAttempt p now l ∧ l.WellFormed
  uncompacted : ∀ e, ∀ bm ∈ a.uncompacted e, ∃ n, bm.blobID = .uncompacted e n

/-- The uncompacted blobs of an epoch, as the attempt knows them. -/
def Attempt.blobsOf (a : Attempt) (e : ℤ) : List Metadata :=
  (a.snapshot.uncompactedEpochSets.lookup e).getD (a.uncompacted e)

def Attempt.Covered (a : Attempt) (result : List Metadata) (e : ℤ) : Prop :=
  (∃ c ∈ a.snapshot.longestRangeCheckpointSets,
      c.minEpoch ≤ e ∧ e ≤ c.maxEpoch ∧ c.blobs ⊆ result)
    ∨ (∃ set, a.snapshot.singleEpochCompactionSets.lookup e = some set ∧ set ⊆ result)
    ∨ a.blobsOf e ⊆ result

/-- The call does not panic, and a set that it returns covers every epoch of the last snapshot. -/
def Complete (a : Attempt) : Option (IndexSet × ℤ) → Prop
  | some (.ok result, _) =>
    ∀ e, 0 ≤ e → e ≤ a.snapshot.writeEpoch + 1 → a.Covered result e
  | some (.failed, _) => True
  | _ => False

/-- The listing of an epoch that the attempt needs fails. -/
def Attempt.ListFails (a : Attempt) (bound : ℤ) : Prop :=
  ∃ e, (∀ c ∈ a.snapshot.longestRangeCheckpointSets, c.maxEpoch < e) ∧ 0 ≤ e ∧ e ≤ bound
    ∧ getIndexesFromEpochInternal a.snapshot a.list e = none

namespace Attempt.Refreshed

variable {a : Attempt} (h : a.Refreshed)
include h

lemma writeEpoch_nonneg : 0 ≤ a.snapshot.writeEpoch := by
  obtain ⟨p, now, l, hs, -⟩ := h.snapshot
  rw [hs]
  exact loadWriteEpoch_nonneg

lemma chain : Chain 0 a.snapshot.longestRangeCheckpointSets := by
  obtain ⟨p, now, l, hs, -⟩ := h.snapshot
  rw [hs]
  exact (findLongestRangeCheckpointStartingAt_chain _ _ 0).1

lemma range_spec {c : RangeMetadata} (hc : c ∈ a.snapshot.longestRangeCheckpointSets) :
    c.minEpoch < c.maxEpoch ∧ ∀ bm ∈ c.blobs, ∃ lo hi n, bm.blobID = .rangeCheckpoint lo hi n := by
  obtain ⟨p, now, l, hs, hwf⟩ := h.snapshot
  rw [hs] at hc
  obtain ⟨hne, hall⟩ := loadRangeCheckpointSets_spec
    ((findLongestRangeCheckpointStartingAt_chain _ _ 0).2 hc)
  obtain ⟨bm, hbm⟩ := exists_mem_of_ne_nil _ hne
  constructor
  · obtain ⟨hmem, hrange⟩ := hall bm hbm
    obtain ⟨lo, hi, n, hid, hlt⟩ := hwf.ranges bm hmem
    rw [hid] at hrange
    cases hrange
    exact hlt
  · intro bm' hbm'
    obtain ⟨lo, hi, n, hid, -⟩ := hwf.ranges bm' (hall bm' hbm').1
    exact ⟨lo, hi, n, hid⟩

lemma single_spec {e : ℤ} {set : List Metadata}
    (hset : a.snapshot.singleEpochCompactionSets.lookup e = some set) :
    set ≠ [] ∧ ∀ bm ∈ set, ∃ n, bm.blobID = .singleEpochCompaction e n := by
  obtain ⟨p, now, l, hs, hwf⟩ := h.snapshot
  rw [hs] at hset
  obtain ⟨hne, hall⟩ := loadSingleEpochCompactions_spec hset
  refine ⟨hne, fun bm hbm => ?_⟩
  obtain ⟨hmem, he⟩ := hall bm hbm
  obtain ⟨e', n, hid⟩ := hwf.singles bm hmem
  rw [hid] at he
  cases he
  exact ⟨n, hid⟩

lemma blobsOf_spec {e : ℤ} : ∀ bm ∈ a.blobsOf e, ∃ n, bm.blobID = .uncompacted e n := by
  intro bm hbm
  unfold Attempt.blobsOf at hbm
  cases hl : a.snapshot.uncompactedEpochSets.lookup e with
  | none =>
    rw [hl] at hbm
    exact h.uncompacted e bm hbm
  | some set =>
    rw [hl] at hbm
    obtain ⟨p, now, l, hs, hwf⟩ := h.snapshot
    rw [hs] at hl
    rw [(mem_loadUncompactedEpochs (Lists.mem_of_lookup hl)).1] at hbm
    exact hwf.uncompacted e bm hbm

end Attempt.Refreshed

lemma getIndexesFromEpochInternal_cases {a : Attempt} {e : ℤ} {set : List Metadata}
    (h : getIndexesFromEpochInternal a.snapshot a.list e = some set) :
    a.snapshot.singleEpochCompactionSets.lookup e = some set ∨ set = a.blobsOf e := by
  unfold getIndexesFromEpochInternal at h
  split at h
  · next heq =>
    cases h
    split_ifs at heq
    exact .inl heq
  · right
    unfold Attempt.blobsOf
    split at h
    · next hl =>
      cases h
      rw [hl]
      rfl
    · next hl =>
      unfold Attempt.list at h
      split_ifs at h
      cases h
      rw [hl]
      rfl

section Attempts

variable {a : Attempt} (h : a.Refreshed) {bound : ℤ}
include h

lemma takeRanges_snapshot : takeRanges 0 a.snapshot.longestRangeCheckpointSets
    = (a.snapshot.longestRangeCheckpointSets.flatMap (·.blobs),
      chainEnd 0 a.snapshot.longestRangeCheckpointSets) :=
  takeRanges_of_chain h.chain fun _ hc => (h.range_spec hc).1

lemma chainEnd_le_bound_iff (hb : 0 ≤ bound + 1) :
    chainEnd 0 a.snapshot.longestRangeCheckpointSets ≤ bound + 1
      ↔ ∀ c ∈ a.snapshot.longestRangeCheckpointSets, c.maxEpoch ≤ bound :=
  chainEnd_le_iff h.chain (fun _ hc => (h.range_spec hc).1.le) hb

lemma panicked_iff (hb : 0 ≤ bound + 1) :
    getCompleteIndexSetForCommittedState a.snapshot a.list 0 bound = .panicked
      ↔ ¬ ∀ c ∈ a.snapshot.longestRangeCheckpointSets, c.maxEpoch ≤ bound := by
  rw [← chainEnd_le_bound_iff h hb]
  unfold getCompleteIndexSetForCommittedState
  simp only [takeRanges_snapshot h]
  split_ifs with hcnt
  · simp only [true_iff]
    omega
  · split <;> simp <;> omega

lemma failed_iff (hb : ∀ c ∈ a.snapshot.longestRangeCheckpointSets, c.maxEpoch ≤ bound)
    (h0 : 0 ≤ bound + 1) :
    getCompleteIndexSetForCommittedState a.snapshot a.list 0 bound = .failed
      ↔ a.ListFails bound := by
  have hend := (chainEnd_le_bound_iff h h0).2 hb
  have hle := le_chainEnd h.chain fun _ hc => (h.range_spec hc).1.le
  have hlt := maxEpoch_lt_chainEnd h.chain fun _ hc => (h.range_spec hc).1.le
  unfold getCompleteIndexSetForCommittedState
  simp only [takeRanges_snapshot h]
  rw [if_neg (by omega)]
  constructor
  · intro hf
    split at hf
    · next hnone =>
      obtain ⟨i, hi, hfail⟩ := mapM_eq_none_iff.1 hnone
      rw [mem_range] at hi
      exact ⟨_, fun c hc => by have := hlt c hc; omega, by omega, by omega, hfail⟩
    · cases hf
  · rintro ⟨e, hafter, h0e, heb, hfail⟩
    have hge : chainEnd 0 a.snapshot.longestRangeCheckpointSets ≤ e := by
      by_contra hcon
      obtain ⟨c, hc, -, hce⟩ := exists_mem_of_lt_chainEnd h.chain h0e (by omega)
      have := hafter c hc
      omega
    rw [mapM_eq_none_iff.2 ⟨(e - chainEnd 0 a.snapshot.longestRangeCheckpointSets).toNat, ?_, ?_⟩]
    · rw [mem_range]
      omega
    · rw [show chainEnd 0 a.snapshot.longestRangeCheckpointSets
        + ((e - chainEnd 0 a.snapshot.longestRangeCheckpointSets).toNat : ℤ) = e by omega]
      exact hfail

variable {result : List Metadata}

lemma mem_ok (hok : getCompleteIndexSetForCommittedState a.snapshot a.list 0 bound = .ok result)
    (bm : Metadata) :
    bm ∈ result ↔ (∃ c ∈ a.snapshot.longestRangeCheckpointSets, bm ∈ c.blobs)
      ∨ ∃ e, chainEnd 0 a.snapshot.longestRangeCheckpointSets ≤ e ∧ e ≤ bound
        ∧ ∃ set, getIndexesFromEpochInternal a.snapshot a.list e = some set ∧ bm ∈ set := by
  rw [(mem_of_getCompleteIndexSet_ok (takeRanges_snapshot h) hok).1 bm, mem_flatMap]

lemma epochNumber_le_bound
    (hok : getCompleteIndexSetForCommittedState a.snapshot a.list 0 bound = .ok result)
    {bm : Metadata} (hbm : bm ∈ result) {e : ℤ} (he : bm.blobID.epochNumber = some e) :
    e ≤ bound := by
  rcases (mem_ok h hok bm).1 hbm with ⟨c, hc, hbc⟩ | ⟨e', -, hle, set, hset, hmem⟩
  · obtain ⟨lo, hi, n, hid⟩ := (h.range_spec hc).2 bm hbc
    rw [hid] at he
    cases he
  · rcases getIndexesFromEpochInternal_cases hset with hs | rfl
    · obtain ⟨n, hid⟩ := (h.single_spec hs).2 bm hmem
      rw [hid] at he
      cases he
      exact hle
    · obtain ⟨n, hid⟩ := h.blobsOf_spec bm hmem
      rw [hid] at he
      cases he
      exact hle

/-- The set an attempt returns under a bound covers its snapshot's epochs exactly if no epoch after
the bound has blobs. -/
lemma covered_iff
    (hb : ∀ c ∈ a.snapshot.longestRangeCheckpointSets, c.maxEpoch ≤ bound) (h0 : 0 ≤ bound + 1)
    (hok : getCompleteIndexSetForCommittedState a.snapshot a.list 0 bound = .ok result) :
    (∀ e, 0 ≤ e → e ≤ a.snapshot.writeEpoch + 1 → a.Covered result e)
      ↔ ∀ e, bound < e → e ≤ a.snapshot.writeEpoch + 1 → a.blobsOf e = [] := by
  have hmem := mem_ok h hok
  constructor
  · intro hall e hlt hle
    rcases hall e (by omega) hle with ⟨c, hc, -, hce, -⟩ | ⟨set, hset, hsub⟩ | hsub
    · have := hb c hc
      omega
    · exfalso
      obtain ⟨hne, hids⟩ := h.single_spec hset
      obtain ⟨bm, hbm⟩ := exists_mem_of_ne_nil _ hne
      obtain ⟨n, hid⟩ := hids bm hbm
      have := epochNumber_le_bound h hok (hsub hbm) (e := e) (by rw [hid]; rfl)
      omega
    · rw [eq_nil_iff_forall_not_mem]
      intro bm hbm
      obtain ⟨n, hid⟩ := h.blobsOf_spec bm hbm
      have := epochNumber_le_bound h hok (hsub hbm) (e := e) (by rw [hid]; rfl)
      omega
  · intro hempty e h0e hle
    by_cases hchain : e < chainEnd 0 a.snapshot.longestRangeCheckpointSets
    · obtain ⟨c, hc, hmin, hmax⟩ := exists_mem_of_lt_chainEnd h.chain h0e hchain
      exact .inl ⟨c, hc, hmin, hmax, fun bm hbm => (hmem bm).2 (.inl ⟨c, hc, hbm⟩)⟩
    by_cases hbound : e ≤ bound
    · obtain ⟨set, hset⟩ :=
        (mem_of_getCompleteIndexSet_ok (takeRanges_snapshot h) hok).2 e (by omega) hbound
      have hsub : set ⊆ result := fun bm hbm =>
        (hmem bm).2 (.inr ⟨e, by omega, hbound, set, hset, hbm⟩)
      rcases getIndexesFromEpochInternal_cases hset with hs | rfl
      · exact .inr (.inl ⟨set, hs, hsub⟩)
      · exact .inr (.inr hsub)
    · exact .inr (.inr (by simp [hempty e (by omega) hle]))

end Attempts

/-- The call after it has fixed its bound: it panics where an attempt does, and otherwise returns
what the last attempt does. -/
lemma getCompleteIndexSet_some (bound : ℤ) {a : Attempt} (ha : a.slow = false) :
    ∀ {as : List Attempt}, (∀ b ∈ as, b.slow = true) →
      ((∃ b ∈ as ++ [a],
          getCompleteIndexSetForCommittedState b.snapshot b.list 0 bound = .panicked) →
        getCompleteIndexSet (some bound) (as ++ [a]) = some (.panicked, zeroTime))
      ∧ ((∀ b ∈ as ++ [a],
          getCompleteIndexSetForCommittedState b.snapshot b.list 0 bound ≠ .panicked) →
        getCompleteIndexSet (some bound) (as ++ [a])
          = some (getCompleteIndexSetForCommittedState a.snapshot a.list 0 bound,
            a.snapshot.deletionWatermark))
  | [], _ => by
    simp only [nil_append, mem_singleton, exists_eq_left, forall_eq, getCompleteIndexSet,
      Option.getD_some, ha, Bool.false_eq_true, ↓reduceIte]
    refine ⟨fun hp => by rw [hp], fun hp => ?_⟩
    split
    · next heq => exact absurd heq hp
    · rfl
  | b :: as, hslow => by
    have ih := getCompleteIndexSet_some bound ha
      fun b' hb' => hslow b' (mem_cons_of_mem b hb')
    simp only [cons_append, mem_cons, getCompleteIndexSet, Option.getD_some,
      hslow b mem_cons_self, ↓reduceIte]
    constructor
    · rintro ⟨b', rfl | hb', hp⟩
      · rw [hp]
      · split
        · rfl
        · exact ih.1 ⟨b', hb', hp⟩
    · intro hp
      split
      · next heq => exact absurd heq (hp b (.inl rfl))
      · exact ih.2 fun b' hb' => hp b' (.inr hb')

def firstBound (as : List Attempt) (a : Attempt) : ℤ := (as.headD a).snapshot.writeEpoch + 1

lemma getCompleteIndexSet_none (as : List Attempt) (a : Attempt) :
    getCompleteIndexSet none (as ++ [a])
      = getCompleteIndexSet (some (firstBound as a)) (as ++ [a]) := by
  cases as <;> rfl

/-- For the latest epoch, after slow attempts `as` and a last attempt `a`: the call does not panic
and returns a complete set exactly if no range checkpoint of any attempt ends after the first
attempt's bound and no epoch after that bound has blobs. -/
theorem getCompleteIndexSet_complete_iff (as : List Attempt) (a : Attempt)
    (hslow : ∀ b ∈ as, b.slow = true) (ha : a.slow = false)
    (hr : ∀ b ∈ as ++ [a], b.Refreshed) :
    Complete a (getCompleteIndexSet none (as ++ [a])) ↔
      (∀ b ∈ as ++ [a], ∀ c ∈ b.snapshot.longestRangeCheckpointSets,
        c.maxEpoch ≤ firstBound as a)
      ∧ (a.ListFails (firstBound as a)
        ∨ ∀ e, firstBound as a < e → e ≤ a.snapshot.writeEpoch + 1 → a.blobsOf e = []) := by
  have h0 : 0 ≤ firstBound as a + 1 := by
    have hmem : as.headD a ∈ as ++ [a] := by cases as <;> simp
    have := (hr _ hmem).writeEpoch_nonneg
    unfold firstBound
    omega
  have hlast := hr a (by simp)
  obtain ⟨hpanic, hrun⟩ := getCompleteIndexSet_some (firstBound as a) ha hslow
  rw [getCompleteIndexSet_none]
  by_cases hb : ∀ b ∈ as ++ [a], ∀ c ∈ b.snapshot.longestRangeCheckpointSets,
      c.maxEpoch ≤ firstBound as a
  · have hnp : ∀ b ∈ as ++ [a],
        getCompleteIndexSetForCommittedState b.snapshot b.list 0 (firstBound as a) ≠ .panicked :=
      fun b hmem hp => (panicked_iff (hr b hmem) h0).1 hp (hb b hmem)
    have hba := hb a (by simp)
    rw [hrun hnp, and_iff_right hb]
    cases hres : getCompleteIndexSetForCommittedState a.snapshot a.list 0 (firstBound as a) with
    | panicked => exact absurd hres (hnp a (by simp))
    | failed => simp [Complete, (failed_iff hlast hba h0).1 hres]
    | ok result =>
      have hnf : ¬ a.ListFails (firstBound as a) := fun hf => by
        rw [(failed_iff hlast hba h0).2 hf] at hres
        cases hres
      simp only [Complete, hnf, false_or]
      exact covered_iff hlast hba h0 hres
  · refine iff_of_false ?_ fun hcond => hb hcond.1
    push Not at hb
    obtain ⟨b, hmem, c, hc, hlt⟩ := hb
    rw [hpanic ⟨b, hmem, (panicked_iff (hr b hmem) h0).2 fun hall => by
      have := hall c hc
      omega⟩]
    exact id

def Parameters.sample : Parameters where
  enabled := true
  epochRefreshFrequency := 20 * 60 * 10 ^ 9
  fullCheckpointFrequency := 7
  cleanupSafetyMargin := 4 * 3600 * 10 ^ 9
  minEpochDuration := 24 * 3600 * 10 ^ 9
  epochAdvanceOnCountThreshold := 20
  epochAdvanceOnTotalSizeBytesThreshold := 10 * 2 ^ 20

def Listing.sample (w : ℤ) (ranges : List (ℤ × ℤ)) : Listing where
  epochMarkers := [⟨.epochMarker w, 12, 0⟩]
  deletionWatermarks := []
  singleEpochCompactions := []
  rangeCheckpoints := ranges.map fun r => ⟨.rangeCheckpoint r.1 r.2 ⟨[], some ([], 1)⟩, 100, 0⟩
  uncompacted e := if e = w then [⟨.uncompacted w ⟨[], none⟩, 100, 0⟩] else []

def Attempt.sample (w : ℤ) (ranges : List (ℤ × ℤ)) (slow : Bool) : Attempt where
  snapshot := refreshAttempt .sample 0 (.sample w ranges)
  uncompacted := (Listing.sample w ranges).uncompacted
  fails _ := false
  slow := slow

lemma Attempt.sample_refreshed (w : ℤ) {ranges : List (ℤ × ℤ)} (hr : ∀ r ∈ ranges, r.1 < r.2)
    (slow : Bool) : (Attempt.sample w ranges slow).Refreshed := by
  have hun : ∀ e, ∀ bm ∈ (Listing.sample w ranges).uncompacted e,
      ∃ n, bm.blobID = .uncompacted e n := by
    intro e bm hbm
    simp only [Listing.sample] at hbm
    split_ifs at hbm with he
    · rw [mem_singleton.1 hbm, he]
      exact ⟨_, rfl⟩
    · cases hbm
  refine ⟨⟨_, _, _, rfl, ⟨by simp [Listing.sample], fun bm hbm => ?_, hun⟩⟩, hun⟩
  obtain ⟨r, hmem, rfl⟩ := mem_map.1 hbm
  exact ⟨_, _, _, rfl, hr r hmem⟩

/-- After a slow attempt at write epoch 0, a retry at write epoch 2 leaves out the blob of epoch 2,
and a retry at write epoch 9 whose range checkpoint ends at epoch 7 panics. -/
theorem getCompleteIndexSet_incomplete :
    ((∀ b ∈ [Attempt.sample 0 [] true, .sample 2 [] false], b.Refreshed)
      ∧ ¬ Complete (.sample 2 [] false)
        (getCompleteIndexSet none [.sample 0 [] true, .sample 2 [] false]))
    ∧ (∀ b ∈ [Attempt.sample 0 [] true, .sample 9 [(0, 7)] false], b.Refreshed)
      ∧ getCompleteIndexSet none [.sample 0 [] true, .sample 9 [(0, 7)] false]
        = some (.panicked, zeroTime) := by
  refine ⟨⟨?_, fun h => ?_⟩, ?_, by decide⟩
  · simp only [forall_mem_cons]
    exact ⟨Attempt.sample_refreshed 0 (by simp) _, Attempt.sample_refreshed 2 (by simp) _, by simp⟩
  · have hrun : getCompleteIndexSet none [.sample 0 [] true, .sample 2 [] false]
        = some (.ok [], zeroTime) := by decide
    rw [hrun] at h
    rcases h 2 (by decide) (by decide) with ⟨c, hc, -⟩ | ⟨set, hset, -⟩ | hsub
    · rw [show (Attempt.sample 2 [] false).snapshot.longestRangeCheckpointSets = []
        by decide] at hc
      cases hc
    · rw [show (Attempt.sample 2 [] false).snapshot.singleEpochCompactionSets = []
        by decide] at hset
      cases hset
    · exact absurd hsub (by decide)
  · simp only [forall_mem_cons]
    exact ⟨Attempt.sample_refreshed 0 (by simp) _, Attempt.sample_refreshed 9 (by simp) _, by simp⟩

theorem getCompleteIndexSet_complete_iff_sample :
    Complete (.sample 9 [(0, 7)] false)
      (getCompleteIndexSet none [.sample 9 [(0, 7)] true, .sample 9 [(0, 7)] false]) := by
  refine (getCompleteIndexSet_complete_iff [.sample 9 [(0, 7)] true] (.sample 9 [(0, 7)] false)
    (by simp [Attempt.sample]) rfl ?_).2 ⟨?_, .inr fun e h₁ h₂ => ?_⟩
  · simp only [cons_append, nil_append, forall_mem_cons]
    exact ⟨Attempt.sample_refreshed 9 (by simp) _, Attempt.sample_refreshed 9 (by simp) _, by simp⟩
  · decide
  · have hw : (Attempt.sample 9 [(0, 7)] false).snapshot.writeEpoch = 9 := by decide
    have hb : firstBound [.sample 9 [(0, 7)] true] (.sample 9 [(0, 7)] false) = 10 := by
      decide
    omega

end Warphold.Epoch
