import Warphold.Epoch.Snapshot
import Warphold.Lib.Lists

/-!
# What a snapshot holds

The sets a refresh finds are not empty and consist of listed blobs. The range checkpoints it keeps
form a chain: each starts where the last one ended, from epoch 0 on.
-/

namespace Warphold.Epoch

open List

namespace CompleteSet

structure Of (bms : List Metadata) (s : Sets) : Prop where
  begun : ∀ id, s.begun id ⊆ bms
  complete : ∀ set ∈ s.complete, set ≠ [] ∧ set ⊆ bms

variable {bms : List Metadata}

lemma Of.add {s : Sets} (h : Of bms s) {bm : Metadata} (hbm : bm ∈ bms) :
    Of bms (add s bm) := by
  unfold CompleteSet.add
  split
  · refine ⟨h.begun, fun set hset => ?_⟩
    rcases mem_append.1 hset with hset | hset
    · exact h.complete set hset
    · rw [mem_singleton.1 hset]
      exact ⟨by simp, by simpa using hbm⟩
  · next id count _ =>
    have hset : s.begun id ++ [bm] ⊆ bms :=
      append_subset.2 ⟨h.begun id, by simpa using hbm⟩
    refine ⟨fun id' => ?_, fun set hmem => ?_⟩
    · simp only [Function.update_apply]
      split_ifs
      · exact hset
      · exact h.begun id'
    · simp only [] at hmem
      split_ifs at hmem
      · rcases mem_append.1 hmem with hmem | hmem
        · exact h.complete set hmem
        · rw [mem_singleton.1 hmem]
          exact ⟨by simp, hset⟩
      · exact h.complete set hmem

lemma of_foldl : ∀ (l : List Metadata) {s : Sets}, Of bms s → l ⊆ bms →
    Of bms (l.foldl add s)
  | [], _, h, _ => h
  | bm :: l, _, h, hl => by
    rw [cons_subset] at hl
    exact of_foldl l (h.add hl.1) hl.2

lemma findFirst_spec {set : List Metadata} (h : findFirst bms = some set) :
    set ≠ [] ∧ set ⊆ bms := by
  have hof : Of bms (bms.foldl add ⟨fun _ => [], []⟩) :=
    of_foldl bms ⟨fun _ => by simp, by simp⟩ (Subset.refl bms)
  exact hof.complete set (mem_of_mem_head? h)

lemma complete_foldl_ne_nil : ∀ (l : List Metadata) {s : Sets}, s.complete ≠ [] →
    (l.foldl add s).complete ≠ []
  | [], _, h => h
  | bm :: l, s, h => by
    refine complete_foldl_ne_nil l ?_
    unfold add
    split
    · simp
    · simp only []
      split_ifs
      · simp
      · exact h

lemma findFirst_isSome {bm : Metadata} (bms : List Metadata) {id : Str}
    (h : bm.blobID.setName = some (id, 1)) : (findFirst (bm :: bms)).isSome := by
  have hne : (findAll (bm :: bms)) ≠ [] := by
    refine complete_foldl_ne_nil bms ?_
    simp [add, h]
  cases hf : findAll (bm :: bms) with
  | nil => exact absurd hf hne
  | cons set sets => simp [findFirst, hf]

end CompleteSet

section Load

variable {bms : List Metadata} {e : ℤ}

lemma loadSingleEpochCompactions_spec {set : List Metadata}
    (h : (loadSingleEpochCompactions bms).lookup e = some set) :
    set ≠ [] ∧ ∀ bm ∈ set, bm ∈ bms ∧ bm.blobID.epochNumber = some e := by
  obtain ⟨g, hg, hset⟩ := mem_filterMap.1 (Lists.mem_of_lookup h)
  obtain ⟨set', hfirst, heq⟩ := Option.map_eq_some_iff.1 hset
  cases heq
  obtain ⟨e', -, rfl⟩ := mem_map.1 hg
  obtain ⟨hne, hsub⟩ := CompleteSet.findFirst_spec hfirst
  refine ⟨hne, fun bm hbm => ?_⟩
  simpa using mem_filter.1 (hsub hbm)

variable {bm : Metadata}

lemma exists_lookup_singleEpochCompactions
    (hone : ∀ bm ∈ bms, ∃ id, bm.blobID.setName = some (id, 1)) (hbm : bm ∈ bms)
    (he : bm.blobID.epochNumber = some e) :
    ∃ set, (loadSingleEpochCompactions bms).lookup e = some set := by
  rw [← Option.isSome_iff_exists, lookup_isSome_iff]
  have hmem : bm ∈ bms.filter fun bm => bm.blobID.epochNumber = some e :=
    mem_filter.2 ⟨hbm, by simpa using he⟩
  cases hgroup : bms.filter fun bm => bm.blobID.epochNumber = some e with
  | nil =>
    rw [hgroup] at hmem
    cases hmem
  | cons b rest =>
    have hb : b ∈ bms := mem_of_mem_filter (hgroup ▸ mem_cons_self)
    obtain ⟨id, hid⟩ := hone b hb
    obtain ⟨set, hset⟩ := Option.isSome_iff_exists.1 (CompleteSet.findFirst_isSome rest hid)
    refine ⟨(e, set), mem_filterMap.2 ⟨(e, b :: rest), ?_, by simp [hset]⟩, by simp⟩
    refine mem_map.2 ⟨e, mem_dedup.2 (mem_filterMap.2 ⟨bm, hbm, he⟩), ?_⟩
    rw [hgroup]

lemma loadRangeCheckpointSets_spec {c : RangeMetadata} (h : c ∈ loadRangeCheckpointSets bms) :
    c.blobs ≠ []
      ∧ ∀ bm ∈ c.blobs, bm ∈ bms ∧ bm.blobID.epochRange = some (c.minEpoch, c.maxEpoch) := by
  obtain ⟨g, hg, hset⟩ := mem_filterMap.1 h
  obtain ⟨set, hfirst, rfl⟩ := Option.map_eq_some_iff.1 hset
  obtain ⟨r, -, rfl⟩ := mem_map.1 hg
  obtain ⟨hne, hsub⟩ := CompleteSet.findFirst_spec hfirst
  refine ⟨hne, fun bm hbm => ?_⟩
  simpa using mem_filter.1 (hsub hbm)

lemma mem_loadUncompactedEpochs {list : ℤ → List Metadata} {first : ℤ} {count : ℕ}
    {set : List Metadata} (h : (e, set) ∈ loadUncompactedEpochs list first count) :
    set = list e ∧ 0 ≤ e ∧ first ≤ e ∧ e < first + count := by
  obtain ⟨n, hn, heq⟩ := mem_map.1 h
  cases heq
  simp only [mem_filter, mem_map, mem_range, decide_eq_true_eq] at hn
  obtain ⟨⟨i, hi, rfl⟩, h0⟩ := hn
  exact ⟨rfl, h0, by omega, by omega⟩

lemma exists_lookup_loadUncompactedEpochs {list : ℤ → List Metadata} {first : ℤ} {count : ℕ}
    (h0 : 0 ≤ e) (h₁ : first ≤ e) (h₂ : e < first + count) :
    (loadUncompactedEpochs list first count).lookup e = some (list e) := by
  have hsome : ((loadUncompactedEpochs list first count).lookup e).isSome := by
    rw [lookup_isSome_iff]
    refine ⟨(e, list e), mem_map.2 ⟨e, ?_, rfl⟩, by simp⟩
    simp only [mem_filter, mem_map, mem_range, decide_eq_true_eq]
    exact ⟨⟨(e - first).toNat, by omega, by omega⟩, h0⟩
  obtain ⟨set, hset⟩ := Option.isSome_iff_exists.1 hsome
  rw [hset, (mem_loadUncompactedEpochs (Lists.mem_of_lookup hset)).1]

lemma foldl_max_spec {α : Type} (f : α → ℤ) : ∀ (l : List α) (w : ℤ),
    w ≤ l.foldl (fun w a => max w (f a)) w ∧ (∀ a ∈ l, f a ≤ l.foldl (fun w a => max w (f a)) w)
      ∧ (l.foldl (fun w a => max w (f a)) w = w
        ∨ ∃ a ∈ l, f a = l.foldl (fun w a => max w (f a)) w)
  | [], w => ⟨le_rfl, by simp, Or.inl rfl⟩
  | a :: l, w => by
    obtain ⟨h₁, h₂, h₃⟩ := foldl_max_spec f l (max w (f a))
    simp only [foldl_cons]
    refine ⟨(le_max_left _ _).trans h₁, fun b hb => ?_, ?_⟩
    · rcases mem_cons.1 hb with rfl | hb
      · exact (le_max_right _ _).trans h₁
      · exact h₂ b hb
    · rcases h₃ with heq | ⟨b, hb, heq⟩
      · rcases max_choice w (f a) with hw | ha
        · exact Or.inl (heq.trans hw)
        · exact Or.inr ⟨a, mem_cons_self, ha.symm.trans heq.symm⟩
      · exact Or.inr ⟨b, mem_cons_of_mem _ hb, heq⟩

lemma le_maxTimestamp (hbm : bm ∈ bms) : bm.timestamp ≤ maxTimestamp bms :=
  (foldl_max_spec (fun bm : Metadata => bm.timestamp) bms zeroTime).2.1 bm hbm

lemma maxTimestamp_le {t : ℤ} (hne : maxTimestamp bms ≠ zeroTime)
    (h : ∀ bm ∈ bms, bm.timestamp ≤ t) : maxTimestamp bms ≤ t := by
  rcases (foldl_max_spec (fun bm : Metadata => bm.timestamp) bms zeroTime).2.2 with heq | ⟨bm, hbm, heq⟩
  · exact absurd heq hne
  · exact heq.ge.trans (h bm hbm)

lemma loadWriteEpoch_nonneg : 0 ≤ loadWriteEpoch bms := (foldl_max_spec Prod.fst _ 0).1

lemma le_loadWriteEpoch (hbm : bm ∈ bms) (he : bm.blobID.epochNumber = some e) :
    e ≤ loadWriteEpoch bms := by
  refine (foldl_max_spec Prod.fst _ 0).2.1 (e, _) (mem_map.2 ⟨e, ?_, rfl⟩)
  exact mem_dedup.2 (mem_filterMap.2 ⟨bm, hbm, he⟩)

variable (bms) in
lemma loadWriteEpoch_attained : loadWriteEpoch bms = 0
    ∨ ∃ bm ∈ bms, bm.blobID.epochNumber = some (loadWriteEpoch bms) := by
  refine (foldl_max_spec Prod.fst (groupByEpochNumber bms) 0).2.2.imp_right ?_
  rintro ⟨g, hg, heq⟩
  obtain ⟨e, he, rfl⟩ := mem_map.1 hg
  obtain ⟨bm, hbm, hbe⟩ := mem_filterMap.1 (mem_dedup.1 he)
  exact ⟨bm, hbm, hbe.trans (congrArg some heq)⟩

end Load

def Chain : ℤ → List RangeMetadata → Prop
  | _, [] => True
  | start, c :: rest => c.minEpoch = start ∧ Chain (c.maxEpoch + 1) rest

def chainEnd : ℤ → List RangeMetadata → ℤ
  | start, [] => start
  | _, c :: rest => chainEnd (c.maxEpoch + 1) rest

lemma foldl_longer {P : List RangeMetadata → Prop} (f : RangeMetadata → List RangeMetadata) :
    ∀ (l : List RangeMetadata) (best : ℤ × List RangeMetadata), P best.2 → (∀ c ∈ l, P (f c)) →
      P (l.foldl (fun best c => longer best (f c)) best).2
  | [], _, h, _ => h
  | c :: l, best, h, hf => by
    refine foldl_longer f l _ ?_ fun c' hc' => hf c' (mem_cons_of_mem _ hc')
    unfold longer
    simp only []
    split_ifs
    · exact hf c mem_cons_self
    · exact h

lemma findLongestRangeCheckpointStartingAt_chain (ranges : List RangeMetadata) :
    ∀ (fuel : ℕ) (start : ℤ),
      Chain start (findLongestRangeCheckpointStartingAt ranges fuel start)
        ∧ findLongestRangeCheckpointStartingAt ranges fuel start ⊆ ranges
  | 0, _ => ⟨trivial, by simp [findLongestRangeCheckpointStartingAt]⟩
  | fuel + 1, start => by
    unfold findLongestRangeCheckpointStartingAt
    refine foldl_longer (P := fun l => Chain start l ∧ l ⊆ ranges) _ _ _ ⟨trivial, by simp⟩ ?_
    intro c hc
    obtain ⟨hmem, hmin⟩ := mem_filter.1 hc
    obtain ⟨hchain, hsub⟩ := findLongestRangeCheckpointStartingAt_chain ranges fuel (c.maxEpoch + 1)
    exact ⟨⟨by simpa using hmin, hchain⟩, cons_subset.2 ⟨hmem, hsub⟩⟩

section Chain

variable {start : ℤ} {chain : List RangeMetadata}

lemma le_chainEnd : ∀ {chain : List RangeMetadata} {start : ℤ}, Chain start chain →
    (∀ c ∈ chain, c.minEpoch ≤ c.maxEpoch) → start ≤ chainEnd start chain
  | [], _, _, _ => le_rfl
  | c :: rest, start, h, hle => by
    have hc := hle c mem_cons_self
    have hrest := le_chainEnd h.2 fun c' hc' => hle c' (mem_cons_of_mem _ hc')
    have hmin := h.1
    simp only [chainEnd]
    omega

lemma exists_mem_of_lt_chainEnd : ∀ {chain : List RangeMetadata} {start e : ℤ},
    Chain start chain → start ≤ e → e < chainEnd start chain →
      ∃ c ∈ chain, c.minEpoch ≤ e ∧ e ≤ c.maxEpoch
  | [], start, e, _, h₁, h₂ => by
    simp only [chainEnd] at h₂
    omega
  | c :: rest, start, e, h, h₁, h₂ => by
    by_cases he : e ≤ c.maxEpoch
    · exact ⟨c, mem_cons_self, by have := h.1; omega, he⟩
    · obtain ⟨c', hc', hin⟩ := exists_mem_of_lt_chainEnd h.2 (by omega) h₂
      exact ⟨c', mem_cons_of_mem _ hc', hin⟩

lemma maxEpoch_lt_chainEnd : ∀ {chain : List RangeMetadata} {start : ℤ}, Chain start chain →
    (∀ c ∈ chain, c.minEpoch ≤ c.maxEpoch) → ∀ c ∈ chain, c.maxEpoch < chainEnd start chain
  | [], _, _, _, c, hc => by cases hc
  | c₀ :: rest, start, h, hle, c, hc => by
    have hle' : ∀ c ∈ rest, c.minEpoch ≤ c.maxEpoch := fun c' hc' =>
      hle c' (mem_cons_of_mem _ hc')
    rcases mem_cons.1 hc with rfl | hc
    · have := le_chainEnd h.2 hle'
      simp only [chainEnd]
      omega
    · exact maxEpoch_lt_chainEnd h.2 hle' c hc

lemma chainEnd_le_iff : ∀ {chain : List RangeMetadata} {start : ℤ} {b : ℤ}, Chain start chain →
    (∀ c ∈ chain, c.minEpoch ≤ c.maxEpoch) → start ≤ b + 1 →
      (chainEnd start chain ≤ b + 1 ↔ ∀ c ∈ chain, c.maxEpoch ≤ b) := by
  intro chain start b h hle hb
  constructor
  · intro hend c hc
    have := maxEpoch_lt_chainEnd h hle c hc
    omega
  · intro hall
    by_contra hlt
    obtain ⟨c, hc, -, hmax⟩ := exists_mem_of_lt_chainEnd (e := b + 1) h hb (by omega)
    have := hall c hc
    omega

lemma takeRanges_of_chain : ∀ {chain : List RangeMetadata} {start : ℤ}, Chain start chain →
    (∀ c ∈ chain, c.minEpoch < c.maxEpoch) →
      takeRanges start chain = (chain.flatMap (·.blobs), chainEnd start chain)
  | [], _, _, _ => rfl
  | c :: rest, start, h, hlt => by
    have hc := hlt c mem_cons_self
    have hmin := h.1
    rw [takeRanges, if_pos (by omega),
      takeRanges_of_chain h.2 fun c' hc' => hlt c' (mem_cons_of_mem _ hc')]
    simp [chainEnd]

lemma CurrentSnapshot.isSettledEpochNumber_iff {cs : CurrentSnapshot} {e : ℤ} :
    cs.isSettledEpochNumber e = true ↔ e + 2 ≤ cs.writeEpoch := by
  unfold isSettledEpochNumber lastSettledEpochNumber numUnsettledEpochs
  rw [decide_eq_true_iff]
  omega

lemma takeRanges_of_lt : ∀ {chain : List RangeMetadata} {start : ℤ},
    (∀ c ∈ chain, c.maxEpoch < start) → takeRanges start chain = ([], start)
  | [], _, _ => rfl
  | c :: rest, start, h => by
    have hc := h c mem_cons_self
    rw [takeRanges, if_neg (by omega)]
    exact takeRanges_of_lt fun c' hc' => h c' (mem_cons_of_mem _ hc')

lemma chainEnd_eq_getLast : ∀ (chain : List RangeMetadata) (start : ℤ),
    chainEnd start chain = (chain.getLast?.map (·.maxEpoch + 1)).getD start
  | [], _ => rfl
  | [_], _ => rfl
  | _ :: c :: rest, _ => by
    rw [chainEnd, chainEnd_eq_getLast (c :: rest), getLast?_cons_cons]
    cases hlast : (c :: rest).getLast? with
    | none => simp at hlast
    | some last => rfl

lemma CurrentSnapshot.getRangeToCompact_spec {cs : CurrentSnapshot} {p : Parameters} {lo hi : ℤ}
    (hfreq : 0 < p.fullCheckpointFrequency) (h : cs.getRangeToCompact p = some (lo, hi)) :
    lo < hi ∧ hi + 2 ≤ cs.writeEpoch ∧ lo = chainEnd 0 cs.longestRangeCheckpointSets := by
  unfold getRangeToCompact lastSettledEpochNumber numUnsettledEpochs at h
  simp only [← chainEnd_eq_getLast] at h
  split_ifs at h with h₁ h₂
  cases h
  exact ⟨by omega, by omega, rfl⟩

end Chain

section MapM

variable {α β : Type} {f : α → Option β}

lemma mapM_eq_none_iff :
    ∀ {l : List α}, l.mapM f = none ↔ ∃ x ∈ l, f x = none
  | [] => by simp
  | x :: l => by
    rw [mapM_cons]
    cases hx : f x with
    | none => simp [hx]
    | some y =>
      cases hl : l.mapM f with
      | none =>
        obtain ⟨z, hz, hfz⟩ := mapM_eq_none_iff.1 hl
        simpa using Or.inr ⟨z, hz, hfz⟩
      | some ys =>
        have hno : ∀ z ∈ l, f z ≠ none := fun z hz hfz => by
          rw [mapM_eq_none_iff.2 ⟨z, hz, hfz⟩] at hl
          cases hl
        simpa [hx] using hno

end MapM

/-- A set that is computed consists of the range checkpoints taken and of what stands for each epoch
after them. -/
lemma mem_of_getCompleteIndexSet_ok {cs : CurrentSnapshot} {list : ℤ → Option (List Metadata)}
    {lo hi start : ℤ} {taken result : List Metadata}
    (htake : takeRanges lo cs.longestRangeCheckpointSets = (taken, start))
    (hok : getCompleteIndexSetForCommittedState cs list lo hi = .ok result) :
    (∀ bm, bm ∈ result ↔ bm ∈ taken ∨ ∃ e, start ≤ e ∧ e ≤ hi
      ∧ ∃ set, getIndexesFromEpochInternal cs list e = some set ∧ bm ∈ set)
    ∧ ∀ e, start ≤ e → e ≤ hi → ∃ set, getIndexesFromEpochInternal cs list e = some set := by
  unfold getCompleteIndexSetForCommittedState at hok
  simp only [htake] at hok
  split_ifs at hok with hcnt
  split at hok
  · cases hok
  · next tmp htmp =>
    cases hok
    have hindex : ∀ e, start ≤ e → e ≤ hi →
        (e - start).toNat ∈ range (hi - start + 1).toNat
          ∧ start + ((e - start).toNat : ℤ) = e := fun e h₁ h₂ =>
      ⟨mem_range.2 (by omega), by omega⟩
    refine ⟨fun bm => ?_, fun e h₁ h₂ => ?_⟩
    · rw [mem_append, mem_flatten]
      refine or_congr Iff.rfl ⟨?_, ?_⟩
      · rintro ⟨set, hset, hbm⟩
        obtain ⟨i, hi, heq⟩ := (Lists.mem_iff_of_mapM htmp set).1 hset
        rw [mem_range] at hi
        exact ⟨_, by omega, by omega, set, heq, hbm⟩
      · rintro ⟨e, hge, hle, set, hset, hbm⟩
        obtain ⟨hmem, he⟩ := hindex e hge hle
        exact ⟨set, (Lists.mem_iff_of_mapM htmp set).2 ⟨_, hmem, by rw [he]; exact hset⟩, hbm⟩
    · obtain ⟨hmem, he⟩ := hindex e h₁ h₂
      rw [← Option.isSome_iff_exists, Option.isSome_iff_ne_none]
      intro hnone
      rw [mapM_eq_none_iff.2 ⟨_, hmem, by rw [he]; exact hnone⟩] at htmp
      cases htmp

end Warphold.Epoch
