import Warphold.Proofs.EpochSteps

/-!
# The epoch protocol loses no index

A single-epoch compaction does not look again whether its snapshot is still valid before it lists
the epoch's blobs.
-/

namespace Warphold.Epoch

open World List Option CurrentSnapshot

def World.compacts (s : World) : EpochAction → Option ℤ
  | .compactList i =>
    match s.tasks i with
    | some (_, .compacting _ e) => some e
    | _ => none
  | _ => none

/-- The condition on a step: a single-epoch compaction that finds blobs to compact finds an epoch of
which no cleanup has deleted any. -/
def World.Safe (s : World) (a : EpochAction) : Prop :=
  ∀ e ∈ s.compacts a, (∃ m ∈ s.blobs, m.blobID.isUncompactedOf e = true) →
    ∀ id ∈ s.cleaned, id.isUncompactedOf e = false

instance (s : World) (a : EpochAction) : Decidable (s.Safe a) := by
  unfold World.Safe
  infer_instance

variable {p : Parameters} {order : List Metadata → List Metadata} {s s' : World}

lemma committedState_eq_some {c : ℕ} {d : ℤ} {k : Snap} (h : s.committedState c d = some k) :
    (s.clients c).known = some k := by
  unfold committedState at h
  split at h
  · next hk =>
    split_ifs at h
    cases h
    exact hk
  · cases h

lemma Inv.committedState (h : Inv p s) {c : ℕ} {d : ℤ} {k : Snap}
    (hk : s.committedState c d = some k) : SnapOk p s k :=
  (h.clients c).known k (committedState_eq_some hk)

lemma Inv.invalidate (h : Inv p s) {c : ℕ} (hs : s.invalidate c = some s') :
    Inv p s' ∧ s' = s.setClient c ⟨none, none⟩ := by
  unfold World.invalidate at hs
  split at hs <;> cases hs
  exact ⟨h.setClient ⟨nofun, nofun⟩ fun _ _ _ => ⟨nofun, nofun⟩, rfl⟩

section Write

variable {v : Option (ℕ × Task)}

lemma moves_setTask {i : ℕ} : Moves none s (s.setTask i v) :=
  ⟨le_rfl, le_rfl, fun _ hm _ => ⟨hm, rfl⟩, fun _ hm _ => .inl hm, fun _ _ => .inl,
    fun _ _ => .inl, Subset.refl _, fun _ _ => id, fun _ _ _ => id⟩

lemma moves_withdrawTask {i : ℕ} {n : Suffix} (ho : s.owner n = some i) (e : ℤ)
    : Moves (some i) s ((s.withdraw e n).setTask i v) :=
  { moves_withdraw ho e with }

lemma WriteOk.withdraw {i : ℕ} {w : Write} (h : WriteOk s i w) {n : Suffix} (hn : n ∈ w.written) :
    WriteOk ((s.withdraw w.epoch n).setTask i v) i
      { w with written := w.written.filter (· ≠ n) } where
  owned := h.owned
  written _ hn' := h.written (mem_of_mem_filter hn')
  timely hle n' hn' := by
    obtain ⟨hn', hne⟩ := mem_filter.1 hn'
    have hmono := (moves_withdrawTask (v := v) (h.owned n (h.written hn)) w.epoch).epoch
    refine mem_filter.2 ⟨h.timely (hmono.trans hle) n' hn', decide_eq_true fun heq => ?_⟩
    cases heq
    simp at hne

lemma Inv.writeBegin (h : Inv p s) {c : ℕ} {shards : List Suffix}
    (hs : stepWrite p s (.writeBegin c shards) = some s') : Inv p s' := by
  simp only [stepWrite] at hs
  split_ifs at hs with hfree
  cases hs
  have hold : ∀ n i, s.owner n = some i → n ∉ shards := fun n i ho hn => by
    have := all_eq_true.1 hfree n hn
    simp [ho] at this
  have m : Moves none s { s.start c (.writing ⟨shards, [], -1⟩) with
      owner := fun n => if n ∈ shards then some s.next else s.owner n } :=
    { moves_setTask (s := s) (i := s.next) (v := some (c, .writing ⟨shards, [], -1⟩)) with
      owner := fun n i ho => by
        simp only [hold n i ho, ↓reduceIte]
        exact ho }
  refine h.move m (h.store.move m (fun _ => .inl) h.store.timely (fun _ _ => .inl) rfl nofun
    (fun i hlt hnone => ?_) (fun n i ho => ?_)) (Nat.le_succ _) (fun _ => .inl rfl)
    (fun i' c' t' ht => ?_) fun _ => .inl
  · exact (Function.update_of_ne (by omega) _ _).trans hnone
  · simp only [] at ho
    split_ifs at ho
    · cases ho
      exact Nat.lt_succ_self _
    · exact (h.store.owners n i ho).trans (Nat.lt_succ_self _)
  · rcases task_update ht with ⟨hold', -⟩ | ⟨rfl, heq⟩
    · exact .inl ⟨hold', nofun⟩
    · cases heq
      refine .inr ⟨Nat.lt_succ_self _, fun n hn => ?_, nofun, nofun⟩
      simp [show n ∈ shards from hn]

lemma Inv.succeed (h : Inv p s) {ids : List BlobID} (hids : ∀ id ∈ ids, ∃ e n i,
      id = .uncompacted e n ∧ id ∈ s.timely ∧ 0 ≤ e ∧ e ≤ s.writeEpoch ∧ s.owner n = some i
        ∧ s.tasks i = none) : Inv p { s with succeeded := ids ++ s.succeeded } := by
  have m : Moves none s { s with succeeded := ids ++ s.succeeded } :=
    ⟨le_rfl, le_rfl, fun _ hm _ => ⟨hm, rfl⟩, fun _ hm _ => .inl hm, fun _ _ => .inl,
      fun _ _ => .inl, subset_append_right _ _, fun _ _ => id, fun _ _ _ => id⟩
  have hst : StoreOk p { s with succeeded := ids ++ s.succeeded } :=
    { h.store with
      succeeded := fun id hid => (mem_append.1 hid).elim (hids id) (h.store.succeeded id) }
  exact h.move m hst le_rfl (fun _ => .inl rfl) (fun _ _ _ ht => .inl ⟨ht, nofun⟩)
    fun _ => .inl

lemma Inv.stepWrite (h : Inv p s) {a : EpochAction}
    (hs : stepWrite p s a = some s') : Inv p s' := by
  cases a
  case writeBegin c shards => exact h.writeBegin hs
  all_goals simp only [World.stepWrite, reduceCtorEq] at hs
  case writeState i =>
    split at hs
    · next c w ht =>
      obtain ⟨k, hk, rfl⟩ := map_eq_some_iff.1 hs
      have hw : WriteOk s i w := (h.tasks i c _ ht).2
      split_ifs with heq
      · refine h.setTask ht fun c' t' ht' => ?_
        cases ht'
        exact ⟨hw, h.committedState hk, heq.symm⟩
      · refine h.setTask ht fun c' t' ht' => ?_
        cases ht'
        exact ⟨hw, h.committedState hk⟩
    · next c w k ht =>
      split_ifs at hs with hnil
      cases hs
      obtain ⟨hw, hk⟩ := (h.tasks i c _ ht).2
      refine h.setTask ht fun c' t' ht' => ?_
      cases ht'
      refine ⟨⟨hw.owned, hw.written, fun _ n hn => ?_⟩, hk, rfl⟩
      rw [show w.written = [] from hnil] at hn
      cases hn
    · cases hs
  case writeDrop i n =>
    split at hs
    · next c w k ht =>
      split_ifs at hs with hn
      cases hs
      obtain ⟨hw, hk⟩ := (h.tasks i c _ ht).2
      have ho := hw.owned n (hw.written hn)
      exact h.withdraw ht ho ⟨hw.withdraw hn, (moves_withdrawTask ho w.epoch).snapOk hk⟩
    · cases hs
  case writePut i n length =>
    split at hs
    · next c w k ht =>
      split_ifs at hs with hn hnow <;> cases hs
      · obtain ⟨hw, hk, he⟩ := (h.tasks i c _ ht).2
        have m := moves_putShard (s := s) w.epoch n length
        refine (h.putShard w.epoch n length).setTask ht fun c' t' ht' => ?_
        cases ht'
        have hw' := m.writeOk (by simp) hw
        refine ⟨⟨hw'.owned, cons_subset.2 ⟨hn.1, hw.written⟩, fun hle n' hn' => ?_⟩,
          m.snapOk hk, he⟩
        rcases mem_cons.1 hn' with rfl | hn'
        · simp only [World.putShard, m.epoch.trans hle, ↓reduceIte]
          exact List.mem_cons_self
        · exact hw'.timely hle n' hn'
      · refine h.setTask ht fun c' t' ht' => ?_
        cases ht'
        exact (h.tasks i c _ ht).2.1
    · cases hs
  case writeDone i =>
    split at hs
    · next c w k ht =>
      split_ifs at hs with hall
      obtain ⟨s₁, hinv, rfl⟩ := map_eq_some_iff.1 hs
      obtain ⟨h₁, rfl⟩ := h.invalidate hinv
      obtain ⟨hw, hk, he⟩ := (h.tasks i c _ ht).2
      refine h₁.setTask ht fun c' t' ht' => ?_
      cases ht'
      refine ⟨⟨hw.owned, hw.written, hw.timely⟩, he ▸ hk.nonneg, he ▸ hk.epoch, le_rfl, ?_,
        hw.timely⟩
      simp only [World.setClient, Function.update_self]
      exact ⟨by simp, by simp⟩
    · cases hs
  case writeCheck i =>
    split at hs
    · next c w since ht =>
      obtain ⟨k, hk, rfl⟩ := map_eq_some_iff.1 hs
      obtain ⟨hw, h0, hle, -, hsince, htimely⟩ := (h.tasks i c _ ht).2
      split_ifs with hslow
      · refine h.setTask ht fun c' t' ht' => ?_
        cases ht'
        exact hw
      · refine (h.abandon i).succeed fun id hid => ?_
        obtain ⟨n, hn, rfl⟩ := mem_map.1 hid
        have hlt : since ≤ w.epoch + 1 := by
          have := hsince.1 k (committedState_eq_some hk)
          omega
        exact ⟨w.epoch, n, i, rfl, htimely hlt n hn, h0, hle, hw.owned n (hw.written hn),
          Function.update_self _ _ _⟩
    · cases hs
  case writeWithdraw i n =>
    split at hs
    · next c w ht =>
      split_ifs at hs with hn
      cases hs
      have hw : WriteOk s i w := (h.tasks i c _ ht).2
      exact h.withdraw ht (hw.owned n (hw.written hn)) (hw.withdraw hn)
    · cases hs

end Write

section Indexes

variable {k : Snap} {listed : List (ℤ × List Metadata)} {e : ℤ}

variable {bms : List Metadata}

lemma mem_coveredBy_of_uncompacted {n : Suffix}
    (h : .uncompacted e n ∈ bms.map (·.blobID)) : .uncompacted e n ∈ s.coveredBy bms := by
  obtain ⟨m, hm, hid⟩ := mem_map.1 h
  refine mem_flatMap.2 ⟨m, hm, ?_⟩
  simp [indexes, hid, BlobID.isUncompacted]

lemma covers_subset_coveredBy {m : Metadata} (hm : m ∈ bms)
    (hid : m.blobID.isUncompacted = false) : s.covers m.blobID ⊆ s.coveredBy bms := by
  intro id h
  refine mem_flatMap.2 ⟨m, hm, ?_⟩
  simpa [indexes, hid] using h

lemma coveredBy_mono {bms' : List Metadata} (h : bms ⊆ bms') :
    s.coveredBy bms ⊆ s.coveredBy bms' := by
  intro id hid
  obtain ⟨m, hm, hid⟩ := mem_flatMap.1 hid
  exact mem_flatMap.2 ⟨m, h hm, hid⟩

lemma StoreOk.covers_list (h : StoreOk p s) (ho : ∀ l, (order l).Perm l)
    (hcl : ∀ n, .uncompacted e n ∉ s.cleaned) :
    s.Covers e ((s.list order (·.isUncompactedOf e)).map (·.blobID)) :=
  fun n hn => h.mem_list_of_timely ho hn (hcl n)

lemma SnapOk.timely (hk : SnapOk p s k) (hst : StoreOk p s) {n : Suffix}
    (h : .uncompacted e n ∈ k.before) : .uncompacted e n ∈ s.timely :=
  (hst.timely_of_succeeded (hk.before.1 h)).1

lemma ListedOk.cons (hp : p.Valid) (ho : ∀ l, (order l).Perm l) (hst : StoreOk p s)
    (hk : SnapOk p s k) (h : ListedOk s k listed) :
    ListedOk s k ((e, s.list order (·.isUncompactedOf e)) :: listed) := by
  intro hnow e' bms hmem
  rcases mem_cons.1 hmem with heq | hmem
  · cases heq
    by_cases hsup : s.Superseded p e
    · obtain ⟨m, hm, n, hid, hlt⟩ := hsup.before hp hk.begun (hk.valid ▸ hnow)
      exact .inl (hk.old m hm e n hid hlt)
    · have hcov := hst.covers_list ho fun n hn => hsup (hst.cleaned e n hn)
      exact .inr ⟨fun n hn => hcov n (hk.timely hst hn), fun _ => hcov⟩
  · exact h hnow e' bms hmem

/-- What stands for an epoch in an index set holds what the snapshot must show of it, and all that
counts if the epoch is settled. -/
lemma SnapOk.indexes (hst : StoreOk p s) (hk : SnapOk p s k) (h : ListedOk s k listed)
    (hnow : s.now ≤ k.cs.validUntil) {set : List Metadata}
    (hset : getIndexesFromEpochInternal k.cs (fun e => listed.lookup e) e = some set) :
    (∀ n, .uncompacted e n ∈ k.before → .uncompacted e n ∈ s.coveredBy set)
      ∧ (e + 2 ≤ k.cs.writeEpoch → s.Covers e (s.coveredBy set)) := by
  unfold getIndexesFromEpochInternal at hset
  split at hset
  · next set' hsingle =>
    cases hset
    split_ifs at hsingle
    obtain ⟨hne, hall⟩ := hk.singles e set hsingle
    obtain ⟨m, hm⟩ := exists_mem_of_ne_nil set hne
    obtain ⟨hmem, n, hid⟩ := hall m hm
    have hcov : s.Covers e (s.coveredBy set) := fun n' hn' =>
      covers_subset_coveredBy hm (by rw [hid]; rfl) ((hst.singles m hmem e n hid).2.2 n' hn')
    exact ⟨fun n' hn' => hcov n' (hk.timely hst hn'), fun _ => hcov⟩
  · next hsingle =>
    split at hset
    · next bms hbms =>
      cases hset
      obtain ⟨hge, -, hbefore⟩ := hk.listed e set (Lists.mem_of_lookup hbms)
      exact ⟨fun n hn => mem_coveredBy_of_uncompacted (hbefore n hn), fun hle => by omega⟩
    · rcases h hnow e set (Lists.mem_of_lookup hset) with ⟨hle, set', hset'⟩ | ⟨hbefore, hcov⟩
      · rw [if_pos (isSettledEpochNumber_iff.2 hle), hset'] at hsingle
        cases hsingle
      · exact ⟨fun n hn => mem_coveredBy_of_uncompacted (hbefore n hn),
          fun hle n hn => mem_coveredBy_of_uncompacted (hcov hle n hn)⟩

lemma SnapOk.covers_range (hst : StoreOk p s) (hk : SnapOk p s k) (h : ListedOk s k listed)
    (hnow : s.now ≤ k.cs.validUntil) {lo hi : ℤ} (hhi : hi + 2 ≤ k.cs.writeEpoch)
    (hlo : ∀ c ∈ k.cs.longestRangeCheckpointSets, c.maxEpoch < lo)
    (hok : getCompleteIndexSetForCommittedState k.cs (fun e => listed.lookup e) lo hi = .ok bms)
    (h₁ : lo ≤ e) (h₂ : e ≤ hi) : s.Covers e (s.coveredBy bms) := by
  obtain ⟨hmem, hset⟩ := mem_of_getCompleteIndexSet_ok (takeRanges_of_lt hlo) hok
  obtain ⟨set, hset⟩ := hset e h₁ h₂
  have hsub : set ⊆ bms := fun m hm => (hmem m).2 (.inr ⟨e, h₁, h₂, set, hset, hm⟩)
  exact fun n hn => coveredBy_mono hsub ((hk.indexes hst h hnow hset).2 (by omega) n hn)

lemma SnapOk.before_subset (hst : StoreOk p s) (hk : SnapOk p s k) (h : ListedOk s k listed)
    (hnow : s.now ≤ k.cs.validUntil)
    (hok : getCompleteIndexSetForCommittedState k.cs (fun e => listed.lookup e) 0
      (k.cs.writeEpoch + 1) = .ok bms) : k.before ⊆ s.coveredBy bms := by
  intro id hid
  obtain ⟨e, n, -, rfl, htimely, h0, -⟩ := hst.succeeded id (hk.before.1 hid)
  obtain ⟨hmem, hset⟩ := mem_of_getCompleteIndexSet_ok
    (takeRanges_of_chain hk.chain fun c hc => (hk.ranges c hc).1) hok
  by_cases hlt : e < chainEnd 0 k.cs.longestRangeCheckpointSets
  · obtain ⟨c, hc, h₁, h₂⟩ := exists_mem_of_lt_chainEnd hk.chain h0 hlt
    obtain ⟨-, hne, hall⟩ := hk.ranges c hc
    obtain ⟨m, hm⟩ := exists_mem_of_ne_nil c.blobs hne
    obtain ⟨hstored, n', hid'⟩ := hall m hm
    have hm' : m ∈ bms := (hmem m).2 (.inl (mem_flatMap.2 ⟨c, hc, hm⟩))
    exact covers_subset_coveredBy hm' (by rw [hid']; rfl)
      ((hst.ranges m hstored _ _ n' hid').2.2 e h₁ h₂ n htimely)
  · have hle := hk.before.2 e n hid
    obtain ⟨set, hset⟩ := hset e (by omega) (by omega)
    refine coveredBy_mono (fun m hm => ?_) ((hk.indexes hst h hnow hset).1 n hid)
    exact (hmem m).2 (.inr ⟨e, by omega, by omega, set, hset, hm⟩)

end Indexes

section Compact

lemma epochToCompact_settled {cs : CurrentSnapshot} {e : ℤ} (h : cs.epochToCompact = some e) :
    e + 2 ≤ cs.writeEpoch := by
  unfold epochToCompact at h
  split at h
  · cases h
  · split_ifs at h with _ hsettled
    cases h
    rw [Bool.not_eq_true', Bool.not_eq_false] at hsettled
    exact isSettledEpochNumber_iff.1 hsettled

lemma Inv.compactList (ho : ∀ l, (order l).Perm l) (h : Inv p s) {i : ℕ}
    (hsafe : s.Safe (.compactList i))
    (hs : stepCompact p order s (.compactList i) = some s') : Inv p s' := by
  simp only [stepCompact] at hs
  split at hs
  · next c k e ht =>
    obtain ⟨hk, he⟩ := (h.tasks i c _ ht).2
    have hnone : k.cs.uncompactedEpochSets.lookup e = none := by
      rw [eq_none_iff_forall_ne_some]
      intro bms hbms
      have := (hk.listed e bms (Lists.mem_of_lookup hbms)).1
      omega
    rw [hnone, getD_none] at hs
    split_ifs at hs with hnil <;> cases hs
    · exact h.abandon i
    · obtain ⟨m, hm⟩ := exists_mem_of_ne_nil _ hnil
      have hclean := hsafe e (by simp [compacts, ht]) ⟨m, (mem_list ho).1 hm⟩
      have hcov := h.store.covers_list ho (e := e) fun n hn => by
        simpa [BlobID.isUncompactedOf] using hclean _ hn
      refine h.setTask ht fun c' t' ht' => ?_
      cases ht'
      exact ⟨he.trans hk.epoch, fun n hn => mem_coveredBy_of_uncompacted (hcov n hn)⟩
  · cases hs

lemma Inv.stepCompact (hp : p.Valid) (ho : ∀ l, (order l).Perm l) (h : Inv p s)
    {a : EpochAction} (hsafe : s.Safe a) (hs : stepCompact p order s a = some s') :
    Inv p s' := by
  cases a
  case compactList i => exact h.compactList ho hsafe hs
  all_goals simp only [World.stepCompact, reduceCtorEq] at hs
  case advance c =>
    split at hs
    · split_ifs at hs
      cases hs
      exact h.start c trivial
    · cases hs
  case advancePut i =>
    split at hs <;> cases hs
    exact (h.put rfl 12).abandon i
  case compactBegin c =>
    obtain ⟨k, hk, hs⟩ := bind_eq_some_iff.1 hs
    obtain ⟨e, he, rfl⟩ := map_eq_some_iff.1 hs
    exact h.start c ⟨h.committedState hk, epochToCompact_settled he⟩
  case compactPut i name set length =>
    split at hs
    · next c e covers ht =>
      obtain ⟨s₁, hput, rfl⟩ := map_eq_some_iff.1 hs
      obtain ⟨he, hcov⟩ := (h.tasks i c _ ht).2
      obtain ⟨m, -⟩ := moves_putCompacted hput
      refine (h.putCompacted hput fun bm hid hstamp hcovers => ?_).abandon i
      refine ⟨hstamp.trans_le m.now, fun e' n hid' => ?_, fun lo hi n hid' => ?_⟩
      · cases hid.symm.trans hid'
        exact ⟨⟨set, rfl⟩, he.trans m.epoch, hid ▸ hcovers ▸ m.covers he hcov⟩
      · cases hid.symm.trans hid'
    · cases hs
  case rangeBegin c =>
    obtain ⟨k, hk, hs⟩ := bind_eq_some_iff.1 hs
    obtain ⟨⟨lo, hi⟩, hr, rfl⟩ := map_eq_some_iff.1 hs
    have hok := h.committedState hk
    obtain ⟨hlt, hhi, rfl⟩ := getRangeToCompact_spec hp.margin.1 hr
    refine h.start c ⟨hok, hlt, hhi, maxEpoch_lt_chainEnd hok.chain fun c hc => ?_, nofun⟩
    exact (hok.ranges c hc).1.le
  case rangeList i e =>
    split at hs <;> cases hs
    next c k lo hi listed ht =>
    obtain ⟨hk, hlt, hhi, hchain, hlisted⟩ := (h.tasks i c _ ht).2
    refine h.setTask ht fun c' t' ht' => ?_
    cases ht'
    exact ⟨hk, hlt, hhi, hchain, hlisted.cons hp ho h.store hk⟩
  case rangeCheck i =>
    split at hs
    · next c k lo hi listed ht =>
      split at hs
      · next bms hok =>
        split_ifs at hs with hnow
        cases hs
        obtain ⟨hk, hlt, hhi, hchain, hlisted⟩ := (h.tasks i c _ ht).2
        refine h.setTask ht fun c' t' ht' => ?_
        cases ht'
        exact ⟨hlt, hhi.trans hk.epoch, fun e h₁ h₂ =>
          hk.covers_range h.store hlisted hnow hhi hchain hok h₁ h₂⟩
      · cases hs
    · cases hs
  case rangePut i name set length =>
    split at hs
    · next c lo hi covers ht =>
      obtain ⟨s₁, hput, rfl⟩ := map_eq_some_iff.1 hs
      obtain ⟨hlt, hhi, hcov⟩ := (h.tasks i c _ ht).2
      obtain ⟨m, -⟩ := moves_putCompacted hput
      refine (h.putCompacted hput fun bm hid hstamp hcovers => ?_).abandon i
      refine ⟨hstamp.trans_le m.now, fun e' n hid' => ?_, fun lo' hi' n hid' => ?_⟩
      · cases hid.symm.trans hid'
      · cases hid.symm.trans hid'
        exact ⟨hlt, hhi.trans m.epoch, fun e h₁ h₂ =>
          hid ▸ hcovers ▸ m.covers (by omega) (hcov e h₁ h₂)⟩
    · cases hs

end Compact

section Clean

lemma SnapOk.superseded {k : Snap} (hk : SnapOk p s k)
    (hmax : k.cs.maxCleanupTime ≠ zeroTime) {bms : List Metadata} {id : BlobID}
    (hbms : ∀ m ∈ bms, m.blobID.isUncompacted = true) (hid : id ∈ k.cs.superseded p bms) :
    ∃ e n, id = .uncompacted e n ∧ s.Superseded p e := by
  obtain ⟨m, hm, rfl⟩ := mem_map.1 hid
  obtain ⟨hm, hearly⟩ := mem_filter.1 hm
  cases hkind : m.blobID with
  | uncompacted e n =>
    refine ⟨e, n, rfl, ?_⟩
    simp only [hkind, BlobID.epochNumber, blobSetWrittenEarlyEnough, Bool.and_eq_true,
      decide_eq_true_eq] at hearly
    obtain ⟨hne, hlt⟩ := hearly
    have hnow : k.cs.maxCleanupTime ≤ s.now := maxTimestamp_le hmax fun m hm => by
      obtain ⟨⟨e', set⟩, hset, hm⟩ := mem_flatMap.1 hm
      exact (hk.listed e' set hset).2.1 m hm
    cases hset : k.cs.singleEpochCompactionSets.lookup e with
    | none =>
      rw [hset] at hne
      exact absurd rfl hne
    | some set =>
      rw [hset, getD_some] at hlt
      obtain ⟨hnil, hall⟩ := hk.singles e set hset
      obtain ⟨bm, hbm⟩ := exists_mem_of_ne_nil set hnil
      obtain ⟨hstored, hsingle⟩ := hall bm hbm
      have := le_maxTimestamp hbm
      exact ⟨bm, hstored, hsingle, by omega⟩
  | _ =>
    have := hbms m hm
    rw [hkind] at this
    cases this

lemma SnapOk.oldMarkers {k : Snap} (hk : SnapOk p s k) {id : BlobID}
    (hid : id ∈ k.cs.oldMarkers ++ k.cs.oldWatermarks p) :
    (∃ e, id = .epochMarker e ∧ e < s.writeEpoch) ∨ id.isDeletionWatermark = true := by
  rcases mem_append.1 hid with hid | hid <;> obtain ⟨m, hm, rfl⟩ := mem_map.1 hid
  · obtain ⟨hm, hold⟩ := mem_filter.1 hm
    have hkind := hk.markers m hm
    cases hmid : m.blobID with
    | epochMarker e =>
      simp only [hmid, BlobID.epochNumber, decide_eq_true_eq] at hold
      have := hk.epoch
      exact .inl ⟨e, rfl, by omega⟩
    | _ =>
      rw [hmid] at hkind
      cases hkind
  · exact .inr (hk.watermarks m (mem_filter.1 hm).1)

lemma Inv.stepClean (ho : ∀ l, (order l).Perm l) (h : Inv p s) {a : EpochAction}
    (hs : stepClean p order s a = some s') : Inv p s' := by
  cases a
  all_goals simp only [World.stepClean, reduceCtorEq] at hs
  case cleanupBegin c =>
    obtain ⟨k, hk, hs⟩ := Option.bind_eq_some_iff.1 hs
    split_ifs at hs with hmax
    cases hs
    exact h.start c ⟨h.committedState hk, hmax⟩
  case cleanupList i =>
    split at hs <;> cases hs
    next c k ht =>
    obtain ⟨hk, hmax⟩ := (h.tasks i c _ ht).2
    refine h.setTask ht fun c' t' ht' => ?_
    cases ht'
    exact fun id hid => hk.superseded hmax (fun m hm => ((mem_list ho).1 hm).2) hid
  case cleanupDelete i id =>
    split at hs
    · next c ids ht =>
      split_ifs at hs with hid
      cases hs
      obtain ⟨e, n, rfl, hsup⟩ := (h.tasks i c _ ht).2 id hid
      exact h.clean hsup
    · cases hs
  case markersBegin c =>
    obtain ⟨k, hk, hs⟩ := bind_eq_some_iff.1 hs
    split_ifs at hs
    cases hs
    exact h.start c fun id hid => (h.committedState hk).oldMarkers hid
  case markersDelete i id =>
    split at hs
    · next c ids ht =>
      split_ifs at hs with hid
      cases hs
      rcases (h.tasks i c _ ht).2 id hid with ⟨e, rfl, hlt⟩ | hkind
      · refine h.deleteMarker rfl rfl fun heq => ?_
        cases heq
        exact lt_irrefl _ hlt
      · cases id <;> cases hkind
        exact h.deleteMarker rfl rfl nofun
    · cases hs
  case watermarkBegin c t =>
    obtain ⟨k, hk, hs⟩ := bind_eq_some_iff.1 hs
    split_ifs at hs
    cases hs
    exact h.start c trivial
  case watermarkPut i =>
    split at hs <;> cases hs
    next c t ht =>
    refine (h.put rfl 18).setTask ht fun c' t' ht' => ?_
    cases ht'
    trivial
  case watermarkDone i =>
    split at hs
    · obtain ⟨s₁, hinv, rfl⟩ := map_eq_some_iff.1 hs
      exact (h.invalidate hinv).1.abandon i
    · cases hs

end Clean

lemma Inv.read (h : Inv p s) (r : IndexRead) (hr : r.before ⊆ r.covered) :
    Inv p { s with reads := r :: s.reads } := by
  have q : Quiet s { s with reads := r :: s.reads } :=
    ⟨rfl, rfl, rfl, rfl, rfl, rfl, le_rfl, le_rfl, fun _ _ => id⟩
  refine h.move (q.moves fun _ _ _ => id) (q.storeOk h.store) le_rfl (fun _ => .inl rfl)
    (fun _ _ _ ht => .inl ⟨ht, nofun⟩) fun r' hr' => ?_
  rcases mem_cons.1 hr' with rfl | hr'
  · exact .inr hr
  · exact .inl hr'

lemma Inv.stepRead (hp : p.Valid) (ho : ∀ l, (order l).Perm l) (h : Inv p s) {a : EpochAction}
    (hs : stepRead order s a = some s') : Inv p s' := by
  cases a
  all_goals simp only [World.stepRead, reduceCtorEq] at hs
  case readBegin c =>
    obtain ⟨k, hk, rfl⟩ := Option.map_eq_some_iff.1 hs
    exact h.start c ⟨h.committedState hk, nofun⟩
  case readList i e =>
    split at hs <;> cases hs
    next c k listed ht =>
    obtain ⟨hk, hlisted⟩ := (h.tasks i c _ ht).2
    refine h.setTask ht fun c' t' ht' => ?_
    cases ht'
    exact ⟨hk, hlisted.cons hp ho h.store hk⟩
  case readEnd i =>
    split at hs
    · next c k listed ht =>
      split at hs
      · next bms hok =>
        split_ifs at hs with hnow
        cases hs
        obtain ⟨hk, hlisted⟩ := (h.tasks i c _ ht).2
        exact (h.abandon i).read ⟨k.before, s.coveredBy bms⟩
          (hk.before_subset h.store hlisted hnow.le hok)
      · cases hs
    · cases hs

lemma Inv.step (hp : p.Valid) (ho : ∀ l, (order l).Perm l) (h : Inv p s) {a : EpochAction}
    (hsafe : s.Safe a) (hs : step p order s a = some s') : Inv p s' := by
  cases a
  all_goals simp only [World.step] at hs
  case tick d =>
    cases hs
    exact h.tick d
  case abandon i =>
    cases hs
    exact h.abandon i
  case refreshBegin | refreshMarkers | refreshWatermarks | refreshSingles | refreshRanges
      | refreshUncompacted | refreshEnd => exact h.stepRefresh hp ho hs
  case writeBegin | writeState | writeDrop | writePut | writeDone | writeCheck
      | writeWithdraw => exact h.stepWrite hs
  case advance | advancePut | compactBegin | compactList | compactPut | rangeBegin | rangeList
      | rangeCheck | rangePut => exact h.stepCompact hp ho hsafe hs
  case cleanupBegin | cleanupList | cleanupDelete | markersBegin | markersDelete | watermarkBegin
      | watermarkPut | watermarkDone => exact h.stepClean ho hs
  case readBegin | readList | readEnd => exact h.stepRead hp ho hs

def World.empty (now : ℤ) : World where
  now
  blobs := []
  covers _ := []
  clients _ := ⟨none, none⟩
  tasks _ := none
  next := 0
  owner _ := none
  timely := []
  succeeded := []
  cleaned := []
  reads := []

def World.Initial (s : World) : Prop := ∃ now, s = .empty now

lemma Inv.empty (now : ℤ) : Inv p (.empty now) :=
  ⟨⟨nofun, nofun, nofun, nofun, nofun, nofun, nofun⟩, fun _ => ⟨nofun, nofun⟩, nofun, nofun⟩

/-- The index set computed from a snapshot covers every index blob whose write had succeeded when the
snapshot's refresh began. -/
theorem World.reach_reads_complete (hp : p.Valid) (ho : ∀ l, (order l).Perm l) {s : World}
    (h : Runs.Reach (World.step p order) World.Safe World.Initial s) :
    ∀ r ∈ s.reads, r.before ⊆ r.covered := by
  refine Inv.reads (p := p) (Runs.Reach.invariant ?_ (fun s a s' hi => hi.step hp ho) h)
  rintro s ⟨now, rfl⟩
  exact Inv.empty now

/-- An index blob whose write has succeeded is in the store, or a compaction in the store has it. -/
theorem World.reach_index_kept (hp : p.Valid) (ho : ∀ l, (order l).Perm l) {s : World}
    (h : Runs.Reach (World.step p order) World.Safe World.Initial s) :
    ∀ id ∈ s.succeeded, s.has id = true ∨ ∃ m ∈ s.blobs, id ∈ s.covers m.blobID := by
  have hinv : Inv p s := h.invariant (fun _ ⟨now, h₀⟩ => h₀ ▸ Inv.empty now)
    fun _ _ _ hi => hi.step hp ho
  intro id hid
  obtain ⟨e, n, -, rfl, ht, -⟩ := hinv.store.succeeded id hid
  refine (hinv.store.timely e n ht).imp_right fun hclean => ?_
  obtain ⟨m, hm, ⟨n', hn'⟩, -⟩ := hinv.store.cleaned e n hclean
  exact ⟨m, hm, (hinv.store.singles m hm e n' hn').2.2 n ht⟩

section Runs

def Parameters.tight : Parameters :=
  ⟨true, 10 ^ 9, 7, 3 * 10 ^ 9, 600 * 10 ^ 9, 10, 2 ^ 20⟩

lemma Parameters.tight_valid : Parameters.tight.Valid := ⟨rfl, by decide⟩

def refreshing (epochs : List ℤ) : List EpochAction :=
  [.refreshBegin 0, .refreshMarkers 0, .refreshWatermarks 0, .refreshSingles 0, .refreshRanges 0]
    ++ epochs.map (.refreshUncompacted 0 ·) ++ [.refreshEnd 0]

def shard (n : UInt8) : Suffix := ⟨[n], none⟩

def putting (i : ℕ) (n : UInt8) : List EpochAction :=
  [.writeBegin 0 [shard n], .writeState i, .writeState i, .writePut i (shard n) (2 ^ 20)]

def advancing : List EpochAction := List.flatten
  [refreshing [0, 1], putting 0 1, [.writeDone 0], refreshing [0, 1],
    [.writeCheck 0, .tick (600 * 10 ^ 9)], refreshing [0, 1], putting 1 2, refreshing [0, 1],
    [.advance 0, .advancePut 2], refreshing [0, 1, 2], putting 3 3, [.tick (600 * 10 ^ 9)],
    refreshing [0, 1, 2], putting 4 4, refreshing [0, 1, 2], [.advance 0, .advancePut 5],
    refreshing [1, 2, 3]]

def cleaning : List EpochAction := List.flatten
  [[.compactBegin 0, .compactBegin 0, .compactList 6, .compactPut 6 [7] [7] 100, .tick (4 * 10 ^ 9)],
    refreshing [1, 2, 3], putting 8 5, refreshing [1, 2, 3],
    [.cleanupBegin 0, .cleanupList 9, .cleanupDelete 9 (.uncompacted 0 (shard 1))]]

def reading : List EpochAction := List.flatten [refreshing [1, 2, 3], [.readBegin 0, .readEnd 10]]

/-- The other compaction lists what is left of epoch 0, and the next refresh takes its set. -/
theorem World.compaction_of_cleaned_epoch : Parameters.tight.Valid ∧
    ∃ s, Runs.Reach (World.step .tight id) Runs.Free World.Initial s
      ∧ ∃ r ∈ s.reads, .uncompacted 0 (shard 1) ∈ r.before
        ∧ .uncompacted 0 (shard 1) ∉ r.covered :=
  ⟨Parameters.tight_valid, Runs.exists_reach ⟨0, rfl⟩
    (flatten [advancing, cleaning, [.compactList 7, .compactPut 7 [6] [6] 100], reading])
    (by decide +kernel)⟩

/-- Without it, the set of the first compaction stands for the shard that is gone. -/
theorem World.reach_reads_complete_cleaned :
    ∃ s, Runs.Reach (World.step .tight id) World.Safe World.Initial s
      ∧ (∃ r ∈ s.reads, .uncompacted 0 (shard 1) ∈ r.before)
      ∧ ∀ r ∈ s.reads, r.before ⊆ r.covered :=
  Runs.exists_reach_with ⟨0, rfl⟩ (flatten [advancing, cleaning, reading]) (by decide +kernel)
    fun _ hreach _ => reach_reads_complete Parameters.tight_valid (fun _ => .refl _) hreach

/-- After the cleanup the shard is gone, and the compaction has it. -/
theorem World.reach_index_kept_cleaned :
    ∃ s, Runs.Reach (World.step .tight id) World.Safe World.Initial s
      ∧ (.uncompacted 0 (shard 1) ∈ s.succeeded ∧ s.has (.uncompacted 0 (shard 1)) = false)
      ∧ ∀ id ∈ s.succeeded, s.has id = true ∨ ∃ m ∈ s.blobs, id ∈ s.covers m.blobID :=
  Runs.exists_reach_with ⟨0, rfl⟩ (flatten [advancing, cleaning]) (by decide +kernel)
    fun _ hreach _ => reach_index_kept Parameters.tight_valid (fun _ => .refl _) hreach

end Runs

end Warphold.Epoch
