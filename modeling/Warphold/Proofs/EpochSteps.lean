import Warphold.Proofs.EpochInvariant

/-!
# The steps of the epoch protocol keep the invariant

Most steps leave the store alone.
-/

namespace Warphold.Epoch

open List World Function Refresh BlobID

namespace World

variable {s : World} {id : BlobID} {length : ℤ} {m : Metadata} {e : ℤ}

lemma mem_put : m ∈ (s.put id length).blobs ↔
    m = ⟨id, length, s.now⟩ ∨ m ∈ s.blobs ∧ m.blobID ≠ id := by
  simp [put, mem_filter]

lemma mem_delete : m ∈ (s.delete id).blobs ↔ m ∈ s.blobs ∧ m.blobID ≠ id := by
  simp [delete, mem_filter]

lemma has_iff : s.has id = true ↔ ∃ m ∈ s.blobs, m.blobID = id := by
  simp [has]

lemma mem_list {order : List Metadata → List Metadata} (ho : ∀ l, (order l).Perm l)
    {q : BlobID → Bool} : m ∈ s.list order q ↔ m ∈ s.blobs ∧ q m.blobID = true := by
  rw [list, (ho _).mem_iff, mem_filter]

lemma mem_markers : m ∈ s.blobs.filter (fun bm => bm.blobID.isEpochMarker) ↔
    m ∈ s.blobs ∧ ∃ e, m.blobID = .epochMarker e := by
  rw [mem_filter]
  cases hid : m.blobID <;> simp [isEpochMarker]

lemma loadWriteEpoch_perm {l l' : List Metadata} (h : l.Perm l') :
    loadWriteEpoch l = loadWriteEpoch l' := by
  have hle : ∀ {l l' : List Metadata}, l.Perm l' → loadWriteEpoch l ≤ loadWriteEpoch l' := by
    intro l l' h
    rcases loadWriteEpoch_attained l with h0 | ⟨m, hm, he⟩
    · rw [h0]
      exact loadWriteEpoch_nonneg
    · exact le_loadWriteEpoch (h.mem_iff.1 hm) he
  exact le_antisymm (hle h) (hle h.symm)

lemma writeEpoch_nonneg : 0 ≤ s.writeEpoch := loadWriteEpoch_nonneg

lemma writeEpoch_le {s' : World}
    (h : ∀ m ∈ s.blobs, m.blobID = .epochMarker s.writeEpoch →
      ∃ m' ∈ s'.blobs, m'.blobID = .epochMarker s.writeEpoch) : s.writeEpoch ≤ s'.writeEpoch := by
  rcases loadWriteEpoch_attained (s.blobs.filter fun bm => bm.blobID.isEpochMarker)
    with h0 | ⟨m, hm, he⟩
  · rw [show s.writeEpoch = 0 from h0]
    exact writeEpoch_nonneg
  · obtain ⟨hm, e, hid⟩ := mem_markers.1 hm
    rw [hid] at he
    cases he
    obtain ⟨m', hm', hid'⟩ := h m hm hid
    exact le_loadWriteEpoch (mem_markers.2 ⟨hm', _, hid'⟩) (by rw [hid']; rfl)

lemma writeEpoch_le_put : s.writeEpoch ≤ (s.put id length).writeEpoch := by
  refine writeEpoch_le fun m hm hid => ?_
  by_cases heq : m.blobID = id
  · exact ⟨_, mem_put.2 (.inl rfl), by rw [← heq, hid]⟩
  · exact ⟨m, mem_put.2 (.inr ⟨hm, heq⟩), hid⟩

lemma writeEpoch_le_delete (h : id ≠ .epochMarker s.writeEpoch) :
    s.writeEpoch ≤ (s.delete id).writeEpoch :=
  writeEpoch_le fun m hm hid => ⟨m, mem_delete.2 ⟨hm, fun heq => h (heq ▸ hid)⟩, hid⟩

end World

open World

/-- The step leaves the store and its history alone, and revives no finished operation. -/
structure Quiet (s s' : World) : Prop where
  blobs : s'.blobs = s.blobs
  covers : s'.covers = s.covers
  timely : s'.timely = s.timely
  cleaned : s'.cleaned = s.cleaned
  succeeded : s'.succeeded = s.succeeded
  owner : s'.owner = s.owner
  now : s.now ≤ s'.now
  next : s.next ≤ s'.next
  finished : ∀ i < s.next, s.tasks i = none → s'.tasks i = none

section Quiet

variable {p : Parameters} {s s' : World}

lemma Quiet.writeEpoch (q : Quiet s s') : s'.writeEpoch = s.writeEpoch := by
  simp only [World.writeEpoch, q.blobs]

lemma Quiet.storeOk (q : Quiet s s') (h : StoreOk p s) : StoreOk p s' where
  stamped m hm := (h.stamped m (q.blobs ▸ hm)).trans q.now
  timely e n hn := by
    rw [q.timely] at hn
    rw [q.cleaned, has, q.blobs]
    exact h.timely e n hn
  cleaned e n hn := by
    obtain ⟨m, hm, hid, hlt⟩ := h.cleaned e n (q.cleaned ▸ hn)
    exact ⟨m, q.blobs ▸ hm, hid, hlt.trans_le q.now⟩
  singles m hm e n hid := by
    simp only [q.writeEpoch, q.covers, Covers, q.timely]
    exact h.singles m (q.blobs ▸ hm) e n hid
  ranges m hm lo hi n hid := by
    simp only [q.writeEpoch, q.covers, Covers, q.timely]
    exact h.ranges m (q.blobs ▸ hm) lo hi n hid
  succeeded id hid := by
    obtain ⟨e, n, i, heq, ht, h0, hle, ho, hdone⟩ := h.succeeded id (q.succeeded ▸ hid)
    exact ⟨e, n, i, heq, q.timely ▸ ht, h0, q.writeEpoch ▸ hle, q.owner ▸ ho,
      q.finished i (h.owners n i ho) hdone⟩
  owners n i hn := (h.owners n i (q.owner ▸ hn)).trans_le q.next

lemma Quiet.moves (q : Quiet s s')
    (hsince : ∀ c since, since ≤ s.writeEpoch → (s.clients c).Since since →
      (s'.clients c).Since since) : Moves none s s' where
  now := q.now
  epoch := q.writeEpoch.ge
  kept m hm _ := ⟨q.blobs ▸ hm, by rw [q.covers]⟩
  singles m hm _ := .inl (q.blobs ▸ hm)
  added e n hn := .inl (q.timely ▸ hn)
  withdrawn e n hn := .inl (q.timely ▸ hn)
  succeeded := by rw [q.succeeded]; exact Subset.refl _
  owner n i hn := q.owner ▸ hn
  since := hsince

lemma Inv.move {j : Option ℕ} (h : Inv p s) (m : Moves j s s') (hstore : StoreOk p s')
    (hnext : s.next ≤ s'.next)
    (hclients : ∀ c, s'.clients c = s.clients c ∨ ClientOk p s' (s'.clients c))
    (htasks : ∀ i c t, s'.tasks i = some (c, t) → (s.tasks i = some (c, t) ∧ j ≠ some i)
      ∨ (i < s'.next ∧ TaskOk p s' i c t))
    (hreads : ∀ r ∈ s'.reads, r ∈ s.reads ∨ r.before ⊆ r.covered) : Inv p s' where
  store := hstore
  clients c := by
    rcases hclients c with heq | hok
    · rw [heq]
      exact m.clientOk (h.clients c)
    · exact hok
  tasks i c t ht := by
    rcases htasks i c t ht with ⟨hold, hj⟩ | hnew
    · obtain ⟨hlt, hok⟩ := h.tasks i c t hold
      exact ⟨hlt.trans_le hnext, m.taskOk hj hok⟩
    · exact hnew
  reads r hr := (hreads r hr).elim (h.reads r) id

lemma task_update {f : ℕ → Option (ℕ × Task)} {i i' c : ℕ} {v : Option (ℕ × Task)} {t : Task}
    (h : update f i v i' = some (c, t)) :
    (f i' = some (c, t) ∧ i' ≠ i) ∨ (i' = i ∧ v = some (c, t)) := by
  rw [update_apply] at h
  split_ifs at h with hi
  · exact .inr ⟨hi, h⟩
  · exact .inl ⟨h, hi⟩

lemma Inv.setTask (h : Inv p s) {i c : ℕ} {t : Task} (hi : s.tasks i = some (c, t))
    {v : Option (ℕ × Task)} (hv : ∀ c' t', v = some (c', t') → TaskOk p s i c' t') :
    Inv p (s.setTask i v) := by
  have q : Quiet s (s.setTask i v) := by
    refine ⟨rfl, rfl, rfl, rfl, rfl, rfl, le_rfl, le_rfl, fun i' _ hnone => ?_⟩
    simp only [World.setTask, update_apply]
    split_ifs with heq
    · rw [heq, hi] at hnone
      cases hnone
    · exact hnone
  have m := q.moves fun _ _ _ hs => hs
  refine h.move m (q.storeOk h.store) le_rfl (fun _ => .inl rfl) (fun i' c' t' ht' => ?_)
    fun _ => .inl
  rcases task_update ht' with ⟨hold, -⟩ | ⟨rfl, hnew⟩
  · exact .inl ⟨hold, by simp⟩
  · exact .inr ⟨(h.tasks i' c t hi).1, m.taskOk (by simp) (hv c' t' hnew)⟩

lemma Inv.start (h : Inv p s) (c : ℕ) {t : Task} (ht : TaskOk p s s.next c t) :
    Inv p (s.start c t) := by
  have q : Quiet s (s.start c t) := by
    refine ⟨rfl, rfl, rfl, rfl, rfl, rfl, le_rfl, Nat.le_succ _, fun i' hlt hnone => ?_⟩
    simp only [World.start, World.setTask, update_apply]
    rw [if_neg (by omega)]
    exact hnone
  have m := q.moves fun _ _ _ hs => hs
  refine h.move m (q.storeOk h.store) (Nat.le_succ _) (fun _ => .inl rfl)
    (fun i' c' t' ht' => ?_) fun _ => .inl
  rcases task_update ht' with ⟨hold, -⟩ | ⟨rfl, hnew⟩
  · exact .inl ⟨hold, by simp⟩
  · cases hnew
    exact .inr ⟨Nat.lt_succ_self _, m.taskOk (by simp) ht⟩

lemma Inv.setClient (h : Inv p s) {c : ℕ} {x : Client} (hx : ClientOk p s x)
    (hsince : ∀ since, since ≤ s.writeEpoch → (s.clients c).Since since → x.Since since) :
    Inv p (s.setClient c x) := by
  have q : Quiet s (s.setClient c x) :=
    ⟨rfl, rfl, rfl, rfl, rfl, rfl, le_rfl, le_rfl, fun _ _ => id⟩
  have m : Moves none s (s.setClient c x) := q.moves fun c' since hle hs => by
    simp only [World.setClient, update_apply]
    split_ifs with heq
    · exact hsince since hle (heq ▸ hs)
    · exact hs
  refine h.move m (q.storeOk h.store) le_rfl (fun c' => ?_) (fun _ _ _ ht => .inl ⟨ht, by simp⟩)
    fun _ => .inl
  simp only [World.setClient, update_apply]
  split_ifs
  · exact .inr (m.clientOk hx)
  · exact .inl rfl

lemma Inv.tick (h : Inv p s) (d : ℕ) : Inv p { s with now := s.now + d } := by
  have q : Quiet s { s with now := s.now + d } :=
    ⟨rfl, rfl, rfl, rfl, rfl, rfl, by simp, le_rfl, fun _ _ => id⟩
  exact h.move (q.moves fun _ _ _ hs => hs) (q.storeOk h.store) le_rfl (fun _ => .inl rfl)
    (fun _ _ _ ht => .inl ⟨ht, by simp⟩) fun _ => .inl

lemma Inv.abandon (h : Inv p s) (i : ℕ) : Inv p (s.setTask i none) := by
  cases hi : s.tasks i with
  | none =>
    have heq : s.setTask i none = s := by
      simp only [World.setTask, ← hi, update_eq_self]
    rw [heq]
    exact h
  | some ct => exact h.setTask (c := ct.1) (t := ct.2) hi nofun

end Quiet

/-- What `Validate` guarantees of the parameters in use. -/
structure Parameters.Valid (p : Parameters) : Prop where
  enabled : p.enabled = true
  validate : p.validate = none

lemma Parameters.Valid.margin {p : Parameters} (h : p.Valid) :
    0 < p.fullCheckpointFrequency ∧ 3 * p.epochRefreshFrequency ≤ p.cleanupSafetyMargin := by
  have hv := h.validate
  unfold Parameters.validate at hv
  simp only [h.enabled, Bool.not_true, Bool.false_eq_true, ↓reduceIte] at hv
  split_ifs at hv
  omega

lemma World.Superseded.before {p : Parameters} (hp : p.Valid) {s : World} {e begun : ℤ}
    (h : s.Superseded p e) (hbegun : begun ≤ s.now)
    (hnow : s.now ≤ begun + p.epochRefreshFrequency) :
    ∃ m ∈ s.blobs, ∃ n, m.blobID = .singleEpochCompaction e n ∧ m.timestamp < begun := by
  obtain ⟨m, hm, ⟨n, hid⟩, hlt⟩ := h
  have := hp.margin.2
  exact ⟨m, hm, n, hid, by omega⟩

section Refresh

variable {p : Parameters} {order : List Metadata → List Metadata} {s s' : World} {r : Refresh}

lemma Inv.setRefresh (h : Inv p s) {c : ℕ} {r : Option Refresh}
    (hr : ∀ r', r = some r' → RefreshOk p s r')
    (hmarkers : ∀ r' ms, r = some r' → r'.markers = some ms → s.writeEpoch = loadWriteEpoch ms
      ∨ ∃ r₀, (s.clients c).refresh = some r₀ ∧ r₀.markers = some ms) :
    Inv p (s.setRefresh c r) := by
  refine h.setClient ⟨(h.clients c).known, hr⟩ fun since hle hs => ⟨hs.1, fun r' ms hr' hms => ?_⟩
  rcases hmarkers r' ms hr' hms with heq | ⟨r₀, hr₀, hms₀⟩
  · exact heq ▸ hle
  · exact hs.2 r₀ ms hr₀ hms₀

variable {ms : List Metadata} {e : ℤ}

lemma mem_epochs (h : e ∈ epochs ms) : loadWriteEpoch ms - 1 ≤ e := by
  simp only [epochs, loadUncompactedEpochs, map_map, mem_map, mem_filter,
    mem_range, decide_eq_true_eq, comp_apply] at h
  obtain ⟨e', ⟨⟨i, -, rfl⟩, -⟩, rfl⟩ := h
  omega

lemma StoreOk.mem_list_of_timely (h : StoreOk p s) (ho : ∀ l, (order l).Perm l)
    {n : Suffix} (ht : .uncompacted e n ∈ s.timely) (hc : .uncompacted e n ∉ s.cleaned) :
    .uncompacted e n ∈ (s.list order (·.isUncompactedOf e)).map (·.blobID) := by
  obtain ⟨m, hm, hid⟩ := has_iff.1 ((h.timely e n ht).resolve_right hc)
  exact mem_map.2 ⟨m, (mem_list ho).2 ⟨hm, by simp [hid, isUncompactedOf]⟩, hid⟩

lemma StoreOk.timely_of_succeeded (h : StoreOk p s) {n : Suffix}
    (hs : .uncompacted e n ∈ s.succeeded) : .uncompacted e n ∈ s.timely ∧ e ≤ s.writeEpoch := by
  obtain ⟨e', n', i, heq, ht, -, hle, -⟩ := h.succeeded _ hs
  cases heq
  exact ⟨ht, hle⟩

lemma RefreshOk.listMarkers (h : RefreshOk p s r) (hst : StoreOk p s)
    (ho : ∀ l, (order l).Perm l) :
    RefreshOk p s { r with markers := some (s.list order (·.isEpochMarker)) } := by
  refine { h with markers := fun ms hms => ?_ }
  cases hms
  have hw : loadWriteEpoch (s.list order (·.isEpochMarker)) = s.writeEpoch :=
    loadWriteEpoch_perm (ho _)
  refine ⟨fun m hm => ((mem_list ho).1 hm).2, hw.le, fun e n hn => ?_, fun m hm e n hid _ => ?_⟩
  · rw [hw]
    exact (hst.timely_of_succeeded (h.before hn)).2
  · rw [hw]
    exact (hst.singles m hm e n hid).2.1

lemma RefreshOk.listUncompacted (hp : p.Valid) (h : RefreshOk p s r) (hst : StoreOk p s)
    (ho : ∀ l, (order l).Perm l) (hms : r.markers = some ms)
    (he : e ∈ epochs ms) :
    RefreshOk p s { r with
      uncompacted := (e, s.list order (·.isUncompactedOf e)) :: r.uncompacted } := by
  refine { h with uncompacted := fun e' bms hbms => ?_ }
  rcases mem_cons.1 hbms with heq | hbms
  · cases heq
    refine ⟨fun m hm => hst.stamped m ((mem_list ho).1 hm).1, fun hnow n hn => ?_⟩
    refine hst.mem_list_of_timely ho (hst.timely_of_succeeded (h.before hn)).1 fun hcleaned => ?_
    obtain ⟨m, hm, n', hid, hlt⟩ := (hst.cleaned e n hcleaned).before hp h.begun hnow
    have := (h.markers ms hms).2.2.2 m hm e n' hid hlt
    have := mem_epochs he
    omega
  · exact h.uncompacted e' bms hbms

lemma eq_of_isSingle {id : BlobID} (hkind : id.isSingleEpochCompaction = true)
    (he : id.epochNumber = some e) : ∃ n, id = .singleEpochCompaction e n := by
  cases id <;> simp only [isSingleEpochCompaction, Bool.false_eq_true] at hkind
  next e' n =>
  cases he
  exact ⟨n, rfl⟩

lemma eq_of_isRange {id : BlobID} {lo hi : ℤ} (hkind : id.isRangeCheckpoint = true)
    (he : id.epochRange = some (lo, hi)) : ∃ n, id = .rangeCheckpoint lo hi n := by
  cases id <;> simp only [isRangeCheckpoint, Bool.false_eq_true] at hkind
  next lo' hi' n =>
  cases he
  exact ⟨n, rfl⟩

lemma RefreshOk.snapOk (h : RefreshOk p s r) (hst : StoreOk p s) {ws xs gs : List Metadata}
    (hms : r.markers = some ms) (hws : r.watermarks = some ws) (hxs : r.singles = some xs)
    (hgs : r.ranges = some gs)
    (hall : ∀ e ∈ epochs ms, (r.uncompacted.lookup e).isSome)
    (hnow : s.now ≤ r.begun + p.epochRefreshFrequency) :
    SnapOk p s ⟨refreshAttempt p r.begun (listing ms ws xs gs r.uncompacted), r.begun,
      s.now, r.before⟩ := by
  obtain ⟨hmkind, hmle, hmbefore, hmold⟩ := h.markers ms hms
  obtain ⟨hxall, hxold⟩ := h.singles xs hxs
  refine ⟨h.begun, rfl, loadWriteEpoch_nonneg, hmle, ?_,
    (findLongestRangeCheckpointStartingAt_chain _ _ 0).1, ?_, ?_, ?_, ⟨h.before, hmbefore⟩, hmkind,
    h.watermarks ws hws⟩
  · intro e set hset
    obtain ⟨hne, hspec⟩ := loadSingleEpochCompactions_spec hset
    refine ⟨hne, fun m hm => ?_⟩
    obtain ⟨hmem, he⟩ := hspec m hm
    exact ⟨(hxall m hmem).1, eq_of_isSingle (hxall m hmem).2 he⟩
  · intro c hc
    obtain ⟨hne, hspec⟩ := loadRangeCheckpointSets_spec
      ((findLongestRangeCheckpointStartingAt_chain _ _ 0).2 hc)
    have hblobs : ∀ m ∈ c.blobs, m ∈ s.blobs ∧ ∃ n, m.blobID = .rangeCheckpoint c.minEpoch c.maxEpoch n := by
      intro m hm
      obtain ⟨hmem, hrange⟩ := hspec m hm
      obtain ⟨hs, hkind⟩ := h.ranges gs hgs m hmem
      exact ⟨hs, eq_of_isRange hkind hrange⟩
    obtain ⟨m, hm⟩ := exists_mem_of_ne_nil _ hne
    obtain ⟨hs, n, hid⟩ := hblobs m hm
    exact ⟨(hst.ranges m hs _ _ n hid).1, hne, hblobs⟩
  · intro m hm e n hid hlt
    refine ⟨hmold m hm e n hid hlt, exists_lookup_singleEpochCompactions (fun m' hm' => ?_)
      (hxold m hm (by rw [hid]; rfl) hlt) (by rw [hid]; rfl)⟩
    obtain ⟨hs, hkind⟩ := hxall m' hm'
    cases hid' : m'.blobID <;> simp only [hid', isSingleEpochCompaction,
      Bool.false_eq_true] at hkind
    next e' n' =>
    exact (hst.singles m' hs e' n' hid').1
  · intro e bms hbms
    obtain ⟨rfl, h0, h₁, h₂⟩ := mem_loadUncompactedEpochs hbms
    have hmem : e ∈ epochs ms := by
      refine mem_map.2 ⟨(e, []), Lists.mem_of_lookup ?_, rfl⟩
      exact exists_lookup_loadUncompactedEpochs h0 h₁ h₂
    obtain ⟨bms, hlook⟩ := Option.isSome_iff_exists.1 (hall e hmem)
    obtain ⟨hstamp, hbefore⟩ := h.uncompacted e bms (Lists.mem_of_lookup hlook)
    simp only [listing, hlook, Option.getD_some]
    exact ⟨h₁, hstamp, hbefore hnow⟩

lemma Inv.stepRefresh (hp : p.Valid) (ho : ∀ l, (order l).Perm l) (h : Inv p s) {a : EpochAction}
    (hs : stepRefresh p order s a = some s') : Inv p s' := by
  have hst := h.store
  cases a <;> simp only [World.stepRefresh, reduceCtorEq] at hs
  case refreshBegin c =>
    split_ifs at hs
    cases hs
    refine h.setRefresh (fun r hr => ?_) fun r ms hr hms => ?_
    · cases hr
      exact ⟨le_rfl, Subset.refl _, nofun, nofun, nofun, nofun, nofun⟩
    · cases hr
      cases hms
  case refreshMarkers c =>
    split at hs
    · next r hr =>
      split_ifs at hs
      cases hs
      refine h.setRefresh (fun r' hr' => ?_) fun r' ms hr' hms => ?_
      · cases hr'
        exact ((h.clients c).refresh r hr).listMarkers hst ho
      · cases hr'
        cases hms
        exact .inl (loadWriteEpoch_perm (ho _)).symm
    · cases hs
  case refreshWatermarks c =>
    split at hs
    · next r hr =>
      split_ifs at hs
      cases hs
      refine h.setRefresh (fun r' hr' => ?_) fun r' ms hr' hms => ?_
      · cases hr'
        refine { (h.clients c).refresh r hr with watermarks := fun ms hms => ?_ }
        cases hms
        exact fun m hm => ((mem_list ho).1 hm).2
      · cases hr'
        exact .inr ⟨r, hr, hms⟩
    · cases hs
  case refreshSingles c =>
    split at hs
    · next r hr =>
      split_ifs at hs
      cases hs
      refine h.setRefresh (fun r' hr' => ?_) fun r' ms hr' hms => ?_
      · cases hr'
        refine { (h.clients c).refresh r hr with singles := fun ms hms => ?_ }
        cases hms
        exact ⟨fun m hm => (mem_list ho).1 hm, fun m hm hkind _ => (mem_list ho).2 ⟨hm, hkind⟩⟩
      · cases hr'
        exact .inr ⟨r, hr, hms⟩
    · cases hs
  case refreshRanges c =>
    split at hs
    · next r hr =>
      split_ifs at hs
      cases hs
      refine h.setRefresh (fun r' hr' => ?_) fun r' ms hr' hms => ?_
      · cases hr'
        refine { (h.clients c).refresh r hr with ranges := fun ms hms => ?_ }
        cases hms
        exact fun m hm => (mem_list ho).1 hm
      · cases hr'
        exact .inr ⟨r, hr, hms⟩
    · cases hs
  case refreshUncompacted c e =>
    split at hs
    · next r hr =>
      split at hs
      · next ms _ _ _ hms _ _ _ =>
        split_ifs at hs with he
        cases hs
        refine h.setRefresh (fun r' hr' => ?_) fun r' ms' hr' hms' => ?_
        · cases hr'
          exact ((h.clients c).refresh r hr).listUncompacted hp hst ho hms he
        · cases hr'
          exact .inr ⟨r, hr, hms'⟩
      · cases hs
    · cases hs
  case refreshEnd c =>
    split at hs
    · next r hr =>
      split at hs
      · next ms ws xs gs hms hws hxs hgs =>
        split_ifs at hs with hok <;> cases hs
        · simp only [Bool.and_eq_true, all_eq_true, decide_eq_true_eq] at hok
          refine h.setClient ⟨fun k hk => ?_, nofun⟩ fun since _ hsince => ⟨fun k hk => ?_, nofun⟩
          · cases hk
            exact ((h.clients c).refresh r hr).snapOk hst hms hws hxs hgs hok.1 hok.2
          · cases hk
            exact hsince.2 r ms hr hms
        · exact h.setRefresh nofun nofun
      · cases hs
        exact h.setRefresh nofun nofun
    · cases hs

end Refresh

section Store

variable {p : Parameters} {s s' : World}

/-- A blob that is new in the store and, where it is a compaction, covers what counts. -/
structure NewOk (s' : World) (m : Metadata) : Prop where
  stamped : m.timestamp ≤ s'.now
  single : ∀ e n, m.blobID = .singleEpochCompaction e n →
    (∃ id, n.set = some (id, 1)) ∧ e + 2 ≤ s'.writeEpoch ∧ s'.Covers e (s'.covers m.blobID)
  range : ∀ lo hi n, m.blobID = .rangeCheckpoint lo hi n →
    lo < hi ∧ hi + 2 ≤ s'.writeEpoch ∧ ∀ e, lo ≤ e → e ≤ hi → s'.Covers e (s'.covers m.blobID)

lemma StoreOk.move {j : Option ℕ} (h : StoreOk p s) (m : Moves j s s')
    (hnew : ∀ bm ∈ s'.blobs, bm ∈ s.blobs ∨ NewOk s' bm)
    (htimely : ∀ e n, .uncompacted e n ∈ s'.timely →
      s'.has (.uncompacted e n) = true ∨ .uncompacted e n ∈ s'.cleaned)
    (hcleaned : ∀ e n, .uncompacted e n ∈ s'.cleaned →
      .uncompacted e n ∈ s.cleaned ∨ s.Superseded p e)
    (hsucceeded : s'.succeeded = s.succeeded) (hj : ∀ i, j = some i → s.tasks i ≠ none)
    (hfinished : ∀ i < s.next, s.tasks i = none → s'.tasks i = none)
    (howners : ∀ n i, s'.owner n = some i → i < s'.next) : StoreOk p s' where
  stamped bm hbm := (hnew bm hbm).elim (fun ho => (h.stamped bm ho).trans m.now) (·.stamped)
  timely := htimely
  cleaned e n hn := m.superseded ((hcleaned e n hn).elim (h.cleaned e n) id)
  singles bm hbm e n hid := by
    rcases hnew bm hbm with hold | hok
    · obtain ⟨hset, hle, hcov⟩ := h.singles bm hold e n hid
      rw [(m.kept bm hold (by rw [hid]; rfl)).2]
      exact ⟨hset, hle.trans m.epoch, m.covers hle hcov⟩
    · exact hok.single e n hid
  ranges bm hbm lo hi n hid := by
    rcases hnew bm hbm with hold | hok
    · obtain ⟨hlt, hle, hcov⟩ := h.ranges bm hold lo hi n hid
      rw [(m.kept bm hold (by rw [hid]; rfl)).2]
      exact ⟨hlt, hle.trans m.epoch, fun e h₁ h₂ => m.covers (by omega) (hcov e h₁ h₂)⟩
    · exact hok.range lo hi n hid
  succeeded id hid := by
    obtain ⟨e, n, i, rfl, ht, h0, hle, ho, hdone⟩ := h.succeeded id (hsucceeded ▸ hid)
    have hkept : .uncompacted e n ∈ s'.timely := by
      refine (m.withdrawn e n ht).resolve_right ?_
      rintro ⟨i', hi', ho'⟩
      rw [ho, Option.some.injEq] at ho'
      exact hj i' hi' (ho' ▸ hdone)
    exact ⟨e, n, i, rfl, hkept, h0, hle.trans m.epoch, m.owner n i ho,
      hfinished i (h.owners n i ho) hdone⟩
  owners := howners

lemma Inv.ofStore (h : Inv p s) (m : Moves none s s') (hnew : ∀ bm ∈ s'.blobs, bm ∈ s.blobs ∨ NewOk s' bm)
    (htimely : ∀ e n, .uncompacted e n ∈ s'.timely →
      s'.has (.uncompacted e n) = true ∨ .uncompacted e n ∈ s'.cleaned)
    (hcleaned : ∀ e n, .uncompacted e n ∈ s'.cleaned →
      .uncompacted e n ∈ s.cleaned ∨ s.Superseded p e)
    (hsucceeded : s'.succeeded = s.succeeded) (hclients : s'.clients = s.clients)
    (htasks : s'.tasks = s.tasks) (hnext : s'.next = s.next) (howner : s'.owner = s.owner)
    (hreads : s'.reads = s.reads) : Inv p s' := by
  refine h.move m (h.store.move m hnew htimely hcleaned hsucceeded nofun ?_ ?_) hnext.ge ?_ ?_ ?_
  · exact fun i _ hnone => htasks ▸ hnone
  · exact fun n i hn => hnext ▸ h.store.owners n i (howner ▸ hn)
  · exact fun c => .inl (by rw [hclients])
  · exact fun i c t ht => .inl ⟨htasks ▸ ht, nofun⟩
  · exact fun r hr => .inl (hreads ▸ hr)

variable {id : BlobID} {length : ℤ} {n : Suffix}

lemma has_put_of_has {id' : BlobID} (h : s.has id' = true) :
    (s.put id length).has id' = true := by
  obtain ⟨m, hm, hid⟩ := has_iff.1 h
  by_cases heq : m.blobID = id
  · exact has_iff.2 ⟨_, mem_put.2 (.inl rfl), heq.symm.trans hid⟩
  · exact has_iff.2 ⟨m, mem_put.2 (.inr ⟨hm, heq⟩), hid⟩

lemma has_delete_of_has {id' : BlobID} (h : s.has id' = true) (hne : id' ≠ id) :
    (s.delete id).has id' = true := by
  obtain ⟨m, hm, hid⟩ := has_iff.1 h
  exact has_iff.2 ⟨m, mem_delete.2 ⟨hm, hid ▸ hne⟩, hid⟩

lemma moves_put (id : BlobID) (hid : id.isCompacted = false) (length : ℤ) :
    Moves none s (s.put id length) where
  now := le_rfl
  epoch := writeEpoch_le_put
  kept m hm hkind := by
    refine ⟨mem_put.2 (.inr ⟨hm, fun heq => ?_⟩), rfl⟩
    rw [heq, hid] at hkind
    cases hkind
  singles m hm _ := (mem_put.1 hm).elim (fun heq => .inr (heq ▸ le_rfl)) fun hm => .inl hm.1
  added e n hn := .inl hn
  withdrawn e n hn := .inl hn
  succeeded := Subset.refl _
  owner _ _ ho := ho
  since _ _ _ hs := hs

lemma newOk_of_not_isCompacted {m : Metadata} (hid : m.blobID.isCompacted = false)
    (hstamp : m.timestamp ≤ s'.now) : NewOk s' m := by
  refine ⟨hstamp, fun e n heq => ?_, fun lo hi n heq => ?_⟩ <;>
  · rw [heq] at hid
    cases hid

lemma Inv.put (h : Inv p s) (hid : id.isCompacted = false) (length : ℤ) :
    Inv p (s.put id length) := by
  refine h.ofStore (moves_put id hid length) (fun m hm => ?_) (fun e n hn => ?_)
    (fun _ _ => .inl) rfl rfl rfl rfl rfl rfl
  · rcases mem_put.1 hm with rfl | ⟨hm, -⟩
    · exact .inr (newOk_of_not_isCompacted hid le_rfl)
    · exact .inl hm
  · exact (h.store.timely e n hn).imp_left has_put_of_has

lemma moves_putShard (e : ℤ) (n : Suffix) (length : ℤ) : Moves none s (s.putShard e n length) :=
  { moves_put (s := s) (.uncompacted e n) rfl length with
    added := fun e' n' hn => by
      simp only [putShard] at hn
      split_ifs at hn with hle
      · rcases mem_cons.1 hn with heq | hn
        · cases heq
          exact .inr hle
        · exact .inl hn
      · exact .inl hn
    withdrawn := fun e' n' hn => by
      simp only [putShard]
      split_ifs
      · exact .inl (mem_cons_of_mem _ hn)
      · exact .inl hn }

lemma Inv.putShard (h : Inv p s) (e : ℤ) (n : Suffix) (length : ℤ) :
    Inv p (s.putShard e n length) := by
  refine h.ofStore (moves_putShard e n length) (fun m hm => ?_) (fun e' n' hn => ?_)
    (fun _ _ => .inl) rfl rfl rfl rfl rfl rfl
  · rcases mem_put.1 hm with rfl | ⟨hm, -⟩
    · exact .inr (newOk_of_not_isCompacted rfl le_rfl)
    · exact .inl hm
  · have hput : ∀ id, s.has id = true → (s.putShard e n length).has id = true :=
      fun id hid => has_put_of_has hid
    simp only [World.putShard] at hn
    split_ifs at hn
    · rcases List.mem_cons.1 hn with heq | hn
      · exact .inl (has_iff.2 ⟨_, mem_put.2 (.inl rfl), heq.symm⟩)
      · exact (h.store.timely e' n' hn).imp_left (hput _)
    · exact (h.store.timely e' n' hn).imp_left (hput _)

lemma moves_withdraw {i : ℕ} (ho : s.owner n = some i) (e : ℤ) :
    Moves (some i) s (s.withdraw e n) where
  now := le_rfl
  epoch := writeEpoch_le_delete nofun
  kept m hm hkind := by
    refine ⟨mem_delete.2 ⟨hm, fun heq => ?_⟩, rfl⟩
    rw [heq] at hkind
    cases hkind
  singles m hm _ := .inl (mem_delete.1 hm).1
  added e' n' hn := .inl (mem_of_mem_filter hn)
  withdrawn e' n' hn := by
    by_cases heq : uncompacted e' n' = .uncompacted e n
    · cases heq
      exact .inr ⟨i, rfl, ho⟩
    · exact .inl (mem_filter.2 ⟨hn, decide_eq_true heq⟩)
  succeeded := Subset.refl _
  owner _ _ h := h
  since _ _ _ h := h

lemma Inv.withdraw (h : Inv p s) {i c : ℕ} {t t' : Task} (hi : s.tasks i = some (c, t))
    {e : ℤ} (ho : s.owner n = some i)
    (ht' : TaskOk p ((s.withdraw e n).setTask i (some (c, t'))) i c t') :
    Inv p ((s.withdraw e n).setTask i (some (c, t'))) := by
  have m : Moves (some i) s ((s.withdraw e n).setTask i (some (c, t'))) :=
    { moves_withdraw ho e with }
  refine h.move m (h.store.move m (fun bm hbm => ?_) (fun e' n' hn => ?_) (fun _ _ => .inl)
    rfl (fun i' hi' => ?_) (fun i' _ hnone => ?_) h.store.owners) le_rfl (fun _ => .inl rfl)
    (fun i' c' t'' ht => ?_) fun _ => .inl
  · exact .inl (mem_delete.1 hbm).1
  · obtain ⟨hn, hne⟩ := mem_filter.1 hn
    exact (h.store.timely e' n' hn).imp_left fun hhas =>
      has_delete_of_has hhas (of_decide_eq_true hne)
  · cases hi'
    simp [hi]
  · refine (update_of_ne (fun heq => ?_) _ _).trans hnone
    rw [heq, hi] at hnone
    cases hnone
  · rcases task_update ht with ⟨hold, hne⟩ | ⟨rfl, heq⟩
    · exact .inl ⟨hold, fun heq => hne (Option.some.inj heq).symm⟩
    · cases heq
      exact .inr ⟨(h.tasks i' c t hi).1, ht'⟩

lemma moves_putCompacted {covers : List BlobID} (hs : s.putCompacted id length covers = some s') :
    Moves none s s' ∧ s.has id = false
      ∧ s' = { s.put id length with covers := update s.covers id covers } := by
  unfold putCompacted at hs
  split_ifs at hs with hhas
  cases hs
  have hne : ∀ m ∈ s.blobs, m.blobID ≠ id := fun m hm heq => hhas (has_iff.2 ⟨m, hm, heq⟩)
  refine ⟨?_, by simpa using hhas, rfl⟩
  exact
    { now := le_rfl
      epoch := writeEpoch_le_put
      kept := fun m hm _ =>
        ⟨mem_put.2 (.inr ⟨hm, hne m hm⟩), update_of_ne (hne m hm) _ _⟩
      singles := fun m hm _ =>
        (mem_put.1 hm).elim (fun heq => .inr (heq ▸ le_rfl)) fun hm => .inl hm.1
      added := fun _ _ hn => .inl hn
      withdrawn := fun _ _ hn => .inl hn
      succeeded := Subset.refl _
      owner := fun _ _ h => h
      since := fun _ _ _ h => h }

lemma Inv.putCompacted (h : Inv p s) {covers : List BlobID}
    (hs : s.putCompacted id length covers = some s')
    (hok : ∀ m : Metadata, m.blobID = id → m.timestamp = s.now → s'.covers id = covers →
      NewOk s' m) : Inv p s' := by
  obtain ⟨m, -, rfl⟩ := moves_putCompacted hs
  refine h.ofStore m (fun bm hbm => ?_) (fun e n hn => ?_) (fun _ _ => .inl) rfl rfl rfl rfl rfl
    rfl
  · rcases mem_put.1 hbm with rfl | ⟨hbm, -⟩
    · exact .inr (hok _ rfl rfl (update_self _ _ _))
    · exact .inl hbm
  · exact (h.store.timely e n hn).imp_left has_put_of_has

lemma moves_delete (id : BlobID) (hid : id.isCompacted = false)
    (hmarker : id ≠ .epochMarker s.writeEpoch) (cleaned : List BlobID) :
    Moves none s { s.delete id with cleaned } where
  now := le_rfl
  epoch := writeEpoch_le_delete hmarker
  kept m hm hkind := by
    refine ⟨mem_delete.2 ⟨hm, fun heq => ?_⟩, rfl⟩
    rw [heq, hid] at hkind
    cases hkind
  singles m hm _ := .inl (mem_delete.1 hm).1
  added _ _ hn := .inl hn
  withdrawn _ _ hn := .inl hn
  succeeded := Subset.refl _
  owner _ _ h := h
  since _ _ _ h := h

lemma Inv.deleteMarker (h : Inv p s) (hid : id.isCompacted = false)
    (hun : id.isUncompacted = false) (hmarker : id ≠ .epochMarker s.writeEpoch) :
    Inv p (s.delete id) := by
  refine h.ofStore (moves_delete id hid hmarker s.cleaned) (fun bm hbm => ?_) (fun e n hn => ?_)
    (fun _ _ => .inl) rfl rfl rfl rfl rfl rfl
  · exact .inl (mem_delete.1 hbm).1
  · refine (h.store.timely e n hn).imp_left fun hhas => has_delete_of_has hhas fun heq => ?_
    rw [← heq] at hun
    cases hun

lemma Inv.clean (h : Inv p s) {e : ℤ} (hsup : s.Superseded p e) :
    Inv p { s.delete (.uncompacted e n) with cleaned := .uncompacted e n :: s.cleaned } := by
  refine h.ofStore (moves_delete (.uncompacted e n) rfl nofun _) (fun bm hbm => ?_) (fun e' n' hn => ?_)
    (fun e' n' hn => ?_) rfl rfl rfl rfl rfl rfl
  · exact .inl (mem_delete.1 hbm).1
  · by_cases heq : uncompacted e' n' = .uncompacted e n
    · exact .inr (heq ▸ mem_cons_self)
    · rcases h.store.timely e' n' hn with hhas | hcl
      · exact .inl (has_delete_of_has hhas heq)
      · exact .inr (mem_cons_of_mem _ hcl)
  · rcases mem_cons.1 hn with heq | hn
    · cases heq
      exact .inr hsup
    · exact .inl hn

end Store

end Warphold.Epoch
