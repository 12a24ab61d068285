import Warphold.Proofs.EpochProtocol

/-!
# Epoch markers never go backwards

A put never lowers what the stored markers say.
-/

namespace Warphold.Epoch

open World Option List Function

section Watermark

variable {bms : List Metadata} {m : Metadata} {t : ℤ}

lemma zeroTime_le_loadDeletionWatermark : zeroTime ≤ loadDeletionWatermark bms :=
  (foldl_max_spec id _ zeroTime).1

lemma le_loadDeletionWatermark (hm : m ∈ bms)
    (ht : deletionWatermarkFromBlobID m.blobID = some t) : t ≤ loadDeletionWatermark bms :=
  (foldl_max_spec id _ zeroTime).2.1 t (mem_filterMap.2 ⟨m, hm, ht⟩)

variable (bms) in
lemma loadDeletionWatermark_attained : loadDeletionWatermark bms = zeroTime
    ∨ ∃ m ∈ bms, deletionWatermarkFromBlobID m.blobID = some (loadDeletionWatermark bms) := by
  refine (foldl_max_spec id (bms.filterMap fun bm => deletionWatermarkFromBlobID bm.blobID)
    zeroTime).2.2.imp_right ?_
  rintro ⟨t, ht, heq⟩
  obtain ⟨m, hm, hmt⟩ := mem_filterMap.1 ht
  exact ⟨m, hm, hmt.trans (congrArg some heq)⟩

lemma loadDeletionWatermark_mono {bms' : List Metadata} (h : bms ⊆ bms') :
    loadDeletionWatermark bms ≤ loadDeletionWatermark bms' := by
  rcases loadDeletionWatermark_attained bms with h0 | ⟨m, hm, ht⟩
  · rw [h0]
    exact zeroTime_le_loadDeletionWatermark
  · exact le_loadDeletionWatermark (h hm) ht

end Watermark

namespace World

variable {s s' : World} {id : BlobID} {length : ℤ}

def deletionWatermark (s : World) : ℤ :=
  loadDeletionWatermark (s.blobs.filter fun bm => bm.blobID.isDeletionWatermark)

lemma deletionWatermark_le (h : ∀ m ∈ s.blobs, deletionWatermarkFromBlobID m.blobID
      = some s.deletionWatermark → ∃ m' ∈ s'.blobs, m'.blobID = m.blobID) :
    s.deletionWatermark ≤ s'.deletionWatermark := by
  rcases loadDeletionWatermark_attained
    (s.blobs.filter fun bm => bm.blobID.isDeletionWatermark) with h0 | ⟨m, hm, ht⟩
  · rw [show s.deletionWatermark = zeroTime from h0]
    exact zeroTime_le_loadDeletionWatermark
  · obtain ⟨hm, hkind⟩ := mem_filter.1 hm
    obtain ⟨m', hm', hid⟩ := h m hm ht
    exact le_loadDeletionWatermark (mem_filter.2 ⟨hm', by rwa [hid]⟩) (by rw [hid]; exact ht)

lemma deletionWatermark_le_put : s.deletionWatermark ≤ (s.put id length).deletionWatermark := by
  refine deletionWatermark_le fun m hm _ => ?_
  by_cases heq : m.blobID = id
  · exact ⟨_, mem_put.2 (.inl rfl), heq.symm⟩
  · exact ⟨m, mem_put.2 (.inr ⟨hm, heq⟩), rfl⟩

lemma deletionWatermark_le_delete
    (h : deletionWatermarkFromBlobID id ≠ some s.deletionWatermark) :
    s.deletionWatermark ≤ (s.delete id).deletionWatermark :=
  deletionWatermark_le fun m hm ht =>
    ⟨m, mem_delete.2 ⟨hm, fun heq => h (heq ▸ ht)⟩, rfl⟩

structure Marks (s s' : World) : Prop where
  writeEpoch : s.writeEpoch ≤ s'.writeEpoch
  deletionWatermark : s.deletionWatermark ≤ s'.deletionWatermark

lemma Marks.refl (s : World) : Marks s s := ⟨le_rfl, le_rfl⟩

lemma Marks.trans {s'' : World} (h : Marks s s') (h' : Marks s' s'') : Marks s s'' :=
  ⟨h.writeEpoch.trans h'.writeEpoch, h.deletionWatermark.trans h'.deletionWatermark⟩

/-- A blob whose deletion lowers neither: no marker, or not the highest of its kind. -/
structure Below (s : World) (id : BlobID) : Prop where
  epoch : ∀ n, id = .epochMarker n → n < s.writeEpoch
  watermark : ∀ t, deletionWatermarkFromBlobID id = some t → t < s.deletionWatermark

lemma Below.mono (hm : Marks s s') (h : Below s id) : Below s' id :=
  ⟨fun n hn => (h.epoch n hn).trans_le hm.writeEpoch,
    fun t ht => (h.watermark t ht).trans_le hm.deletionWatermark⟩

lemma Below.marks_delete (h : Below s id) : Marks s (s.delete id) :=
  ⟨writeEpoch_le_delete fun heq => lt_irrefl _ (h.epoch _ heq),
    deletionWatermark_le_delete fun heq => lt_irrefl _ (h.watermark _ heq)⟩

lemma marks_put : Marks s (s.put id length) := ⟨writeEpoch_le_put, deletionWatermark_le_put⟩

lemma below_of_uncompacted (h : id.isUncompacted = true) : Below s id := by
  cases id <;> cases h
  exact ⟨nofun, nofun⟩

end World

open World

/-- What a client knows, or has listed so far, says no more than the store. -/
structure ClientMarked (s : World) (x : Client) : Prop where
  epoch : ∀ k, x.known = some k → k.cs.writeEpoch ≤ s.writeEpoch
  watermark : ∀ k, x.known = some k → k.cs.deletionWatermark ≤ s.deletionWatermark
  own : ∀ k, x.known = some k → ∀ m ∈ k.cs.deletionWatermarkBlobs, ∀ t,
    deletionWatermarkFromBlobID m.blobID = some t → t ≤ k.cs.deletionWatermark
  markers : ∀ r, x.refresh = some r → ∀ ms, r.markers = some ms →
    loadWriteEpoch ms ≤ s.writeEpoch
  watermarks : ∀ r, x.refresh = some r → ∀ ms, r.watermarks = some ms →
    loadDeletionWatermark ms ≤ s.deletionWatermark

def Task.deletes : Task → List BlobID
  | .deleting ids | .deletingMarkers ids => ids
  | _ => []

structure Marked (s : World) : Prop where
  clients : ∀ c, ClientMarked s (s.clients c)
  tasks : ∀ i c t, s.tasks i = some (c, t) → ∀ id ∈ t.deletes, s.Below id

section Effect

variable {p : Parameters} {order : List Metadata → List Metadata} {s s' s'' : World}

variable {x : Client} {id : BlobID} {a : EpochAction}

lemma ClientMarked.mono (hm : Marks s s') (h : ClientMarked s x) : ClientMarked s' x where
  epoch k hk := (h.epoch k hk).trans hm.writeEpoch
  watermark k hk := (h.watermark k hk).trans hm.deletionWatermark
  own := h.own
  markers r hr ms hms := (h.markers r hr ms hms).trans hm.writeEpoch
  watermarks r hr ms hms := (h.watermarks r hr ms hms).trans hm.deletionWatermark

/-- What a step may do: raise the markers, and have clients and operations that say no more than the
store did. -/
structure Effect (s s' : World) : Prop where
  marks : Marks s s'
  clients : ∀ c, ClientMarked s (s'.clients c)
  tasks : ∀ i c t, s'.tasks i = some (c, t) → ∀ id ∈ t.deletes, s.Below id

lemma Effect.marked (h : Effect s s') : Marked s' where
  clients c := (h.clients c).mono h.marks
  tasks i c t ht id hid := (h.tasks i c t ht id hid).mono h.marks

lemma Marked.effect (h : Marked s) : Effect s s := ⟨.refl s, h.clients, h.tasks⟩

lemma Effect.congr (h : Effect s s') (hb : s''.blobs = s'.blobs)
    (hc : s''.clients = s'.clients) (ht : s''.tasks = s'.tasks) : Effect s s'' where
  marks := by
    have he : s''.writeEpoch = s'.writeEpoch := by simp only [writeEpoch, hb]
    have hw : s''.deletionWatermark = s'.deletionWatermark := by
      simp only [deletionWatermark, hb]
    exact ⟨he ▸ h.marks.writeEpoch, hw ▸ h.marks.deletionWatermark⟩
  clients := by rw [hc]; exact h.clients
  tasks := by rw [ht]; exact h.tasks

lemma Marked.put (h : Marked s) (id : BlobID) (length : ℤ) : Effect s (s.put id length) :=
  ⟨marks_put, h.clients, h.tasks⟩

lemma Marked.delete (h : Marked s) (hid : s.Below id) : Effect s (s.delete id) :=
  ⟨hid.marks_delete, h.clients, h.tasks⟩

lemma Effect.setTask (h : Effect s s') {i : ℕ} {v : Option (ℕ × Task)}
    (hv : ∀ c t, v = some (c, t) → ∀ id ∈ t.deletes, s.Below id) :
    Effect s (s'.setTask i v) where
  marks := ⟨h.marks.writeEpoch, h.marks.deletionWatermark⟩
  clients := h.clients
  tasks j c t hj := by
    rcases Runs.update_eq_some hj with ⟨_, heq⟩ | ⟨_, hj⟩
    · exact hv c t heq
    · exact h.tasks j c t hj

lemma Effect.idle (h : Effect s s') (i c : ℕ) {t : Task} (ht : t.deletes = []) :
    Effect s (s'.setTask i (some (c, t))) := by
  refine h.setTask fun c' t' heq id hid => ?_
  cases heq
  rw [ht] at hid
  cases hid

lemma Effect.done (h : Effect s s') (i : ℕ) : Effect s (s'.setTask i none) := h.setTask nofun

lemma Effect.setClient (h : Effect s s') {c : ℕ} (hx : ClientMarked s x) :
    Effect s (s'.setClient c x) where
  marks := ⟨h.marks.writeEpoch, h.marks.deletionWatermark⟩
  clients c' := by
    show ClientMarked s (update s'.clients c x c')
    rcases eq_or_ne c' c with rfl | hc
    · rwa [update_self]
    · rw [update_of_ne hc]
      exact h.clients c'
  tasks := h.tasks

lemma Marked.setRefresh (h : Marked s) {c : ℕ} {r : Option Refresh}
    (hm : ∀ r', r = some r' → ∀ ms, r'.markers = some ms → loadWriteEpoch ms ≤ s.writeEpoch)
    (hw : ∀ r', r = some r' → ∀ ms, r'.watermarks = some ms →
      loadDeletionWatermark ms ≤ s.deletionWatermark) : Effect s (s.setRefresh c r) :=
  h.effect.setClient ⟨(h.clients c).epoch, (h.clients c).watermark, (h.clients c).own, hm, hw⟩

lemma Marked.invalidate (h : Marked s) {c : ℕ} (hs : s.invalidate c = some s') :
    Effect s s' := by
  unfold World.invalidate at hs
  split at hs <;> cases hs
  exact h.effect.setClient ⟨nofun, nofun, nofun, nofun, nofun⟩

lemma Marked.stepRefresh (ho : ∀ l, (order l).Perm l) (h : Marked s)
    (hs : stepRefresh p order s a = some s') : Effect s s' := by
  cases a <;> simp only [World.stepRefresh, reduceCtorEq] at hs
  case refreshBegin c =>
    split_ifs at hs
    cases hs
    refine h.setRefresh (fun r' hr' => ?_) fun r' hr' => ?_ <;> cases hr' <;> simp
  case refreshMarkers c =>
    split at hs
    · next r hr =>
      split_ifs at hs
      cases hs
      refine h.setRefresh (fun r' hr' ms hms => ?_) fun r' hr' ms hms => ?_ <;> cases hr'
      · cases hms
        exact (loadWriteEpoch_perm (ho _)).le
      · exact (h.clients c).watermarks r hr ms hms
    · cases hs
  case refreshWatermarks c =>
    split at hs
    · next r hr =>
      split_ifs at hs
      cases hs
      refine h.setRefresh (fun r' hr' ms hms => ?_) fun r' hr' ms hms => ?_ <;> cases hr'
      · exact (h.clients c).markers r hr ms hms
      · cases hms
        exact loadDeletionWatermark_mono (ho _).subset
    · cases hs
  case refreshSingles c | refreshRanges c =>
    split at hs
    · next r hr =>
      split_ifs at hs
      cases hs
      refine h.setRefresh (fun r' hr' => ?_) fun r' hr' => ?_ <;> cases hr'
      · exact (h.clients c).markers r hr
      · exact (h.clients c).watermarks r hr
    · cases hs
  case refreshUncompacted c e =>
    split at hs
    · next r hr =>
      split at hs
      · split_ifs at hs
        cases hs
        refine h.setRefresh (fun r' hr' => ?_) fun r' hr' => ?_ <;> cases hr'
        · exact (h.clients c).markers r hr
        · exact (h.clients c).watermarks r hr
      · cases hs
    · cases hs
  case refreshEnd c =>
    split at hs
    · next r hr =>
      split at hs
      · next m w x g hm hw hx hg =>
        split_ifs at hs <;> cases hs
        · refine h.effect.setClient ⟨fun k hk => ?_, fun k hk => ?_, fun k hk => ?_, by simp, by simp⟩
            <;> cases hk
          · exact (h.clients c).markers r hr m hm
          · exact (h.clients c).watermarks r hr w hw
          · exact fun m hm t => le_loadDeletionWatermark hm
        · exact h.setRefresh (by simp) (by simp)
      · cases hs
        exact h.setRefresh (by simp) (by simp)
    · cases hs

lemma Marked.stepWrite (h : Marked s) (hs : stepWrite p s a = some s') : Effect s s' := by
  have hwithdraw : ∀ e n, Effect s (s.withdraw e n) := by
    intro e n
    have hid : s.Below (.uncompacted e n) := below_of_uncompacted rfl
    exact (h.delete hid).congr rfl rfl rfl
  have hshard : ∀ e n length, Effect s (s.putShard e n length) := fun e n length =>
    (h.put (.uncompacted e n) length).congr rfl rfl rfl
  cases a <;> simp only [World.stepWrite, reduceCtorEq] at hs
  case writeBegin c shards =>
    split_ifs at hs
    cases hs
    exact (h.effect.idle s.next c rfl).congr rfl rfl rfl
  case writeState i =>
    split at hs
    · next c w ht =>
      obtain ⟨k, hk, rfl⟩ := map_eq_some_iff.1 hs
      split_ifs
      · exact h.effect.idle i c rfl
      · exact h.effect.idle i c rfl
    · next c w k ht =>
      split_ifs at hs
      cases hs
      exact h.effect.idle i c rfl
    · cases hs
  case writeDrop i n =>
    split at hs
    · next c w k ht =>
      split_ifs at hs
      cases hs
      exact (hwithdraw _ n).idle i c rfl
    · cases hs
  case writePut i n length =>
    split at hs
    · next c w k ht =>
      split_ifs at hs <;> cases hs
      · exact (hshard w.epoch n length).idle i c rfl
      · exact h.effect.idle i c rfl
    · cases hs
  case writeDone i =>
    split at hs
    · next c w k ht =>
      split_ifs at hs
      obtain ⟨s₁, hinv, rfl⟩ := map_eq_some_iff.1 hs
      exact (h.invalidate hinv).idle i c rfl
    · cases hs
  case writeCheck i =>
    split at hs
    · next c w since ht =>
      obtain ⟨k, hk, rfl⟩ := map_eq_some_iff.1 hs
      split_ifs
      · exact h.effect.idle i c rfl
      · exact (h.effect.done i).congr rfl rfl rfl
    · cases hs
  case writeWithdraw i n =>
    split at hs
    · next c w ht =>
      split_ifs at hs
      cases hs
      exact (hwithdraw _ n).idle i c rfl
    · cases hs

lemma Marked.start (h : Marked s) (c : ℕ) {t : Task} (ht : ∀ id ∈ t.deletes, s.Below id) :
    Effect s (s.start c t) := by
  refine (h.effect.setTask (i := s.next) (v := some (c, t)) fun c' t' heq => ?_).congr rfl rfl rfl
  cases heq
  exact ht

lemma Marked.stepCompact (h : Marked s)
    (hs : stepCompact p order s a = some s') : Effect s s' := by
  have hput : ∀ {id length covers s₁}, s.putCompacted id length covers = some s₁ →
      Effect s s₁ := by
    intro id length covers s₁ hs₁
    unfold putCompacted at hs₁
    split_ifs at hs₁
    cases hs₁
    exact (h.put id length).congr rfl rfl rfl
  cases a <;> simp only [World.stepCompact, reduceCtorEq] at hs
  case advance c =>
    split at hs
    · split_ifs at hs
      cases hs
      exact h.start c (by simp [Task.deletes])
    · cases hs
  case advancePut i =>
    split at hs <;> cases hs
    exact (h.put _ 12).done i
  case compactBegin c | rangeBegin c =>
    obtain ⟨k, -, hs⟩ := bind_eq_some_iff.1 hs
    obtain ⟨e, -, rfl⟩ := map_eq_some_iff.1 hs
    exact h.start c (by simp [Task.deletes])
  case compactList i =>
    split at hs
    · next c k e ht =>
      split_ifs at hs <;> cases hs
      · exact h.effect.done i
      · exact h.effect.idle i c rfl
    · cases hs
  case compactPut i name set length | rangePut i name set length =>
    split at hs
    · obtain ⟨s₁, hs₁, rfl⟩ := map_eq_some_iff.1 hs
      exact (hput hs₁).done i
    · cases hs
  case rangeList i e =>
    split at hs <;> cases hs
    exact h.effect.idle i _ rfl
  case rangeCheck i =>
    split at hs
    · split at hs
      · split_ifs at hs
        cases hs
        exact h.effect.idle i _ rfl
      · cases hs
    · cases hs

lemma ClientMarked.below (h : ClientMarked s x) {k : Snap} (hk : x.known = some k)
    (hid : id ∈ k.cs.oldMarkers ++ k.cs.oldWatermarks p) : s.Below id := by
  rcases mem_append.1 hid with hid | hid <;> obtain ⟨m, hm, rfl⟩ := mem_map.1 hid
    <;> obtain ⟨hm, hold⟩ := mem_filter.1 hm
  · have hle := h.epoch k hk
    constructor
    · intro n hn
      simp only [hn, BlobID.epochNumber, decide_eq_true_eq] at hold
      omega
    · intro t ht
      cases hmid : m.blobID <;> simp only [hmid, BlobID.epochNumber, deletionWatermarkFromBlobID,
        reduceCtorEq, Bool.false_eq_true] at hold ht
  · constructor
    · intro n hn
      simp only [hn, deletionWatermarkFromBlobID, Bool.false_eq_true] at hold
    · intro t ht
      simp only [ht, Bool.and_eq_true, decide_eq_true_eq] at hold
      exact ((h.own k hk m hm t ht).lt_of_ne hold.1).trans_le (h.watermark k hk)

lemma below_superseded (ho : ∀ l, (order l).Perm l) {cs : CurrentSnapshot}
    (hid : id ∈ cs.superseded p (s.list order (·.isUncompacted))) : s.Below id := by
  obtain ⟨m, hm, rfl⟩ := mem_map.1 hid
  exact below_of_uncompacted ((mem_list ho).1 (mem_filter.1 hm).1).2

lemma Marked.stepClean (ho : ∀ l, (order l).Perm l) (h : Marked s)
    (hs : stepClean p order s a = some s') : Effect s s' := by
  cases a <;> simp only [World.stepClean, reduceCtorEq] at hs
  case cleanupBegin c | watermarkBegin c t =>
    obtain ⟨k, -, hs⟩ := bind_eq_some_iff.1 hs
    split_ifs at hs
    cases hs
    exact h.start c (by simp [Task.deletes])
  case cleanupList i =>
    split at hs <;> cases hs
    refine h.effect.setTask fun c t heq => ?_
    cases heq
    exact fun id => below_superseded ho
  case cleanupDelete i id =>
    split at hs
    · next c ids ht =>
      split_ifs at hs with hid
      cases hs
      exact (h.delete (h.tasks i c _ ht id hid)).congr rfl rfl rfl
    · cases hs
  case markersBegin c =>
    obtain ⟨k, hk, hs⟩ := bind_eq_some_iff.1 hs
    split_ifs at hs
    cases hs
    exact h.start c fun id => (h.clients c).below (committedState_eq_some hk)
  case markersDelete i id =>
    split at hs
    · next c ids ht =>
      split_ifs at hs with hid
      cases hs
      exact h.delete (h.tasks i c _ ht id hid)
    · cases hs
  case watermarkPut i =>
    split at hs <;> cases hs
    exact (h.put _ 18).idle i _ rfl
  case watermarkDone i =>
    split at hs
    · obtain ⟨s₁, hinv, rfl⟩ := map_eq_some_iff.1 hs
      exact (h.invalidate hinv).done i
    · cases hs

lemma Marked.stepRead (h : Marked s) (hs : stepRead order s a = some s') : Effect s s' := by
  cases a <;> simp only [World.stepRead, reduceCtorEq] at hs
  case readBegin c =>
    obtain ⟨k, -, rfl⟩ := map_eq_some_iff.1 hs
    exact h.start c (by simp [Task.deletes])
  case readList i e =>
    split at hs <;> cases hs
    exact h.effect.idle i _ rfl
  case readEnd i =>
    split at hs
    · split at hs
      · split_ifs at hs
        cases hs
        exact (h.effect.done i).congr rfl rfl rfl
      · cases hs
    · cases hs

lemma Marked.step (ho : ∀ l, (order l).Perm l) (h : Marked s)
    (hs : step p order s a = some s') : Effect s s' := by
  cases a
  all_goals simp only [World.step] at hs
  case tick d =>
    cases hs
    exact h.effect.congr rfl rfl rfl
  case abandon i =>
    cases hs
    exact h.effect.done i
  case refreshBegin | refreshMarkers | refreshWatermarks | refreshSingles | refreshRanges
      | refreshUncompacted | refreshEnd => exact h.stepRefresh ho hs
  case writeBegin | writeState | writeDrop | writePut | writeDone | writeCheck
      | writeWithdraw => exact h.stepWrite hs
  case advance | advancePut | compactBegin | compactList | compactPut | rangeBegin | rangeList
      | rangeCheck | rangePut => exact h.stepCompact hs
  case cleanupBegin | cleanupList | cleanupDelete | markersBegin | markersDelete | watermarkBegin
      | watermarkPut | watermarkDone => exact h.stepClean ho hs
  case readBegin | readList | readEnd => exact h.stepRead hs

lemma Marked.empty (now : ℤ) : Marked (.empty now) :=
  ⟨fun _ => ⟨nofun, nofun, nofun, nofun, nofun⟩, nofun⟩

lemma marked_of_reach (ho : ∀ l, (order l).Perm l)
    (h : Runs.Reach (step p order) Runs.Free Initial s) : Marked s := by
  refine Runs.Reach.invariant ?_ (fun s a s' hi _ hs => (hi.step ho hs).marked) h
  rintro s ⟨now, rfl⟩
  exact .empty now

/-- From any state reached on, the write epoch and the deletion watermark only grow. -/
theorem World.reach_markers_mono (ho : ∀ l, (order l).Perm l)
    (h : Runs.Reach (World.step p order) Runs.Free World.Initial s)
    (h' : Runs.Reach (World.step p order) Runs.Free (· = s) s') :
    s.writeEpoch ≤ s'.writeEpoch ∧ s.deletionWatermark ≤ s'.deletionWatermark := by
  suffices hm : Marked s' ∧ Marks s s' from ⟨hm.2.writeEpoch, hm.2.deletionWatermark⟩
  induction h' with
  | init hi =>
    subst hi
    exact ⟨marked_of_reach ho h, .refl _⟩
  | step _ _ hs ih =>
    have heff := ih.1.step ho hs
    exact ⟨heff.marked, ih.2.trans heff.marks⟩

end Effect

def watermarking : List EpochAction := List.flatten
  [[.watermarkBegin 0 (5 * 10 ^ 9), .watermarkPut 6, .watermarkDone 6], refreshing [1, 2, 3],
    [.watermarkBegin 0 (9 * 10 ^ 9), .watermarkPut 7, .watermarkDone 7], refreshing [1, 2, 3]]

def cleaningMarkers : List EpochAction := List.flatten
  [[.tick (4 * 10 ^ 9)], refreshing [1, 2, 3], putting 8 5, refreshing [1, 2, 3],
    [.markersBegin 0, .markersDelete 9 (.deletionWatermark 5)]]

theorem World.reach_markers_mono_cleaned : ∃ s s',
    Runs.Reach (World.step .tight id) Runs.Free World.Initial s
      ∧ Runs.Reach (World.step .tight id) Runs.Free (· = s) s'
      ∧ s.has (.deletionWatermark 5) = true ∧ s'.has (.deletionWatermark 5) = false
      ∧ s.writeEpoch ≤ s'.writeEpoch ∧ s.deletionWatermark ≤ s'.deletionWatermark := by
  have h : ∃ s ∈ Runs.run (step .tight id) Runs.Free (.empty 0) (advancing ++ watermarking),
      ∃ s' ∈ Runs.run (step .tight id) Runs.Free s cleaningMarkers,
        s.has (.deletionWatermark 5) = true ∧ s'.has (.deletionWatermark 5) = false := by
    decide +kernel
  obtain ⟨s, hs, s', hs', hhas⟩ := h
  have hreach : Runs.Reach (step .tight id) Runs.Free Initial s :=
    Runs.reach_of_run _ (.init ⟨0, rfl⟩) hs
  have hreach' : Runs.Reach (step .tight id) Runs.Free (· = s) s' :=
    Runs.reach_of_run _ (.init rfl) hs'
  exact ⟨s, s', hreach, hreach', hhas.1, hhas.2,
    reach_markers_mono (fun _ => .refl _) hreach hreach'⟩

end Warphold.Epoch
