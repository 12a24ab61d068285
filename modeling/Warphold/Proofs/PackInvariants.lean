import Warphold.Content.Invariants
import Warphold.Proofs.Durability
import Warphold.Proofs.Resolution

/-!
# The asserted invariants along runs

Every entry of a pack or of the unflushed index stands under its ID, has a time and a pack, and
those that are not deleted are of their pack and of the format in use (`Ok`).
-/

namespace Warphold.Content.Manager

open List Option Manager Builder

structure EntryOk (cfg : Config) (i : Info) : Prop where
  pack : i.packBlobID ≠ []
  time : 0 < i.timestampSeconds
  format : i.deleted = false → i.formatVersion = cfg.version

structure PackOk (cfg : Config) (pp : Pack) : Prop where
  name : pp.packBlobID ≠ []
  keyed : pp.currentPackItems.Keyed
  entries : ∀ i ∈ pp.currentPackItems.infos, EntryOk cfg i
  own : ∀ i ∈ pp.currentPackItems.infos, i.deleted = false → i.packBlobID = pp.packBlobID

structure Ok (cfg : Config) (s : Manager) : Prop where
  pending : ∀ k pp, s.pendingPacks k = some pp → PackOk cfg pp
  writing : ∀ pp ∈ s.writingPacks, PackOk cfg pp
  failed : ∀ pp ∈ s.failedPacks, PackOk cfg pp
  keyed : s.packIndexBuilder.Keyed
  builder : ∀ i ∈ s.packIndexBuilder.infos, EntryOk cfg i
  indexes : ∀ blob ∈ s.storage.indexBlobs, ∀ i ∈ blob.2, i.packBlobID ≠ []
  merged : ∀ ndx ∈ s.merged, ∀ i ∈ ndx, i.packBlobID ≠ []

variable {cfg : Config} {env : Env} {s : Manager} {pp : Pack}

section Entries

lemma contentWriteTime_pos (h : 0 < env.write / 10 ^ 9) (prev : ℤ) :
    0 < contentWriteTime env.write prev := by
  unfold contentWriteTime
  split_ifs <;> omega

lemma PackOk.insert (h : PackOk cfg pp) {i : Info} (hi : EntryOk cfg i)
    (hown : i.deleted = false → i.packBlobID = pp.packBlobID) (data : Str) :
    PackOk cfg { pp with
      currentPackItems := pp.currentPackItems.insert i.contentID i, currentPackData := data } where
  name := h.name
  keyed := h.keyed.insert
  entries j hj := by
    rcases Shared.mem_infos_insert hj with rfl | hj
    · exact hi
    · exact h.entries j hj
  own j hj := by
    rcases Shared.mem_infos_insert hj with rfl | hj
    · exact hown
    · exact h.own j hj

lemma PackOk.erase (h : PackOk cfg pp) (c : ID) :
    PackOk cfg { pp with currentPackItems := pp.currentPackItems.erase c } where
  name := h.name
  keyed := h.keyed.erase c
  entries j hj := h.entries j (Shared.mem_infos_erase hj)
  own j hj := h.own j (Shared.mem_infos_erase hj)

lemma prepare_spec (cfg : Config) (up : Upload) (pp : Pack) :
    (pp.prepare cfg up).1.currentPackItems = pp.currentPackItems ∧
    (pp.prepare cfg up).1.packBlobID = pp.packBlobID ∧
    ∀ b ∈ (pp.prepare cfg up).2, ∀ i ∈ b.infos, i ∈ pp.currentPackItems.infos := by
  have hmem : ∀ i ∈ (addAll ∅ pp.currentPackItems.infos).infos,
      i ∈ pp.currentPackItems.infos := fun i hi =>
    (mem_infos_addAll _ hi).resolve_left not_mem_nil
  simp only [Pack.prepare]
  split_ifs <;> refine ⟨rfl, rfl, fun b hb => ?_⟩
  all_goals first
    | (obtain rfl := some.inj hb; exact hmem)
    | cases hb

end Entries

section Steps

lemma Ok.congr {s' : Manager} (h : Ok cfg s) (hp : s'.pendingPacks = s.pendingPacks)
    (hw : s'.writingPacks = s.writingPacks) (hf : s'.failedPacks = s.failedPacks)
    (hb : s'.packIndexBuilder = s.packIndexBuilder)
    (hi : ∀ blob ∈ s'.storage.indexBlobs, ∀ i ∈ blob.2, i.packBlobID ≠ [])
    (hm : ∀ ndx ∈ s'.merged, ∀ i ∈ ndx, i.packBlobID ≠ []) : Ok cfg s' :=
  ⟨hp ▸ h.pending, hw ▸ h.writing, hf ▸ h.failed, hb ▸ h.keyed, hb ▸ h.builder, hi, hm⟩

lemma Ok.setPending (h : Ok cfg s) (hpp : PackOk cfg pp) : Ok cfg (s.setPending pp) where
  __ := h
  pending k q hq := by
    rcases Runs.update_eq_some hq with ⟨-, heq⟩ | ⟨-, hq⟩
    · exact some.inj heq ▸ hpp
    · exact h.pending k q hq

lemma Ok.startWriting (h : Ok cfg s) (hpp : PackOk cfg pp) : Ok cfg (s.startWriting pp) where
  __ := h
  pending k q hq := by
    rcases Runs.update_eq_some hq with ⟨-, heq⟩ | ⟨-, hq⟩
    · cases heq
    · exact h.pending k q hq
  writing q hq := by
    rcases mem_append.1 hq with hq | hq
    · exact h.writing q hq
    · exact mem_singleton.1 hq ▸ hpp

lemma Ok.processWritePackResult (h : Ok cfg s) (hpp : PackOk cfg pp) {index : Option Builder}
    (hindex : ∀ b ∈ index, ∀ i ∈ b.infos, EntryOk cfg i) :
    Ok cfg (s.processWritePackResult pp index).1 := by
  have hremove : ∀ {packs : List Pack}, (∀ q ∈ packs, PackOk cfg q) →
      ∀ q ∈ removePendingPack packs pp, PackOk cfg q := fun hq q hmem =>
    hq q (mem_of_mem_filter hmem)
  cases index with
  | none =>
    refine ⟨h.pending, hremove h.writing, fun q hq => ?_, h.keyed, h.builder, h.indexes, h.merged⟩
    rcases mem_append.1 hq with hq | hq
    · exact hremove h.failed q hq
    · exact mem_singleton.1 hq ▸ hpp
  | some b =>
    refine ⟨h.pending, hremove h.writing, hremove h.failed, keyed_addAll _ h.keyed,
      fun i hi => ?_, h.indexes, h.merged⟩
    rcases mem_infos_addAll _ hi with hi | hi
    · exact h.builder i hi
    · exact hindex b rfl i hi

lemma Ok.putBlob (h : Ok cfg s) (pp : Pack) : Ok cfg (s.putBlob pp) :=
  { h with }

lemma Ok.writePack (h : Ok cfg s) (hpp : PackOk cfg pp) :
    Ok cfg (s.writePackAndAddToIndex cfg env pp).1 := by
  obtain ⟨hitems, hname, hindex⟩ := prepare_spec cfg (env.upload pp.packBlobID) pp
  rcases hprep : pp.prepare cfg (env.upload pp.packBlobID) with ⟨pp', index⟩
  rw [hprep] at hitems hname hindex
  have hpp' : PackOk cfg pp' := by
    refine ⟨?_, ?_, ?_, ?_⟩
    · exact hname ▸ hpp.name
    · exact hitems ▸ hpp.keyed
    · exact hitems ▸ hpp.entries
    · exact hitems ▸ hname ▸ hpp.own
  have hentries : ∀ b ∈ index, ∀ i ∈ b.infos, EntryOk cfg i := fun b hb i hi =>
    hpp.entries i (hindex b hb i hi)
  unfold writePackAndAddToIndex prepareAndWritePack
  simp only [hprep]
  cases index with
  | none => exact h.processWritePackResult hpp' hentries
  | some b =>
    dsimp only
    split_ifs
    · exact h.processWritePackResult hpp' hentries
    · cases (env.upload pp.packBlobID).put
      · exact (h.putBlob pp').processWritePackResult hpp' hentries
      · exact h.processWritePackResult hpp' nofun
      · exact (h.putBlob pp').processWritePackResult hpp' nofun

lemma Ok.retryPacks : ∀ {pps : List Pack} {s : Manager}, Ok cfg s → (∀ pp ∈ pps, PackOk cfg pp) →
    Ok cfg (s.retryPacks cfg env pps).1
  | [], _, h, _ => h
  | pp :: pps, s, h, hpps => by
    have hw : Ok cfg (s.writePackAndAddToIndex cfg env pp).1 := h.writePack (hpps pp mem_cons_self)
    rcases hr : s.writePackAndAddToIndex cfg env pp with ⟨s', _ | ⟨⟩⟩
    all_goals
      rw [hr] at hw
      simp only [Manager.retryPacks, hr]
    · exact hw
    · exact hw.retryPacks fun q hq => hpps q (List.mem_cons_of_mem _ hq)

lemma Ok.finishPacks : ∀ (pres : List PackPrefix) {s : Manager}, Ok cfg s →
    Ok cfg (s.finishPacks cfg env pres).1
  | [], _, h => h
  | pre :: rest, s, h => by
    rcases hp : s.pendingPacks pre with _ | pp
    · simp only [Manager.finishPacks, hp]
      exact h.finishPacks rest
    · have hpp := h.pending pre pp hp
      have hw : Ok cfg ((s.startWriting pp).writePackAndAddToIndex cfg env pp).1 :=
        (h.startWriting hpp).writePack hpp
      rcases hr : (s.startWriting pp).writePackAndAddToIndex cfg env pp with ⟨s', _ | ⟨⟩⟩
      all_goals
        rw [hr] at hw
        simp only [Manager.finishPacks, hp, hr]
      · exact hw
      · exact hw.finishPacks rest

lemma packs_of_build {v : IndexVersion} {overhead : ℕ} {is : List Info} {ndx : Index}
    (h : v.build overhead is = some ndx) (his : ∀ i ∈ is, i.packBlobID ≠ []) :
    ∀ i ∈ ndx, i.packBlobID ≠ [] := by
  unfold IndexVersion.build at h
  split_ifs at h
  cases h
  intro i hi
  obtain ⟨j, hj, rfl⟩ := mem_map.1 hi
  rw [Shared.packBlobID_stored]
  exact his j hj

lemma packs_of_combine {v : IndexVersion} {overhead : ℕ} {m m' : List Index}
    (h : combineSmallIndexes v overhead m = some m')
    (hm : ∀ ndx ∈ m, ∀ i ∈ ndx, i.packBlobID ≠ []) : ∀ ndx ∈ m', ∀ i ∈ ndx, i.packBlobID ≠ [] := by
  simp only [combineSmallIndexes] at h
  split_ifs at h
  · exact some.inj h ▸ hm
  · obtain ⟨built, hb, rfl⟩ := map_eq_some_iff.1 h
    intro ndx hndx
    rcases mem_append.1 hndx with hndx | hndx
    · exact hm ndx (mem_of_mem_filter hndx)
    · obtain rfl := mem_singleton.1 hndx
      refine packs_of_build hb fun i hi => ?_
      have hmem := (mem_infos_addAll _ hi).resolve_left not_mem_nil
      obtain ⟨ndx', hndx', hi⟩ := mem_flatten.1 hmem
      exact hm ndx' (mem_of_mem_filter hndx') i hi

lemma Ok.refreshIndexes (h : Ok cfg s) (loaded : ℤ) : Ok cfg (s.refreshIndexes cfg loaded).1 := by
  simp only [Manager.refreshIndexes]
  split_ifs
  · exact h.congr rfl rfl rfl rfl h.indexes h.merged
  · split
    · exact h.congr rfl rfl rfl rfl h.indexes h.merged
    · next m hc =>
      refine h.congr rfl rfl rfl rfl h.indexes (packs_of_combine hc fun ndx hndx => ?_)
      obtain ⟨blob, hblob, rfl⟩ := mem_map.1 hndx
      exact h.indexes blob hblob

lemma Ok.maybeRefreshIndexes (h : Ok cfg s) (t : RefreshClock) :
    Ok cfg (s.maybeRefreshIndexes cfg t).1 := by
  unfold Manager.maybeRefreshIndexes
  split_ifs
  · exact h
  · exact h.refreshIndexes t.loaded
  · exact h

lemma Ok.getContentInfo (h : Ok cfg s) (t : RefreshClock) (id : ID) :
    Ok cfg (s.getContentInfo cfg t id).1 := by
  have hr := h.maybeRefreshIndexes t
  unfold Manager.getContentInfo
  rcases s.getOverlayContentInfo id with _ | r
  · rcases hm : s.maybeRefreshIndexes cfg t with ⟨s', _ | _⟩
    · rw [hm] at hr
      exact hr
    · rw [hm] at hr
      cases hc : s'.committedContent id <;> simpa only [hc] using hr
  · exact h

lemma Ok.writeIndexBlobs (h : Ok cfg s) {blobs : List (Str × Index)}
    (hb : ∀ blob ∈ blobs, ∀ i ∈ blob.2, i.packBlobID ≠ []) : Ok cfg (s.writeIndexBlobs blobs) := by
  refine h.congr rfl rfl rfl rfl (fun blob hblob => ?_) h.merged
  rcases mem_append.1 hblob with hblob | hblob
  · exact h.indexes blob hblob
  · exact hb blob hblob

lemma Ok.addIndexBlobs : ∀ {blobs : List (Str × Index)} {s : Manager}, Ok cfg s →
    (∀ blob ∈ blobs, ∀ i ∈ blob.2, i.packBlobID ≠ []) → Ok cfg (blobs.foldl addIndexBlob s)
  | [], _, h, _ => h
  | blob :: rest, s, h, hb => by
    refine Ok.addIndexBlobs (s := s.addIndexBlob blob) ?_ fun b hmem => hb b (mem_cons_of_mem _ hmem)
    unfold addIndexBlob
    split_ifs
    · exact h
    · refine h.congr rfl rfl rfl rfl h.indexes fun ndx hndx => ?_
      rcases mem_append.1 hndx with hndx | hndx
      · exact h.merged ndx hndx
      · exact mem_singleton.1 hndx ▸ hb blob mem_cons_self

lemma Ok.flushPackIndexes (h : Ok cfg s) : Ok cfg (s.flushPackIndexes cfg env).1 := by
  unfold Manager.flushPackIndexes
  split_ifs with hoff hempty
  · exact h
  · exact h.congr rfl rfl rfl rfl h.indexes h.merged
  · rcases hm : (s.packIndexBuilder.shard defaultIndexShardSize).mapM
      (cfg.indexVersion.build cfg.overhead) with _ | shards
    · exact h
    · have hblobs : ∀ blob ∈ shards.mapIdx fun k ndx => (env.indexBlobID k, ndx),
          ∀ i ∈ blob.2, i.packBlobID ≠ [] := by
        intro blob hblob i hi
        obtain ⟨j, hj, heq⟩ := (Shared.blobs_spec h.keyed hm env.indexBlobID).1 blob hblob i hi
        rw [heq]
        exact (h.builder j hj).pack
      have hwritten := h.writeIndexBlobs hblobs
      dsimp only
      rcases env.indexFault with _ | (n | _)
      · have hadd := hwritten.addIndexBlobs hblobs
        exact { hadd with keyed := Keyed.empty, builder := nofun }
      · exact h.writeIndexBlobs fun blob hb => hblobs blob (mem_of_mem_take hb)
      · exact hwritten

lemma Ok.flushing (h : Ok cfg s) (b : Bool) : Ok cfg { s with flushing := b } :=
  h.congr rfl rfl rfl rfl h.indexes h.merged

lemma Ok.flushBegin (h : Ok cfg s) : Ok cfg (s.flushBegin cfg env).1 := by
  have hr : Ok cfg ({ s with flushing := true }.retryFailedPacks cfg env).1 :=
    (h.flushing true).retryPacks h.failed
  unfold Manager.flushBegin
  rcases hres : ({ s with flushing := true } : Manager).retryFailedPacks cfg env with ⟨s', _ | ⟨⟩⟩
  · rw [hres] at hr
    exact hr.flushing false
  · rw [hres] at hr
    exact hr

lemma Ok.flushFinish (h : Ok cfg s) : Ok cfg (s.flushFinish cfg env).1 := by
  have hr : Ok cfg (s.finishAllPacks cfg env).1 := h.finishPacks _
  unfold Manager.flushFinish
  rcases hres : s.finishAllPacks cfg env with ⟨s', _ | ⟨⟩⟩
  · rw [hres] at hr
    exact hr.flushing false
  · rw [hres] at hr
    have hf : Ok cfg (s'.flushPackIndexes cfg env).1 := hr.flushPackIndexes
    dsimp only
    generalize s'.flushPackIndexes cfg env = r at hf ⊢
    exact hf.flushing false

lemma Ok.getOrCreate (h : Ok cfg s) (hname : env.packBlobID ≠ []) {pre : PackPrefix} {pp : Pack}
    (hg : s.getOrCreatePendingPack cfg env pre = some pp) : PackOk cfg pp := by
  unfold getOrCreatePendingPack at hg
  rcases hp : s.pendingPacks pre with _ | q
  · simp only [hp] at hg
    split_ifs at hg
    cases hg
    exact ⟨hname, Keyed.empty, nofun, nofun⟩
  · simp only [hp] at hg
    cases hg
    exact h.pending pre pp hp

lemma Ok.appendToPack (h : Ok cfg s) (hname : env.packBlobID ≠ []) (hclock : 0 < env.write / 10 ^ 9)
    (id : ID) (length : ℕ) (isDeleted : Bool) (comp : ℕ) (prev : ℤ) (payload : Str) :
    Ok cfg (s.appendToPack cfg env id length isDeleted comp prev payload).1 := by
  have hr : Ok cfg (s.retryFailedPacks cfg env).1 := h.retryPacks h.failed
  unfold Manager.appendToPack
  rcases hres : s.retryFailedPacks cfg env with ⟨s', _ | ⟨⟩⟩
  all_goals rw [hres] at hr
  · exact hr
  · dsimp only
    rcases hg : s'.getOrCreatePendingPack cfg env (packPrefixForContentID id) with _ | pp
    · exact hr
    · have hpp := hr.getOrCreate hname hg
      have hnew := hpp.insert (i := newInfo cfg env pp id length isDeleted comp prev payload)
        ⟨hpp.name, contentWriteTime_pos hclock prev, fun _ => rfl⟩ (fun _ => rfl)
        (pp.currentPackData ++ payload)
      dsimp only
      split_ifs
      · exact hr.startWriting hnew
      · exact hr.setPending hnew

lemma Ok.deletePreexistingContent (h : Ok cfg s) (hname : env.packBlobID ≠ [])
    (hclock : 0 < env.write / 10 ^ 9) {ci : Info} (hci : ci.packBlobID ≠ []) :
    Ok cfg (s.deletePreexistingContent cfg env ci).1 := by
  unfold Manager.deletePreexistingContent
  split_ifs
  · exact h
  · rcases hg : s.getOrCreatePendingPack cfg env (packPrefixForContentID ci.contentID) with _ | pp
    · exact h
    · exact h.setPending ((h.getOrCreate hname hg).insert
        (i := deletedInfo ci (contentWriteTime env.write ci.timestampSeconds))
        ⟨hci, contentWriteTime_pos hclock _, nofun⟩ nofun _)

lemma Ok.pendingList (h : Ok cfg s) : ∀ pp ∈ s.pendingList, PackOk cfg pp := by
  intro pp hpp
  obtain ⟨k, -, hk⟩ := mem_filterMap.1 hpp
  exact h.pending k pp hk

lemma Ok.committedContent (h : Ok cfg s) {id : ID} {i : Info}
    (hi : s.committedContent id = some i) : i.packBlobID ≠ [] := by
  obtain ⟨hget, -⟩ := filter_eq_some_iff.1 hi
  obtain ⟨ndx, hndx, hfind⟩ := mem_filterMap.1 (foldl_newer_stands hget).1
  exact h.merged ndx hndx i (mem_of_find?_eq_some hfind)

lemma Ok.deleteContent (h : Ok cfg s) (hname : env.packBlobID ≠ []) (hclock : 0 < env.write / 10 ^ 9)
    (id : ID) : Ok cfg (s.deleteContent cfg env id).1 := by
  unfold Manager.deleteContent
  split
  · next pp hp => exact h.setPending ((h.pendingList pp (List.mem_of_find?_eq_some hp)).erase id)
  split
  · next bi hw =>
    obtain ⟨pp, hpp, hf⟩ := exists_of_findSome?_eq_some hw
    obtain ⟨hl, -⟩ := filter_eq_some_iff.1 hf
    exact h.deletePreexistingContent hname hclock
      ((h.writing pp hpp).entries bi (mem_infos.2 ⟨id, hl⟩)).pack
  split
  · next bi hb =>
    exact h.deletePreexistingContent hname hclock
      (h.builder bi (mem_infos.2 ⟨id, hb⟩)).pack
  have hr := h.maybeRefreshIndexes env.refresh
  rcases hm : s.maybeRefreshIndexes cfg env.refresh with ⟨s', _ | _⟩
  all_goals rw [hm] at hr
  · exact hr
  · dsimp only
    rcases hc : s'.committedContent id with _ | bi
    · exact hr
    · exact hr.deletePreexistingContent hname hclock (hr.committedContent hc)

lemma Ok.locked (h : Ok cfg s) {a : Locked} (ha : Sound s a) {s' : Manager}
    (hs : locked cfg s a = some s') : Ok cfg s' := by
  cases a with
  | lookup id t => exact some.inj hs ▸ h.getContentInfo t id
  | retry env => exact some.inj hs ▸ h.retryPacks h.failed
  | append id length isDeleted comp prev payload env =>
    obtain ⟨hname, hclock⟩ := ha env rfl
    exact some.inj hs ▸ h.appendToPack hname hclock id length isDeleted comp prev payload
  | uploaded i env =>
    obtain ⟨pp, hpp, rfl⟩ := map_eq_some_iff.1 hs
    exact h.writePack (h.writing pp (mem_of_getElem? hpp))
  | delete id env =>
    obtain ⟨hname, hclock⟩ := ha env rfl
    exact some.inj hs ▸ h.deleteContent hname hclock id
  | flushBegin env => exact some.inj hs ▸ h.flushBegin
  | flushFinish env => exact some.inj hs ▸ h.flushFinish
  | disableIndexFlush => exact some.inj hs ▸ h.congr rfl rfl rfl rfl h.indexes h.merged
  | enableIndexFlush => exact some.inj hs ▸ h.congr rfl rfl rfl rfl h.indexes h.merged

lemma OpenedOn.ok (h : OpenedOn s) : Ok cfg s where
  pending k pp hpp := by
    rw [h.pending] at hpp
    cases hpp
  writing := by simp [h.writing]
  failed := by simp [h.failed]
  keyed := h.builder ▸ Keyed.empty
  builder := by
    rw [h.builder]
    nofun
  indexes := h.indexes
  merged := h.merged

end Steps

section Assertions

lemma mem_infos_of_entries {b : Builder} {e : Sigma fun _ : ID => Info} (h : e ∈ b.entries) :
    e.2 ∈ b.infos ∧ b.lookup e.1 = some e.2 :=
  ⟨mem_map.2 ⟨e, h, rfl⟩, AList.mem_lookup_iff.2 h⟩

lemma Ok.verifyCurrentPackItems (h : Ok cfg s) : s.verifyCurrentPackItemsLocked = true := by
  refine all_eq_true.2 fun pp hpp => all_eq_true.2 fun e he => ?_
  have hok := h.pendingList pp hpp
  obtain ⟨hmem, hl⟩ := mem_infos_of_entries he
  have htime := (hok.entries e.2 hmem).time
  have hown := hok.own e.2 hmem
  simp only [Bool.and_eq_true, Bool.or_eq_true, decide_eq_true_eq, ne_eq]
  refine ⟨⟨hok.keyed _ _ hl, ?_⟩, by omega⟩
  cases hd : e.2.deleted
  · exact .inr (hown hd)
  · exact .inl rfl

lemma Ok.verifyPackIndexBuilder_iff (h : Ok cfg s) : s.verifyPackIndexBuilderLocked cfg = true ↔
    ∀ i ∈ s.packIndexBuilder.infos, i.deleted = false := by
  rw [verifyPackIndexBuilderLocked, List.all_eq_true]
  constructor
  · intro hall i hi
    obtain ⟨e, he, rfl⟩ := mem_map.1 hi
    have := hall e he
    simp only [Bool.and_eq_true, decide_eq_true_eq] at this
    cases hd : e.2.deleted
    · rfl
    · rw [hd, if_pos rfl] at this
      exact absurd (of_decide_eq_true this.1.2) (h.builder e.2 hi).pack
  · intro hlive e he
    obtain ⟨hmem, hl⟩ := mem_infos_of_entries he
    have hok := h.builder e.2 hmem
    have hd := hlive e.2 hmem
    have htime := hok.time
    simp only [hd, Bool.false_eq_true, if_false, Bool.and_eq_true, decide_eq_true_eq, ne_eq]
    exact ⟨⟨h.keyed _ _ hl, hok.pack, hok.format hd⟩, by omega⟩

instance (s : Manager) (a : Locked) : Decidable (Sound s a) := by
  unfold Sound
  infer_instance

lemma start_openedOn : OpenedOn Shared.Sample.start.mgr :=
  ⟨fun _ => rfl, rfl, rfl, rfl, nofun, nofun⟩

def writeAndFlush : List Locked :=
  [.append ⟨0, [5]⟩ 1 false 0 (-1) [0, 5] (Shared.Sample.env [112, 1] .ok),
    .flushBegin (Shared.Sample.env [112, 1] .ok), .flushFinish (Shared.Sample.env [112, 1] .ok)]

end Assertions

end Warphold.Content.Manager
