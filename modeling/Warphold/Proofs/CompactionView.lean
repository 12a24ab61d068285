import Warphold.Proofs.CompactionChain
import Warphold.Proofs.Durability
import Warphold.Proofs.Resolution

/-!
# What a compaction makes of the view

Of a content, a compaction keeps the greatest entry of its input blobs, unless it is dropped. The
blobs that are not compacted keep theirs.
-/

namespace Warphold.Content

open Option List

lemma newer_newer (a : Option Info) (x y : Info) :
    newer (newer a x) y = (newer (some x) y).bind (newer a) := by
  cases a with
  | none =>
    simp only [newer]
    split_ifs <;> rfl
  | some b =>
    cases hxb : contentInfoGreaterThan x b <;> cases hyx : contentInfoGreaterThan y x <;>
      simp only [newer, hxb, hyx, if_true, Bool.false_eq_true, if_false, bind_some]
    · rw [not_greater_trans hyx hxb]
      simp
    · cases hyb : contentInfoGreaterThan y b with
      | true => simp
      | false =>
        rw [not_greater_trans hyb (not_greater_of_greater hxb)] at hyx
        cases hyx

lemma foldl_newer_newer (a : Option Info) : ∀ (l : List Info) (x : Info),
    l.foldl newer (newer a x) = (l.foldl newer (some x)).bind (newer a)
  | [], _ => rfl
  | y :: l, x => by
    rw [foldl_cons, foldl_cons, newer_newer]
    obtain ⟨z, hz⟩ : ∃ z, newer (some x) y = some z := by
      simp only [newer]
      split_ifs <;> exact ⟨_, rfl⟩
    rw [hz, bind_some, foldl_newer_newer a l z]

def joined (a b : Option Info) : Option Info :=
  match b with
  | none => a
  | some i => newer a i

lemma foldl_newer_eq_joined (a : Option Info) (l : List Info) :
    l.foldl newer a = joined a (l.foldl newer none) := by
  cases l with
  | nil => rfl
  | cons x l =>
    rw [foldl_cons, foldl_newer_newer, foldl_cons, newer]
    obtain ⟨w, hw, -⟩ := foldl_newer_some l x
    rw [hw]
    rfl

namespace ManagerV0

section Drop

variable {opt : CompactOptions} {bld : Builder} {c : ID}

lemma lookup_dropAll : ∀ (ids : List ID) (bld : Builder),
    (dropAll ids bld).lookup c = if c ∈ ids then none else bld.lookup c
  | [], _ => rfl
  | d :: ids, bld => by
    rw [dropAll, foldl_cons, ← dropAll, lookup_dropAll ids]
    by_cases hd : c = d
    · subst hd
      simp [AList.lookup_erase]
    · simp [AList.lookup_erase_ne hd, hd]

lemma keyed_dropAll : ∀ (ids : List ID) {bld : Builder}, bld.Keyed → (dropAll ids bld).Keyed
  | [], _, h => h
  | d :: ids, _, h => keyed_dropAll ids (h.erase d)

lemma keyed_dropContents (h : bld.Keyed) : (dropContentsFromBuilder opt bld).Keyed := by
  unfold dropContentsFromBuilder
  cases opt.dropDeletedBefore with
  | none => exact keyed_dropAll _ h
  | some cutoff => exact keyed_dropAll _ (keyed_dropAll _ h)

def CompactOptions.tooOld (opt : CompactOptions) (i : Info) : Bool :=
  match opt.dropDeletedBefore with
  | none => false
  | some cutoff => oldDeleted cutoff i

def CompactOptions.keep (opt : CompactOptions) (c : ID) (i : Option Info) : Option Info :=
  if c ∈ opt.dropContents then none else i.filter fun i => !opt.tooOld i

lemma eq_some_of_keep {x : Option Info} {i : Info} (h : opt.keep c x = some i) : x = some i := by
  unfold CompactOptions.keep at h
  split_ifs at h
  exact (filter_eq_some_iff.1 h).1

lemma lookup_dropContents (h : bld.Keyed) :
    (dropContentsFromBuilder opt bld).lookup c = opt.keep c (bld.lookup c) := by
  have hkeyed := keyed_dropAll opt.dropContents h
  have hlookup := lookup_dropAll (c := c) opt.dropContents bld
  unfold dropContentsFromBuilder CompactOptions.keep CompactOptions.tooOld
  cases opt.dropDeletedBefore with
  | none =>
    dsimp only
    rw [hlookup]
    cases bld.lookup c <;> simp [filter_some]
  | some cutoff =>
    dsimp only
    rw [lookup_dropAll, hlookup]
    by_cases hc : c ∈ opt.dropContents
    · simp [hc]
    rw [if_neg hc] at hlookup ⊢
    rw [if_neg hc]
    have hmem : c ∈ ((dropAll opt.dropContents bld).infos.filter (oldDeleted cutoff)).map
        (·.contentID) ↔ ∃ i, bld.lookup c = some i ∧ oldDeleted cutoff i = true := by
      rw [List.mem_map, ← hlookup]
      constructor
      · rintro ⟨i, hi, rfl⟩
        obtain ⟨hi, hold⟩ := mem_filter.1 hi
        obtain ⟨d, hd⟩ := Builder.mem_infos.1 hi
        obtain rfl := hkeyed d i hd
        exact ⟨i, hd, hold⟩
      · rintro ⟨i, hi, hold⟩
        exact ⟨i, mem_filter.2 ⟨Builder.mem_infos.2 ⟨c, hi⟩, hold⟩, hkeyed c i hi⟩
    cases hl : bld.lookup c with
    | none => simp
    | some i =>
      by_cases hold : oldDeleted cutoff i = true
      · rw [if_pos (hmem.2 ⟨i, hl, hold⟩), filter_some, hold]
        rfl
      · rw [if_neg fun hin => by
          obtain ⟨j, hj, hjold⟩ := hmem.1 hin
          obtain rfl := some.inj (hl.symm.trans hj)
          exact hold hjold]
        rw [Bool.not_eq_true] at hold
        rw [filter_some, hold]
        rfl

/-- A content to be dropped. -/
def CompactOptions.Drops (opt : CompactOptions) (c : ID) (i : Option Info) : Prop :=
  c ∈ opt.dropContents ∨ ∃ e, i = some e ∧ opt.tooOld e = true

/-- Dropping from one of two parts is dropping from both if the other has nothing of what is
dropped, and only then. -/
lemma joined_keep_iff (u s : Option Info) :
    joined u (opt.keep c s) = opt.keep c (joined u s) ↔ (opt.Drops c (joined u s) → u = none) := by
  unfold CompactOptions.keep CompactOptions.Drops
  by_cases hc : c ∈ opt.dropContents
  · simp [hc, joined]
  simp only [hc, if_false, false_or]
  cases s with
  | none =>
    cases u with
    | none => simp [joined]
    | some u =>
      cases hu : opt.tooOld u <;> simp [joined, filter_some, hu]
  | some s =>
    cases u with
    | none => cases hs : opt.tooOld s <;> simp [joined, newer, filter_some, hs]
    | some u =>
      cases hs : opt.tooOld s <;> cases hu : opt.tooOld u <;>
        cases hg : contentInfoGreaterThan s u <;> simp [joined, newer, filter_some, hs, hu, hg]

end Drop

section Active

variable {st : Store} {outs : List IndexBlob} {log : CompactionLog}

def registered (st : Store) (outs : List IndexBlob) (log : CompactionLog) : Store :=
  ⟨st.indexBlobs ++ outs, st.logs ++ [log], st.cleanups⟩

lemma visible_registered (hu : st.unused (outs.map (·.blobID)))
    (hout : log.outputs = outs.map (·.blobID)) {id : Str} :
    Visible (registered st outs log) id ↔ Visible st id ∧ id ∉ log.inputs := by
  have hlog : haveAllOutputs (registered st outs log) log = true := by
    rw [haveAllOutputs_iff, hout]
    intro o ho
    obtain ⟨b, hb, rfl⟩ := mem_map.1 ho
    exact has_iff.2 ⟨b, mem_append_right _ hb, rfl⟩
  constructor
  · intro h
    refine ⟨fun cl hcl hv => h cl (mem_append_left _ hcl) ?_,
      h log (mem_append_right _ (mem_singleton_self _)) hlog⟩
    exact (hu.haveAllOutputs_eq hcl).trans hv
  · rintro ⟨h, hid⟩ cl hcl hv
    rcases mem_append.1 hcl with hcl | hcl
    · exact h cl hcl ((hu.haveAllOutputs_eq hcl).symm.trans hv)
    · rw [mem_singleton.1 hcl]
      exact hid

lemma active_registered (hu : st.unused (outs.map (·.blobID)))
    (hout : log.outputs = outs.map (·.blobID)) (hin : ∀ i ∈ log.inputs, st.has i = true) :
    listActiveIndexBlobs (registered st outs log)
      = (listActiveIndexBlobs st).filter (fun b => !log.inputs.contains b.blobID) ++ outs := by
  rw [listActive_eq, listActive_eq, List.filter_filter]
  refine (List.filter_append _ _).trans ?_
  congr 1
  · refine filter_congr fun b _ => ?_
    rw [Bool.eq_iff_iff, visible_iff, visible_registered hu hout, Bool.and_eq_true, visible_iff]
    simp [and_comm]
  · refine filter_eq_self.2 fun b hb => ?_
    rw [visible_iff, visible_registered hu hout]
    obtain ⟨hnew, hlogs⟩ := hu.2 b.blobID (mem_map_of_mem hb)
    refine ⟨fun cl hcl _ => (hlogs cl hcl).1, fun hmem => ?_⟩
    rw [hin _ hmem] at hnew
    cases hnew

end Active

section View

variable {cfg : Config} {env : Env} {opt : CompactOptions} {st : Store}

/-- Blobs whose entries are one for a content, stay as they are in an index, and are the same where
the order does not tell them apart. -/
structure WellFormed (cfg : Config) (st : Store) : Prop where
  chained : Chained st
  distinct : ∀ b ∈ listActiveIndexBlobs st, (b.entries.map (·.contentID)).Nodup
  stable : ∀ b ∈ listActiveIndexBlobs st, ∀ i ∈ b.entries,
    cfg.indexVersion.stored cfg.overhead i = i
  untied : Untied ((listActiveIndexBlobs st).flatMap (·.entries))

lemma getInfo_eq_some {ndx : Index} (h : (ndx.map (·.contentID)).Nodup) {c : ID} {i : Info} :
    ndx.getInfo c = some i ↔ i ∈ ndx ∧ i.contentID = c := by
  constructor
  · intro hi
    exact ⟨mem_of_find?_eq_some hi, by simpa using find?_some hi⟩
  · rintro ⟨hi, rfl⟩
    cases hf : ndx.getInfo i.contentID with
    | none => exact absurd (find?_eq_none.1 hf i hi) (by simp)
    | some j =>
      have hj : j.contentID = i.contentID := by simpa using find?_some hf
      rw [inj_on_of_nodup_map h (mem_of_find?_eq_some hf) hi hj]

def infoIn (blobs : List IndexBlob) (c : ID) : Option Info :=
  Merged.getInfo (blobs.map (·.entries)) c

lemma mem_filterMap_getInfo {blobs : List IndexBlob}
    (h : ∀ b ∈ blobs, (b.entries.map (·.contentID)).Nodup) {c : ID} {i : Info} :
    i ∈ (blobs.map (·.entries)).filterMap (fun ndx => Index.getInfo ndx c)
      ↔ ∃ b ∈ blobs, i ∈ b.entries ∧ i.contentID = c := by
  rw [filterMap_map, mem_filterMap]
  exact exists_congr fun b => and_congr_right fun hb => getInfo_eq_some (h b hb)

lemma infoIn_eq_none {blobs : List IndexBlob}
    (h : ∀ b ∈ blobs, (b.entries.map (·.contentID)).Nodup) {c : ID} :
    infoIn blobs c = none ↔ ∀ b ∈ blobs, ∀ i ∈ b.entries, i.contentID ≠ c := by
  have hmem := fun i => mem_filterMap_getInfo h (c := c) (i := i)
  unfold infoIn Merged.getInfo
  generalize (blobs.map (·.entries)).filterMap (fun ndx => Index.getInfo ndx c) = l at hmem ⊢
  cases l with
  | nil =>
    refine iff_of_true rfl fun b hb i hi hc => ?_
    exact not_mem_nil ((hmem i).2 ⟨b, hb, hi, hc⟩)
  | cons i l =>
    obtain ⟨w, hw, -⟩ := foldl_newer_some l i
    refine iff_of_false ?_ fun hall => ?_
    · simp [newer, hw]
    · obtain ⟨b, hb, hi, hc⟩ := (hmem i).1 mem_cons_self
      exact hall b hb i hi hc

def restBlobs (st : Store) (inputs : List IndexBlob) : List IndexBlob :=
  (listActiveIndexBlobs st).filter fun b => !(inputs.map (·.blobID)).contains b.blobID

lemma WellFormed.mem_rest (hw : WellFormed cfg st) {inputs : List IndexBlob}
    (hsub : inputs ⊆ listActiveIndexBlobs st) {b : IndexBlob} :
    b ∈ restBlobs st inputs ↔ b ∈ listActiveIndexBlobs st ∧ b ∉ inputs := by
  rw [restBlobs, mem_filter]
  refine and_congr_right fun hb => ?_
  simp only [contains_eq_mem, Bool.not_eq_true', decide_eq_false_iff_not]
  refine not_congr ⟨fun hmem => ?_, fun hmem => mem_map_of_mem hmem⟩
  obtain ⟨b', hb', heq⟩ := mem_map.1 hmem
  rwa [← inj_on_of_nodup_map hw.chained.ids (mem_active.1 (hsub hb')).1 (mem_active.1 hb).1 heq]

lemma WellFormed.view_eq (hw : WellFormed cfg st) {inputs : List IndexBlob}
    (hsub : inputs ⊆ listActiveIndexBlobs st) (c : ID) :
    st.view c = joined (infoIn (restBlobs st inputs) c)
      (resolve (inputs.flatMap (·.entries)) c) := by
  have hrest : ∀ b ∈ restBlobs st inputs, (b.entries.map (·.contentID)).Nodup :=
    fun b hb => hw.distinct b (mem_filter.1 hb).1
  rw [infoIn, Merged.getInfo, resolve, ← foldl_newer_eq_joined, ← foldl_append]
  refine foldl_newer_congr (c := c) (fun i => ?_) (fun i hi => ?_)
    (hw.untied.subset fun i hi => ?_)
  · rw [mem_append, mem_filterMap_getInfo hw.distinct, mem_filterMap_getInfo hrest,
      mem_filter, mem_flatMap, decide_eq_true_eq]
    constructor
    · rintro ⟨b, hb, hi⟩
      by_cases hin : b ∈ inputs
      · exact .inr ⟨⟨b, hin, hi.1⟩, hi.2⟩
      · exact .inl ⟨b, (hw.mem_rest hsub).2 ⟨hb, hin⟩, hi⟩
    · rintro (⟨b, hb, hi⟩ | ⟨⟨b, hb, hi⟩, hc⟩)
      · exact ⟨b, (mem_filter.1 hb).1, hi⟩
      · exact ⟨b, hsub hb, hi, hc⟩
  · obtain ⟨b, -, -, hc⟩ := (mem_filterMap_getInfo hw.distinct).1 hi
    exact hc
  · obtain ⟨b, hb, hi, -⟩ := (mem_filterMap_getInfo hw.distinct).1 hi
    exact mem_flatMap.2 ⟨b, hb, hi⟩

end View

section Compact

variable {cfg : Config} {env : Env} {opt : CompactOptions} {st st' : Store}

def inputBlobs (cfg : Config) (opt : CompactOptions) (st : Store) : List IndexBlob :=
  let blobs := getBlobsToCompact cfg.maxPackSize opt (listActiveIndexBlobs st)
  if idle opt blobs then [] else blobs

lemma getBlobsToCompact_subset (n : ℕ) (opt : CompactOptions) (l : List IndexBlob) :
    getBlobsToCompact n opt l ⊆ l := by
  unfold getBlobsToCompact
  extract_lets nonCompacted verySmall medium
  have hsub : nonCompacted ⊆ l := filter_subset_self _
  split_ifs
  · exact nil_subset l
  · exact Subset.trans (filter_subset_self _) hsub
  · exact hsub

lemma compactIndexBlobs_done {blobs : List IndexBlob} {r : Store × Outcome}
    (h : compactIndexBlobs cfg env opt blobs st = r) (hr : r.2 ≠ .failed) :
    idle opt blobs = true ∧ r = (st, .skipped) ∨ idle opt blobs = false ∧
      ∃ shards, buildShards cfg (compactedBuilder opt blobs) = some shards ∧
        r = (registered st (outputBlobs env shards) ⟨env.logID, env.logTime,
          blobs.map (·.blobID), (outputBlobs env shards).map (·.blobID)⟩, .registered) := by
  subst h
  unfold compactIndexBlobs at hr ⊢
  by_cases hidle : idle opt blobs = true
  · rw [if_pos hidle]
    exact .inl ⟨hidle, rfl⟩
  rw [if_neg hidle] at hr ⊢
  rw [Bool.not_eq_true] at hidle
  by_cases hread : (blobs.any fun b => env.unreadable b.blobID) = true
  · rw [if_pos hread] at hr
    exact absurd rfl hr
  rw [if_neg hread] at hr ⊢
  rcases hb : buildShards cfg (compactedBuilder opt blobs) with _ | shards <;> rw [hb] at hr
  · exact absurd rfl hr
  dsimp only at hr ⊢
  rcases hwr : env.writes with _ | n <;> rw [hwr] at hr
  · dsimp only at hr ⊢
    by_cases hlog : env.logFails = true
    · rw [if_pos hlog] at hr
      exact absurd rfl hr
    · rw [if_neg hlog]
      exact .inr ⟨hidle, shards, rfl, rfl⟩
  · exact absurd rfl hr

lemma finish_active {r : Store × Outcome} (hc : Chained r.1) (h : finish env opt r = (st', true)) :
    r.2 ≠ .failed ∧ listActiveIndexBlobs st' = listActiveIndexBlobs r.1 := by
  obtain ⟨st, o⟩ := r
  have hsafe : (st, o).2 = .registered →
      Safe env env.logTime opt.maxEventualConsistencySettleTime (st, o).1 := by
    rintro rfl
    refine .inl ?_
    cases hd : env.deletes with
    | none => rfl
    | some n => simp [finish, deleteOldBlobs, hd] at h
  have hactive := (hc.finish hsafe).2
  rw [h] at hactive
  refine ⟨?_, hactive⟩
  rintro rfl
  cases congrArg Prod.snd h

lemma eq_of_buildShards {bld : Builder} {shards : List Index}
    (h : buildShards cfg bld = some shards) : shards =
      (bld.shard defaultIndexShardSize).map (·.map (cfg.indexVersion.stored cfg.overhead)) :=
  eq_of_mapM_build h

lemma map_entries_outputBlobs (shards : List Index) :
    (outputBlobs env shards).map (·.entries) = shards := by
  refine ext_getElem? fun k => ?_
  rw [getElem?_map, outputBlobs, getElem?_mapIdx]
  cases shards[k]? <;> rfl

lemma WellFormed.view_registered (hw : WellFormed cfg st) {blobs : List IndexBlob}
    (hsub : blobs ⊆ listActiveIndexBlobs st) (hread : ∀ b ∈ blobs, b.stops = none)
    {shards : List Index} (hb : buildShards cfg (compactedBuilder opt blobs) = some shards) (c : ID) :
    Merged.getInfo ((restBlobs st blobs ++ outputBlobs env shards).map (·.entries)) c
      = joined (infoIn (restBlobs st blobs) c)
          (opt.keep c (resolve (blobs.flatMap (·.entries)) c)) := by
  have hdel : blobs.flatMap (·.delivered) = blobs.flatMap (·.entries) := by
    refine flatMap_congr fun b hb => ?_
    rw [IndexBlob.delivered, hread b hb]
  have hall : (Builder.addAll ∅ (blobs.flatMap (·.delivered))).Keyed :=
    Builder.keyed_addAll _ Builder.Keyed.empty
  have hlookup : (compactedBuilder opt blobs).lookup c
      = opt.keep c (resolve (blobs.flatMap (·.entries)) c) := by
    rw [compactedBuilder, lookup_dropContents hall, lookup_addAll_empty, hdel]
  have hkeyed : (compactedBuilder opt blobs).Keyed := keyed_dropContents hall
  rw [map_append, map_entries_outputBlobs, eq_of_buildShards hb, getInfo_flushed hkeyed, hlookup]
  cases hk : opt.keep c (resolve (blobs.flatMap (·.entries)) c) with
  | none => rfl
  | some i =>
    obtain ⟨b, hb, hi⟩ := mem_flatMap.1
      (mem_filter.1 (resolve_stands (eq_some_of_keep hk)).1).1
    dsimp only
    rw [hw.stable b (hsub hb) i hi]
    rfl

/-- The view that is asked for: what there was, without the contents to be dropped. -/
def askedView (opt : CompactOptions) (st : Store) (c : ID) : Option Info := opt.keep c (st.view c)

lemma WellFormed.view_compact (hw : WellFormed cfg st) (hf : env.fresh cfg opt st)
    (h : compact env cfg opt st = (st', true))
    (hread : ∀ b ∈ inputBlobs cfg opt st, b.stops = none) (c : ID) :
    st'.view c = askedView opt st c ↔ (opt.Drops c (st.view c) →
      ∀ b ∈ listActiveIndexBlobs st, b ∉ inputBlobs cfg opt st →
        ∀ i ∈ b.entries, i.contentID ≠ c) := by
  obtain ⟨hne, hactive⟩ := finish_active (hw.chained.compactIndexBlobs hf) h
  have hview : st'.view c = (beforeDeletions cfg opt env st).1.view c := by
    rw [Store.view, hactive, Store.view]
  rw [hview]
  generalize hr : beforeDeletions cfg opt env st = r at hne hactive
  unfold beforeDeletions at hr
  have hsub := getBlobsToCompact_subset cfg.maxPackSize opt (listActiveIndexBlobs st)
  rcases compactIndexBlobs_done hr hne with ⟨hidle, rfl⟩ | ⟨hidle, shards, hb, rfl⟩
  · -- nothing is compacted, and nothing is to be dropped
    obtain ⟨⟨-, hbefore⟩, hids⟩ : (_ ∧ opt.dropDeletedBefore = none) ∧ opt.dropContents = [] := by
      simpa [idle] using hidle
    have hold : ∀ i, opt.tooOld i = false := fun i => by rw [CompactOptions.tooOld, hbefore]
    refine iff_of_true ?_ fun hdrops => ?_
    · rw [askedView, CompactOptions.keep, hids, if_neg not_mem_nil]
      cases st.view c with
      | none => rfl
      | some i => rw [filter_some, hold]; rfl
    · rcases hdrops with hmem | ⟨e, -, he⟩
      · rw [hids] at hmem
        cases hmem
      · rw [hold] at he
        cases he
  · have hunused := hf.1
    rw [beforeDeletions, hr, registered, drop_left] at hunused
    have hinputs : inputBlobs cfg opt st
        = getBlobsToCompact cfg.maxPackSize opt (listActiveIndexBlobs st) :=
      if_neg (by rw [hidle]; exact Bool.false_ne_true)
    rw [hinputs] at hread ⊢
    have hin : ∀ i ∈ (getBlobsToCompact cfg.maxPackSize opt (listActiveIndexBlobs st)).map
        (·.blobID), st.has i = true := by
      intro i hi
      obtain ⟨b, hmem, rfl⟩ := mem_map.1 hi
      exact has_iff.2 ⟨b, (mem_active.1 (hsub hmem)).1, rfl⟩
    have hrest : ∀ b ∈ restBlobs st (getBlobsToCompact cfg.maxPackSize opt
        (listActiveIndexBlobs st)), (b.entries.map (·.contentID)).Nodup :=
      fun b hb => hw.distinct b (mem_filter.1 hb).1
    rw [Store.view, active_registered hunused rfl hin, ← restBlobs,
      hw.view_registered hsub hread hb, askedView, hw.view_eq hsub, joined_keep_iff,
      infoIn_eq_none hrest]
    refine forall_congr' fun _ => ⟨fun hall b hb hnot => hall b ((hw.mem_rest hsub).2 ⟨hb, hnot⟩),
      fun hall b hb => ?_⟩
    obtain ⟨hb, hnot⟩ := (hw.mem_rest hsub).1 hb
    exact hall b hb hnot

/-- A compaction reads its inputs to their ends and gives the view that is asked for if they can be
read so and the other active blobs have no entry of a content to be dropped, and only then. -/
theorem compact_view_iff (hw : WellFormed cfg st) (hf : env.fresh cfg opt st)
    (h : compact env cfg opt st = (st', true)) :
    (∀ c, st'.view c = askedView opt st c) ∧ (∀ b ∈ inputBlobs cfg opt st, b.stops = none) ↔
      (∀ b ∈ inputBlobs cfg opt st, b.stops = none) ∧ ∀ c, opt.Drops c (st.view c) →
        ∀ b ∈ listActiveIndexBlobs st, b ∉ inputBlobs cfg opt st →
          ∀ i ∈ b.entries, i.contentID ≠ c := by
  rw [and_comm]
  exact and_congr_right fun hread => forall_congr' fun c => hw.view_compact hf h hread c

lemma getBlobsToCompact_all (hall : opt.allIndexes = true) (hmax : opt.maxSmallBlobs ≤ 1) (n : ℕ)
    (l : List IndexBlob) : getBlobsToCompact n opt l = l := by
  have hfilter : (l.filter fun b => !(n < b.length && !opt.allIndexes)) = l :=
    filter_eq_self.2 fun b _ => by simp [hall]
  unfold getBlobsToCompact
  rw [hfilter]
  dsimp only
  split_ifs with hfew hsmall
  · exact (length_eq_zero_iff.1 (by omega)).symm
  · omega
  · rfl

theorem compact_all_view (hw : WellFormed cfg st) (hf : env.fresh cfg opt st)
    (h : compact env cfg opt st = (st', true)) (hall : opt.allIndexes = true)
    (hmax : opt.maxSmallBlobs ≤ 1) {cutoff : ℤ} (hdrop : opt.dropDeletedBefore = some cutoff)
    (hread : ∀ b ∈ listActiveIndexBlobs st, b.stops = none) (c : ID) :
    st'.view c = askedView opt st c := by
  have hinputs : inputBlobs cfg opt st = listActiveIndexBlobs st := by
    rw [inputBlobs, getBlobsToCompact_all hall hmax]
    exact if_neg (by simp [idle, hdrop])
  refine (hw.view_compact hf h (hinputs ▸ hread) c).2 fun _ b hb hnot => ?_
  rw [hinputs] at hnot
  exact absurd hb hnot

end Compact

section Sample

def sampleStore (length : ℕ) (stops : Option ℕ) : Store :=
  ⟨[⟨[1], length, [sampleInfo 7 1 false, sampleInfo 8 1 false], stops⟩,
    ⟨[2], 1, [sampleInfo 7 2 true], none⟩], [], []⟩

def dropOptions : CompactOptions := ⟨1, false, some (10 ^ 10), [], false⟩

lemma sampleStore_wellFormed : WellFormed .plain (sampleStore 1 none) where
  chained := ⟨nofun, nofun, nofun, nodup_nil, by decide⟩
  distinct := by decide
  stable := by decide
  untied := by unfold Untied; decide

theorem compact_view_iff_sample : ∃ st', compact (.sample 1 0 none) .plain dropOptions
    (sampleStore 1 none) = (st', true) ∧ st'.view ⟨0, [7]⟩ = none ∧
      st'.view ⟨0, [8]⟩ = some (sampleInfo 8 1 false) := by
  obtain ⟨st', h⟩ : ∃ st', compact (.sample 1 0 none) .plain dropOptions (sampleStore 1 none)
      = (st', true) := ⟨_, Prod.ext rfl (by decide)⟩
  have hinputs : inputBlobs .plain dropOptions (sampleStore 1 none)
      = listActiveIndexBlobs (sampleStore 1 none) := by decide
  have hview := ((compact_view_iff sampleStore_wellFormed (by decide) h).2
    ⟨by decide, fun c _ b hb hnot => absurd (hinputs ▸ hb) hnot⟩).1
  exact ⟨st', h, (hview _).trans (by decide), (hview _).trans (by decide +kernel)⟩

theorem compact_all_view_sample : ∃ st', compact (.sample 1 0 none) .plain
    { dropOptions with allIndexes := true } (sampleStore 1 none) = (st', true)
      ∧ st'.view ⟨0, [7]⟩ = none := by
  obtain ⟨st', h⟩ : ∃ st', compact (.sample 1 0 none) .plain
      { dropOptions with allIndexes := true } (sampleStore 1 none) = (st', true) :=
    ⟨_, Prod.ext rfl (by decide)⟩
  exact ⟨st', h, (compact_all_view sampleStore_wellFormed (by decide) h rfl le_rfl rfl
    (by decide) _).trans (by decide)⟩

/-- Only the small blob is compacted and its deletion dropped: the content is there again. And a blob
whose reading breaks off loses a content without an error. -/
theorem subset_compaction_resurrects :
    (compact (.sample 1 0 none) .plain dropOptions (sampleStore 9 none)).2 = true ∧
      (sampleStore 9 none).view ⟨0, [7]⟩ = some (sampleInfo 7 2 true) ∧
      (compact (.sample 1 0 none) .plain dropOptions (sampleStore 9 none)).1.view ⟨0, [7]⟩
        = some (sampleInfo 7 1 false) ∧
      (compact (.sample 1 0 none) .plain dropOptions (sampleStore 1 (some 1))).2 = true ∧
      (sampleStore 1 (some 1)).view ⟨0, [8]⟩ = some (sampleInfo 8 1 false) ∧
      (compact (.sample 1 0 none) .plain dropOptions (sampleStore 1 (some 1))).1.view ⟨0, [8]⟩
        = none := by
  decide

end Sample

end ManagerV0

end Warphold.Content
