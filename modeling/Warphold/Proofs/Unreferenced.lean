import Warphold.Content.Iterate
import Warphold.Proofs.Resolution

/-!
# No pack in use is reported

A pack is in use if an entry the listing gives is in it, and a count once made stays
(`counted_foldlM`).
-/

namespace Warphold.Content

open List Option Builder

lemma Stands.same_pack {is js : List Info} {v w : Info} (hv : Stands is v) (hw : Stands js w)
    (hvw : v ∈ js) (hwv : w ∈ is) (watermark : ℤ) :
    v.packBlobID = w.packBlobID ∧ shouldIgnore v watermark = shouldIgnore w watermark := by
  obtain ⟨hts, hdel, hpack⟩ := tie_of_not_greater (hw.2 v hvw) (hv.2 w hwv)
  exact ⟨hpack, by rw [shouldIgnore, shouldIgnore, hts, hdel]⟩

lemma Merged.getInfo_stands {m : List Shard} {c : ID} {i : Info}
    (h : Merged.getInfo (m.map Shard.entries) c = some i) {is : List Info}
    (his : ∀ i, i ∈ is ↔ ∃ ndx ∈ m, i ∈ ndx.entries) :
    Stands (is.filter (·.contentID = c)) i := by
  have hmem := fun j => mem_filterMap_getInfo his c j
  unfold Merged.getInfo at h
  cases hl : (m.map Shard.entries).filterMap (fun ndx => ndx.getInfo c) with
  | nil => simp [hl] at h
  | cons j js =>
    rw [hl, foldl_cons, newer] at h
    obtain ⟨w, hw, hs⟩ := foldl_newer_some js j
    obtain rfl : w = i := some.inj (hw.symm.trans h)
    exact ⟨(hmem w).1 (hl ▸ hs.1), fun k hk => hs.2 k (hl ▸ (hmem k).2 hk)⟩

namespace Manager

section Count

variable (o : IteratePackOptions)

def Counted (usage : PackUsage) (p : Str) : Prop :=
  ∃ pi, usage.lookup p = some pi ∧ 0 < pi.contentCount

lemma countPack_ok (usage : PackUsage) (ci : Info) :
    ∃ usage', countPack o usage ci = .ok usage' ∧
      (∀ p, Counted usage p → Counted usage' p) ∧
      (o.matchesBlob ci.packBlobID = true → Counted usage' ci.packBlobID) := by
  unfold countPack
  by_cases hm : o.matchesBlob ci.packBlobID = true
  · simp only [hm, Bool.not_true, Bool.false_eq_true, if_false]
    refine ⟨_, rfl, fun p hp => ?_, fun _ => ⟨_, AList.lookup_insert _, Nat.succ_pos _⟩⟩
    by_cases heq : p = ci.packBlobID
    · subst heq
      exact ⟨_, AList.lookup_insert _, Nat.succ_pos _⟩
    · obtain ⟨pi, hpi, hpos⟩ := hp
      exact ⟨pi, (AList.lookup_insert_ne heq).trans hpi, hpos⟩
  · exact ⟨usage, by simp [hm], fun p hp => hp, fun h => absurd h hm⟩

def Counts (cb : PackUsage → Info → Except Empty PackUsage) (given : Info → Prop) : Prop :=
  ∀ usage ci, ∃ usage', cb usage ci = .ok usage' ∧
    (∀ p, Counted usage p → Counted usage' p) ∧
    (given ci → o.matchesBlob ci.packBlobID = true → Counted usage' ci.packBlobID)

lemma counts_countPack : Counts o (countPack o) fun _ => True := by
  intro usage ci
  obtain ⟨usage', heq, hkeep, hnew⟩ := countPack_ok o usage ci
  exact ⟨usage', heq, hkeep, fun _ => hnew⟩

variable {o}

variable {cb : PackUsage → Info → Except Empty PackUsage}

lemma Counts.invokeCallback (h : Counts o cb fun _ => True) (uncommitted : Builder) :
    Counts o (invokeCallback cb ⟨.allIDs, true⟩ uncommitted) fun _ => True := by
  intro usage ci
  have heq : Manager.invokeCallback cb ⟨.allIDs, true⟩ uncommitted usage ci = cb usage ci := by
    simp [Manager.invokeCallback, Merged.contains_allIDs]
  rw [heq]
  exact h usage ci

lemma Counts.ignoring (h : Counts o cb fun _ => True) (watermark : ℤ) :
    Counts o (fun a i => if shouldIgnore i watermark then .ok a else cb a i)
      fun i => shouldIgnore i watermark = false := by
  intro usage ci
  by_cases hi : shouldIgnore ci watermark = true
  · exact ⟨usage, if_pos hi, fun p hp => hp, fun hf => absurd (hf.symm.trans hi) nofun⟩
  · obtain ⟨usage', heq, hkeep, hnew⟩ := h usage ci
    exact ⟨usage', (if_neg hi).trans heq, hkeep, fun _ => hnew trivial⟩

lemma Counts.foldlM {given : Info → Prop}
    (h : Counts o cb given) : ∀ (is : List Info) (usage : PackUsage), ∃ usage',
      is.foldlM cb usage = .ok usage' ∧ (∀ p, Counted usage p → Counted usage' p) ∧
      ∀ i ∈ is, given i → o.matchesBlob i.packBlobID = true → Counted usage' i.packBlobID
  | [], usage => ⟨usage, rfl, fun p hp => hp, nofun⟩
  | i :: is, usage => by
    obtain ⟨u, hu, hkeep, hnew⟩ := h usage i
    obtain ⟨u', hu', hkeep', hnew'⟩ := h.foldlM is u
    refine ⟨u', ?_, fun p hp => hkeep' p (hkeep p hp), fun j hj hg hm => ?_⟩
    · rw [foldlM_cons, hu]
      exact hu'
    · rcases mem_cons.1 hj with rfl | hj
      · exact hkeep' _ (hnew hg hm)
      · exact hnew' j hj hg hm

lemma Counts.overUncommitted (h : Counts o cb fun _ => True) (b : Builder) (usage : PackUsage) :
    (∀ p, Counted usage p → Counted (overUncommitted cb b usage) p) ∧
      ∀ i ∈ b.infos, o.matchesBlob i.packBlobID = true →
        Counted (overUncommitted cb b usage) i.packBlobID := by
  -- the callback never fails, so the fold that ignores errors is the one that stops at them
  have hfold : ∀ (is : List Info) (usage u : PackUsage), is.foldlM cb usage = .ok u →
      is.foldl (fun a i => (cb a i).toOption.getD a) usage = u := by
    intro is
    induction is with
    | nil => exact fun usage u hu => Except.ok.inj hu
    | cons i is ih =>
      intro usage u hu
      obtain ⟨v, hv, -⟩ := h usage i
      rw [foldlM_cons, hv] at hu
      rw [foldl_cons, hv]
      exact ih v u hu
  obtain ⟨u, hu, hkeep, hnew⟩ := h.foldlM b.infos usage
  rw [Manager.overUncommitted, hfold _ _ _ hu]
  exact ⟨hkeep, fun i hi hm => hnew i hi trivial hm⟩

end Count

section Listing

variable {cfg : Config} {t : RefreshClock} {s : Manager} {sources : List Source}
  {o : IteratePackOptions}

def uncommitted (s : Manager) : List Info :=
  s.packIndexBuilder.infos ++ (s.pendingList ++ s.writingPacks).flatMap
    fun pp => pp.currentPackItems.infos

/-- Every entry stands under the ID of its content. -/
structure Keyed (s : Manager) : Prop where
  packs : ∀ pp ∈ s.pendingList ++ s.writingPacks, pp.currentPackItems.Keyed
  builder : s.packIndexBuilder.Keyed

/-- A lookup of a content that is not committed shows a greatest one of its entries. -/
def ShowsGreatest (s : Manager) : Prop :=
  ∀ id pp i, s.getOverlayContentInfo id = some (pp, i) →
    ∀ j ∈ s.uncommitted, j.contentID = id → contentInfoGreaterThan j i = false

/-- Every index in use can be read to its end. -/
def Readable (sources : List Source) : Prop := ∀ x ∈ sources, x.stops = none

lemma Readable.delivered (h : Readable sources) :
    sources.map Source.delivered = sources.map Source.shard :=
  map_congr_left fun x hx => by rw [Source.delivered, h x hx]

variable {id : ID} {pp : Option Pack} {i : Info}

lemma findItem_mem {packs : List Pack} (h : findItem packs id = some (pp, i)) :
    ∃ q ∈ packs, q.currentPackItems.lookup id = some i := by
  obtain ⟨q, hq, heq⟩ := exists_of_findSome?_eq_some h
  obtain ⟨j, hj, heq⟩ := map_eq_some_iff.1 heq
  obtain rfl : j = i := congrArg Prod.snd heq
  exact ⟨q, hq, hj⟩

lemma Keyed.mem_uncommitted (h : s.Keyed)
    (hi : s.getOverlayContentInfo id = some (pp, i)) : i ∈ s.uncommitted ∧ i.contentID = id := by
  have hpack : ∀ q ∈ s.pendingList ++ s.writingPacks, q.currentPackItems.lookup id = some i →
      i ∈ s.uncommitted ∧ i.contentID = id := fun q hq hl =>
    ⟨mem_append_right _ (mem_flatMap.2 ⟨q, hq, mem_infos.2 ⟨id, hl⟩⟩),
      h.packs q hq id i hl⟩
  unfold getOverlayContentInfo at hi
  split at hi
  · next r hr =>
    cases hi
    obtain ⟨q, hq, hl⟩ := findItem_mem hr
    exact hpack q (mem_append_left _ hq) hl
  split at hi
  · next r hr =>
    cases hi
    obtain ⟨q, hq, hl⟩ := findItem_mem hr
    exact hpack q (mem_append_right _ hq) hl
  · obtain ⟨j, hj, heq⟩ := map_eq_some_iff.1 hi
    obtain rfl : j = i := congrArg Prod.snd heq
    exact ⟨mem_append_left _ (mem_infos.2 ⟨id, hj⟩), h.builder id j hj⟩

lemma Keyed.snapshot_eq (h : s.Keyed) (id : ID) :
    s.snapshotUncommittedItems.lookup id = resolve s.uncommitted id := by
  unfold snapshotUncommittedItems resolve uncommitted
  rw [lookup_addAll, lookup_addAll, filter_append, h.builder.filter_infos,
    foldl_append, flatMap_append, filter_append, foldl_append]
  cases s.packIndexBuilder.lookup id <;> rfl

lemma Keyed.snapshot_shows (h : s.Keyed) (hg : s.ShowsGreatest)
    (hi : s.getOverlayContentInfo id = some (pp, i)) :
    ∃ j ∈ s.snapshotUncommittedItems.infos, j.packBlobID = i.packBlobID := by
  obtain ⟨hmem, hid⟩ := h.mem_uncommitted hi
  have hfilter : i ∈ s.uncommitted.filter (·.contentID = id) := by simp [hmem, hid]
  have hi' : Stands (s.uncommitted.filter (·.contentID = id)) i := by
    refine ⟨hfilter, fun j hj => ?_⟩
    obtain ⟨hj, hjid⟩ := mem_filter.1 hj
    exact hg id pp i hi j hj (by simpa using hjid)
  obtain ⟨w, hw⟩ := isSome_iff_exists.1 ((resolve_isSome _ id).2 ⟨i, hmem, hid⟩)
  have hws := resolve_stands hw
  exact ⟨w, mem_infos.2 ⟨id, (h.snapshot_eq id).trans hw⟩,
    (hws.same_pack hi' hws.1 hfilter 0).1⟩

lemma iteratePacks_ok {prefixes : List Str} {usage : PackUsage}
    (h : s.iteratePacks cfg t sources ⟨true, prefixes⟩ = some usage) :
    ∃ s' cb, s.maybeRefreshIndexes cfg t = (s', true) ∧
      Counts ⟨true, prefixes⟩ cb (fun _ => True) ∧
      listContents cb sources s'.deletionWatermark .allIDs
        (overUncommitted cb s.snapshotUncommittedItems ∅) = .ok usage := by
  simp only [iteratePacks, iterateContents, IterateOptions.withDefaults, if_true] at h
  split at h <;> cases h
  next u hu =>
  split at hu
  · cases hu
  · next s' hs' =>
    refine ⟨s', _, hs', ?_, some.inj hu⟩
    split_ifs
    · exact counts_countPack _
    · exact (counts_countPack _).invokeCallback _

lemma counted_of_iteratePacks (hk : s.Keyed) (hg : s.ShowsGreatest) (hr : Readable sources)
    (hsrc : sources.map (fun x => x.shard.entries) = (s.maybeRefreshIndexes cfg t).1.merged)
    {prefixes : List Str} {usage : PackUsage}
    (h : s.iteratePacks cfg t sources ⟨true, prefixes⟩ = some usage)
    (hi : (s.getContentInfo cfg t id).2 = .ok (pp, i))
    (hm : IteratePackOptions.matchesBlob ⟨true, prefixes⟩ i.packBlobID = true) :
    Counted usage i.packBlobID := by
  obtain ⟨s', cb, hs', hcb, hlist⟩ := iteratePacks_ok h
  obtain ⟨is, hord, his, hrun⟩ := Merged.iterate_eq (sources.map Source.shard)
  rw [listContents, hr.delivered, hrun] at hlist
  obtain ⟨u, hu, hkeep, hnew⟩ := (hcb.ignoring s'.deletionWatermark).foldlM
    (collapse none is) (overUncommitted cb s.snapshotUncommittedItems ∅)
  obtain rfl : u = usage := Except.ok.inj (hu.symm.trans hlist)
  unfold getContentInfo at hi
  cases ho : s.getOverlayContentInfo id with
  | some r =>
    rw [ho] at hi
    obtain rfl : r = (pp, i) := Except.ok.inj hi
    obtain ⟨j, hj, hpack⟩ := hk.snapshot_shows hg ho
    rw [← hpack] at hm ⊢
    exact hkeep _ ((hcb.overUncommitted s.snapshotUncommittedItems ∅).2 j hj hm)
  | none =>
    rw [hs'] at hsrc
    simp only [ho, hs'] at hi
    cases hc : s'.committedContent id with
    | none => simp [hc] at hi
    | some k =>
      obtain ⟨-, rfl⟩ : none = pp ∧ k = i := by simpa [hc] using hi
      obtain ⟨hget, hign⟩ := filter_eq_some_iff.1 hc
      have hk' := Merged.getInfo_stands (m := sources.map Source.shard)
        (by rw [List.map_map]; exact hsrc ▸ hget) his
      obtain ⟨hmem, hid⟩ := List.mem_filter.1 hk'.1
      obtain ⟨w, hw⟩ := Option.isSome_iff_exists.1
        ((resolve_isSome is id).2 ⟨k, hmem, by simpa using hid⟩)
      have hws := resolve_stands hw
      obtain ⟨hpack, hsame⟩ := hws.same_pack hk' hws.1 hk'.1 s'.deletionWatermark
      rw [← hpack] at hm ⊢
      refine hnew w ?_ ?_ hm
      · rw [← find?_collapse_none id hord] at hw
        exact mem_of_find?_eq_some hw
      · rw [hsame]
        simpa using hign

lemma scanPrefixes_matches {blobPrefixes : List Str} {parallelism : ℕ} {p b : Str}
    (hp : p ∈ scanPrefixes blobPrefixes parallelism) (hb : Strings.hasPrefix b p = true) :
    IteratePackOptions.matchesBlob ⟨true, blobPrefixes⟩ b = true := by
  unfold IteratePackOptions.matchesBlob
  split_ifs with hnil
  · rfl
  replace hnil : blobPrefixes ≠ [] := hnil
  rw [scanPrefixes, if_neg hnil] at hp
  rw [List.any_eq_true]
  split_ifs at hp
  · exact ⟨p, hp, hb⟩
  · obtain ⟨q, hq, hp⟩ := mem_flatMap.1 hp
    obtain ⟨n, -, rfl⟩ := mem_map.1 hp
    rw [Strings.hasPrefix_iff] at hb
    exact ⟨q, hq, Strings.hasPrefix_iff.2 ((prefix_append q _).trans hb)⟩

lemma mem_of_mapM_listBlobs {fails : Str → Bool} {blobs : List Str} {b : Str} :
    ∀ {ps : List Str} {listed : List (List Str)}, ps.mapM (listBlobs fails blobs) = some listed →
      b ∈ listed.flatten → ∃ p ∈ ps, Strings.hasPrefix b p = true
  | [], listed, h, hb => by
    obtain rfl : [] = listed := some.inj h
    cases hb
  | p :: ps, listed, h, hb => by
    rw [mapM_cons] at h
    obtain ⟨l, hl, h⟩ := bind_eq_some_iff.1 h
    obtain ⟨ls, hls, h⟩ := bind_eq_some_iff.1 h
    obtain rfl : l :: ls = listed := some.inj h
    rw [flatten_cons, mem_append] at hb
    rcases hb with hb | hb
    · unfold listBlobs at hl
      split_ifs at hl
      cases hl
      exact ⟨p, by simp, (mem_filter.1 hb).2⟩
    · obtain ⟨q, hq, hb⟩ := mem_of_mapM_listBlobs hls hb
      exact ⟨q, by simp [hq], hb⟩

end Listing

section Sample

def packedEntry (n : UInt8) : Info := ⟨[112, 48 + n], 5, 2, 1, 0, 0, ⟨0, [n]⟩, false, 2, 0⟩

def twoEntries : Shard := ⟨[packedEntry 1, packedEntry 2], by decide⟩

def indexed : Manager :=
  ⟨fun _ => none, [], [], ∅, 0, false, 0, 0, [[110]], [twoEntries.entries], 0,
    ⟨[([112, 49], [0, 1]), ([112, 50], [0, 2])], [([110], twoEntries.entries)], 0⟩⟩

lemma indexed_keyed : indexed.Keyed := ⟨nofun, Keyed.empty⟩

lemma indexed_showsGreatest : indexed.ShowsGreatest := fun _ _ _ _ => nofun

end Sample

end Manager

end Warphold.Content
