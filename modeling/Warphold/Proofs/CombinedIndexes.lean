import Warphold.Content.CommittedIndex

/-!
# When combining small indexes is not seen

Switching to a set of blobs fails if the entries of the small indexes cannot be built in the version
of the repository, as there are none in the second version, or compressed ones in the first, or
their IDs are not of one length.
-/

namespace Warphold.Content

open List Merged Shard

section Winner

structure Winner (is : List Info) (c : ID) (p : Info) : Prop where
  mem : p ∈ is
  id : p.contentID = c
  beats : ∀ j ∈ is, j.contentID = c → j = p ∨ contentInfoGreaterThan p j = true

variable {p : Info} {is : List Info} {c : ID}

lemma foldl_newer_of_beats {l : List Info} (hp : p ∈ l)
    (h : ∀ j ∈ l, j = p ∨ contentInfoGreaterThan p j = true) : l.foldl newer none = some p := by
  cases l with
  | nil => cases hp
  | cons j js =>
    obtain ⟨w, hw, hmem, hall⟩ := foldl_newer_some js j
    rcases h w hmem with rfl | hg
    · exact hw
    · exact absurd ((hall p hp).symm.trans hg) Bool.false_ne_true

lemma Winner.resolve (h : Winner is c p) : resolve is c = some p := by
  refine foldl_newer_of_beats (mem_filter.2 ⟨h.mem, decide_eq_true h.id⟩) fun j hj => ?_
  obtain ⟨hmem, hid⟩ := mem_filter.1 hj
  exact h.beats j hmem (of_decide_eq_true hid)

lemma Winner.subset {js : List Info} (h : Winner is c p)
    (hs : ∀ j ∈ js, j ∈ is) (hp : p ∈ js) : Winner js c p :=
  ⟨hp, h.id, fun j hj hid => h.beats j (hs j hj) hid⟩

lemma Untied.winner (hu : Untied is) (h : resolve is c = some p) : Winner is c p := by
  obtain ⟨hmem, hall⟩ := resolve_stands h
  obtain ⟨hp, hid⟩ := mem_filter.1 hmem
  refine ⟨hp, of_decide_eq_true hid, fun j hj hjc => ?_⟩
  by_cases hg : contentInfoGreaterThan p j = true
  · exact .inr hg
  · refine .inl (hu.eq hj hp (hjc.trans (of_decide_eq_true hid).symm)
      (hall j (mem_filter.2 ⟨hj, decide_eq_true hjc⟩)) (Bool.eq_false_iff.2 hg))

def SameWinners (is js : List Info) : Prop :=
  ∀ c, (∃ p, Winner is c p ∧ Winner js c p) ∨
    (∀ i ∈ is, i.contentID ≠ c) ∧ ∀ i ∈ js, i.contentID ≠ c

variable {m m' : List Shard}

lemma Winner.getInfo (h : Winner (m.flatMap entries) c p) :
    getInfo (m.map entries) c = some p := by
  have hmem := mem_filterMap_getInfo (m := m) (fun i => mem_flatMap) c
  refine foldl_newer_of_beats ((hmem p).2 (mem_filter.2 ⟨h.mem, decide_eq_true h.id⟩))
    fun j hj => ?_
  obtain ⟨hj, hid⟩ := mem_filter.1 ((hmem j).1 hj)
  exact h.beats j hj (of_decide_eq_true hid)

lemma getInfo_eq_none (h : ∀ i ∈ m.flatMap entries, i.contentID ≠ c) :
    getInfo (m.map entries) c = none := by
  rcases hg : getInfo (m.map entries) c with _ | p
  · rfl
  · have hp := (mem_filterMap_getInfo (m := m) (fun i => mem_flatMap) c p).1
      (foldl_newer_stands hg).1
    obtain ⟨hp, hid⟩ := mem_filter.1 hp
    exact absurd (of_decide_eq_true hid) (h p hp)

lemma SameWinners.getInfo (h : SameWinners (m.flatMap entries) (m'.flatMap entries))
    (c : ID) :
    getInfo (m.map entries) c = getInfo (m'.map entries) c := by
  rcases h c with ⟨p, hp, hp'⟩ | ⟨hn, hn'⟩
  · rw [hp.getInfo, hp'.getInfo]
  · rw [getInfo_eq_none hn, getInfo_eq_none hn']

lemma resolve_eq_none (h : ∀ i ∈ is, i.contentID ≠ c) : resolve is c = none := by
  rcases hr : resolve is c with _ | p
  · rfl
  · obtain ⟨i, hi, hid⟩ := (resolve_isSome is c).1 (by rw [hr]; rfl)
    exact absurd hid (h i hi)

lemma Ascending.ext_find? {js : List Info} (hi : Ascending is) (hj : Ascending js)
    (h : ∀ c, is.find? (·.contentID = c) = js.find? (·.contentID = c)) : is = js := by
  refine hi.ext hj fun i => ?_
  have := hi.find?_eq_some_iff (c := i.contentID) (j := i)
  rw [h, hj.find?_eq_some_iff] at this
  simpa using this.symm

lemma SameWinners.iterate (h : SameWinners (m.flatMap entries) (m'.flatMap entries))
    (r : IDRange) {σ ε : Type} (cb : σ → Info → Except ε σ) (a : σ) :
    iterate cb m r a = iterate cb m' r a := by
  obtain ⟨is, hord, hmem, hrun⟩ := iterate_range m r
  obtain ⟨js, hord', hmem', hrun'⟩ := iterate_range m' r
  have hin : ∀ i, i ∈ is ↔ i ∈ m.flatMap entries ∧ r.contains i.contentID = true := fun i =>
    (hmem i).trans (and_congr_left' mem_flatMap.symm)
  have hin' : ∀ i, i ∈ js ↔ i ∈ m'.flatMap entries ∧ r.contains i.contentID = true := fun i =>
    (hmem' i).trans (and_congr_left' mem_flatMap.symm)
  have hlist : collapse none is = collapse none js := by
    refine Ascending.ext_find? (collapse_none_ascending hord)
      (collapse_none_ascending hord') fun c => ?_
    rw [find?_collapse_none c hord, find?_collapse_none c hord']
    rcases h c with ⟨p, hp, hp'⟩ | ⟨hn, hn'⟩
    · by_cases hr : r.contains c = true
      · rw [(hp.subset (fun j hj => ((hin j).1 hj).1) ((hin p).2 ⟨hp.mem, hp.id ▸ hr⟩)).resolve,
          (hp'.subset (fun j hj => ((hin' j).1 hj).1) ((hin' p).2 ⟨hp'.mem, hp'.id ▸ hr⟩)).resolve]
      · rw [resolve_eq_none (c := c) fun i hi hid => hr (hid ▸ ((hin i).1 hi).2),
          resolve_eq_none (c := c) fun i hi hid => hr (hid ▸ ((hin' i).1 hi).2)]
    · rw [resolve_eq_none fun i hi => hn i ((hin i).1 hi).1,
        resolve_eq_none fun i hi => hn' i ((hin' i).1 hi).1]
  rw [hrun, hrun', hlist]

end Winner

namespace CommittedIndex

variable {v : IndexVersion} {overhead : ℕ} {m m' : List OpenIndex}

def entries (m : List OpenIndex) : List Info := m.flatMap (·.entries)

/-- Lookups and listings over any range are the same. -/
structure Agree (m' m : List OpenIndex) : Prop where
  lookup : ∀ c, Merged.getInfo (m'.map (·.entries)) c = Merged.getInfo (m.map (·.entries)) c
  listing : ∀ {σ ε : Type} (cb : σ → Info → Except ε σ) (r : IDRange) (a : σ),
    Merged.iterate cb (m'.map (·.toShard)) r a = Merged.iterate cb (m.map (·.toShard)) r a

lemma flatMap_toShard (m : List OpenIndex) :
    (m.map (·.toShard)).flatMap Shard.entries = entries m := by
  rw [flatMap_map]
  rfl

lemma map_toShard (m : List OpenIndex) :
    (m.map (·.toShard)).map Shard.entries = m.map (·.entries) := by
  rw [map_map]
  rfl

lemma SameWinners.agree (h : SameWinners (entries m') (entries m)) : Agree m' m := by
  rw [← flatMap_toShard, ← flatMap_toShard] at h
  refine ⟨fun c => ?_, fun cb r a => h.iterate r cb a⟩
  rw [← map_toShard, ← map_toShard]
  exact h.getInfo c

lemma mem_entries_iff (m : List OpenIndex) (i : Info) :
    i ∈ entries m ↔ i ∈ entries (toMerge m) ∨ i ∈ entries (toKeep m) := by
  simp only [entries, toMerge, toKeep, mem_flatMap, mem_filter, decide_eq_true_eq]
  constructor
  · rintro ⟨ndx, hndx, hi⟩
    by_cases hs : ndx.entries.length < smallIndexEntryCountThreshold
    · exact .inl ⟨ndx, ⟨hndx, hs⟩, hi⟩
    · exact .inr ⟨ndx, ⟨hndx, hs⟩, hi⟩
  · rintro (⟨ndx, ⟨hndx, -⟩, hi⟩ | ⟨ndx, ⟨hndx, -⟩, hi⟩) <;> exact ⟨ndx, hndx, hi⟩

lemma entries_openCombined (v : IndexVersion) (overhead : ℕ) (m : List OpenIndex) :
    (openCombined v overhead m).entries = (combined m).sortedContents.map (v.stored overhead) := by
  rw [openCombined]

lemma mem_entries_combined (v : IndexVersion) (overhead : ℕ) (m : List OpenIndex) (j : Info) :
    j ∈ entries (toKeep m ++ [openCombined v overhead m]) ↔
      j ∈ entries (toKeep m) ∨ ∃ i, (combined m).lookup i.contentID = some i ∧
        v.stored overhead i = j := by
  rw [entries, flatMap_append, mem_append, flatMap_singleton]
  rw [entries_openCombined, mem_map]
  refine or_congr_right (exists_congr fun i => and_congr_left' ?_)
  rw [IndexV2.mem_sortedContents (combined_ids m)]
  exact (keyed_combined m).mem_infos_iff i

lemma winners_combined (hu : Untied (entries m))
    (h : ∀ i p, (combined m).lookup i.contentID = some i →
      getInfo (m.map (·.entries)) i.contentID = some p →
        v.stored overhead i = p ∨
          (p ∈ entries (toKeep m) ∧ contentInfoGreaterThan p (v.stored overhead i) = true)) :
    SameWinners (entries (toKeep m ++ [openCombined v overhead m])) (entries m) := by
  intro c
  rcases hr : resolve (entries m) c with _ | p
  · have hn : ∀ i ∈ entries m, i.contentID ≠ c := by
      intro i hi hid
      have := (resolve_isSome (entries m) c).2 ⟨i, hi, hid⟩
      rw [hr] at this
      cases this
    refine .inr ⟨fun j hj => ?_, hn⟩
    rcases (mem_entries_combined v overhead m j).1 hj with hj | ⟨i, hi, rfl⟩
    · exact hn j ((mem_entries_iff m j).2 (.inr hj))
    · rw [v.contentID_stored]
      exact hn i ((mem_entries_iff m i).2 (.inl (mem_flatMap.2 (mem_of_combined hi).1)))
  · have hw := hu.winner hr
    have hget : getInfo (m.map (·.entries)) c = some p := by
      rw [← map_toShard]
      refine Winner.getInfo ?_
      rwa [flatMap_toShard]
    refine .inl ⟨p, ⟨?_, hw.id, fun j hj hid => ?_⟩, hw⟩
    · rw [mem_entries_combined]
      rcases (mem_entries_iff m p).1 hw.mem with hp | hp
      · obtain ⟨i, hi⟩ := Option.isSome_iff_exists.1
          ((resolve_isSome (entries (toMerge m)) c).2 ⟨p, hp, hw.id⟩)
        rw [entries, ← lookup_combined] at hi
        have hid := (mem_of_combined hi).2
        rw [← hid] at hi hget
        rcases h i p hi hget with hst | ⟨hkept, -⟩
        · exact .inr ⟨i, hi, hst⟩
        · exact .inl hkept
      · exact .inl hp
    · rcases (mem_entries_combined v overhead m j).1 hj with hj | ⟨i, hi, rfl⟩
      · exact hw.beats j ((mem_entries_iff m j).2 (.inr hj)) hid
      · rw [v.contentID_stored] at hid
        rw [← hid] at hget
        exact (h i p hi hget).imp id And.right

lemma stored_of_agree (h : Agree (toKeep m ++ [openCombined v overhead m]) m) {i p : Info}
    (hi : (combined m).lookup i.contentID = some i)
    (hp : getInfo (m.map (·.entries)) i.contentID = some p) :
    v.stored overhead i = p ∨
      (p ∈ entries (toKeep m) ∧ contentInfoGreaterThan (v.stored overhead i) p = false) := by
  have hget := (h.lookup i.contentID).trans hp
  rw [← map_toShard] at hget
  have hmem := mem_filterMap_getInfo (fun j => mem_flatMap
    (l := (toKeep m ++ [openCombined v overhead m]).map (·.toShard)) (b := j)) i.contentID
  rw [flatMap_toShard] at hmem
  obtain ⟨hpmem, hall⟩ := foldl_newer_stands hget
  obtain ⟨hpmem, hid⟩ := mem_filter.1 ((hmem p).1 hpmem)
  rcases (mem_entries_combined v overhead m p).1 hpmem with hkept | ⟨j, hj, rfl⟩
  · refine .inr ⟨hkept, hall _ ((hmem _).2 (mem_filter.2 ⟨?_, ?_⟩))⟩
    · exact (mem_entries_combined v overhead m _).2 (.inr ⟨i, hi, rfl⟩)
    · exact decide_eq_true (v.contentID_stored overhead i)
  · have hji := of_decide_eq_true hid
    rw [v.contentID_stored] at hji
    rw [hji, hi] at hj
    exact .inl (congrArg _ (Option.some.inj hj))

section Use

variable {s : CommittedIndex} {cache : Str → OpenIndex} {permissive : Bool}

lemma openAll_eq (hs : ∀ e ndx, s.inUse.lookup e = some ndx → ndx = cache e) :
    ∀ files : List Str, openAll (fun e => some (cache e)) permissive s files
      = some (files.map fun e => (e, cache e))
  | [] => rfl
  | e :: rest => by
    have hopen : (s.inUse.lookup e).or (some (cache e)) = some (cache e) := by
      rcases hl : s.inUse.lookup e with _ | ndx
      · rfl
      · rw [hs e ndx hl]
        rfl
    rw [openAll, hopen, openAll_eq hs rest]
    rfl

/-- The entries of the small indexes can be built and each one is shown as it was. -/
structure Combines (v : IndexVersion) (overhead : ℕ) (m : List OpenIndex) : Prop where
  untied : Untied (entries m)
  shown : ∀ i p, (combined m).lookup i.contentID = some i →
    Merged.getInfo (m.map (·.entries)) i.contentID = some p → v.stored overhead i = p ∨
      (p ∈ entries (toKeep m) ∧ contentInfoGreaterThan p (v.stored overhead i) = true)

variable (hs : ∀ e ndx, s.inUse.lookup e = some ndx → ndx = cache e) {files : List Str}
  (hchanged : s.indexFilesChanged files = true) (watermark : ℤ)
include hs hchanged

lemma use_eq : s.use (fun e => some (cache e)) permissive v overhead files watermark =
    ((combineSmallIndexes v overhead (files.map cache)).elim
      ({ s with deletionWatermark := watermark }, false) fun m =>
        (⟨s.rev + 1, files.map fun e => (e, cache e), m, watermark⟩, true)) := by
  have hopen : openAll (fun e => some (cache e)) permissive
      { s with deletionWatermark := watermark } files = some (files.map fun e => (e, cache e)) :=
    openAll_eq (s := { s with deletionWatermark := watermark }) hs files
  have hmap : (files.map fun e => (e, cache e)).map (·.2) = files.map cache := by
    rw [map_map]
    rfl
  have hch : indexFilesChanged { s with deletionWatermark := watermark } files = true := hchanged
  simp only [use, hch, Bool.not_true, Bool.false_eq_true, if_false, hopen, hmap]
  cases combineSmallIndexes v overhead (files.map cache) <;> rfl

lemma use_ok_iff :
    (s.use (fun e => some (cache e)) permissive v overhead files watermark).2 = true ↔
      (toMerge (files.map cache)).length ≤ 1 ∨
        (v.buildable (combined (files.map cache)).sortedContents &&
          keyLengthsOk (combined (files.map cache)).sortedContents) = true := by
  rw [use_eq hs hchanged, combineSmallIndexes]
  split_ifs with hsmall hb
  · exact iff_of_true rfl (.inl hsmall)
  · exact iff_of_true rfl (.inr hb)
  · exact iff_of_false Bool.false_ne_true (by tauto)

omit hs hchanged

def sampleIndex (hash : Option UInt8) : OpenIndex where
  entries := (hash.map fun h => sampleEntry h 5 false).toList
  sorted := by cases hash <;> simp
  ids := by
    intro i hi
    obtain ⟨h, -, rfl⟩ := Option.map_eq_some_iff.1 (Option.mem_toList.1 hi)
    exact .inr (show (103 : UInt8) ≤ 107 ∧ (107 : UInt8) ≤ 122 by decide)

def sampleCache (e : Str) : OpenIndex := sampleIndex e.head?

end Use

end CommittedIndex

end Warphold.Content
