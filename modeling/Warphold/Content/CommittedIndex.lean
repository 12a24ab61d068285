import Warphold.Proofs.ShardedIndex

/-!
# The committed content index

`committedContentIndex` has the opened indexes of a set of blobs. When the set changes, the small ones
among them are merged into one that is built in memory in the version of the repository and opened
again.
-/

namespace Warphold.Content

structure OpenIndex extends Shard where
  ids : ∀ i ∈ entries, IndexV2.PrefixOk i.contentID

structure CommittedIndex where
  rev : ℕ
  inUse : List (Str × OpenIndex)
  merged : List OpenIndex
  deletionWatermark : ℤ

namespace CommittedIndex

section Combine

def toMerge (m : List OpenIndex) : List OpenIndex :=
  m.filter fun ndx => ndx.entries.length < smallIndexEntryCountThreshold

def toKeep (m : List OpenIndex) : List OpenIndex :=
  m.filter fun ndx => ¬ ndx.entries.length < smallIndexEntryCountThreshold

def combined (m : List OpenIndex) : Builder :=
  Builder.addAll ∅ ((toMerge m).flatMap (·.entries))

lemma lookup_combined (m : List OpenIndex) (c : ID) :
    (combined m).lookup c = resolve ((toMerge m).flatMap (·.entries)) c := lookup_addAll_empty _ c

lemma mem_of_combined {m : List OpenIndex} {c : ID} {i : Info}
    (h : (combined m).lookup c = some i) :
    (∃ ndx ∈ toMerge m, i ∈ ndx.entries) ∧ i.contentID = c := by
  rw [lookup_combined] at h
  obtain ⟨hmem, hid⟩ := List.mem_filter.1 (resolve_stands h).1
  exact ⟨List.mem_flatMap.1 hmem, of_decide_eq_true hid⟩

lemma keyed_combined (m : List OpenIndex) : (combined m).Keyed := fun _ _ h =>
  (mem_of_combined h).2

lemma combined_ids (m : List OpenIndex) :
    ∀ i ∈ (combined m).infos, IndexV2.PrefixOk i.contentID := by
  intro i hi
  obtain ⟨c, hc⟩ := Builder.mem_infos.1 hi
  obtain ⟨⟨ndx, -, hmem⟩, -⟩ := mem_of_combined hc
  exact ndx.ids i hmem

variable (v : IndexVersion) (overhead : ℕ)

def keyLengthsOk (is : List Info) : Bool :=
  is.all fun i => i.contentID.hash ≠ [] &&
    is.all fun j => j.contentID.hash.length = i.contentID.hash.length

def openCombined (m : List OpenIndex) : OpenIndex where
  entries := (combined m).sortedContents.map (v.stored overhead)
  sorted := by
    refine List.pairwise_map.2 (((keyed_combined m).ascending (combined_ids m)).imp fun h => ?_)
    rwa [v.contentID_stored, v.contentID_stored]
  ids := by
    intro i hi
    obtain ⟨j, hj, rfl⟩ := List.mem_map.1 hi
    rw [v.contentID_stored]
    exact combined_ids m j ((IndexV2.mem_sortedContents (combined_ids m) j).1 hj)

def combineSmallIndexes (m : List OpenIndex) : Option (List OpenIndex) :=
  if (toMerge m).length ≤ 1 then some m
  else if v.buildable (combined m).sortedContents && keyLengthsOk (combined m).sortedContents then
    some (toKeep m ++ [openCombined v overhead m])
  else none

end Combine

section Use

def indexFilesChanged (s : CommittedIndex) (indexFiles : List Str) : Bool :=
  indexFiles.length ≠ s.inUse.length || indexFiles.any fun e => (s.inUse.lookup e).isNone

variable (openIndex : Str → Option OpenIndex) (permissiveCacheLoading : Bool)

/-- The indexes of a set of blobs, those in use and the ones `merge` opens. -/
def openAll (s : CommittedIndex) : List Str → Option (List (Str × OpenIndex))
  | [] => some []
  | e :: rest =>
    match (s.inUse.lookup e).or (openIndex e) with
    | some ndx => (openAll s rest).map ((e, ndx) :: ·)
    | none => if permissiveCacheLoading then openAll s rest else none

def use (v : IndexVersion) (overhead : ℕ) (s : CommittedIndex) (indexFiles : List Str)
    (ignoreDeletedBefore : ℤ) : CommittedIndex × Bool :=
  let s := { s with deletionWatermark := ignoreDeletedBefore }
  if !s.indexFilesChanged indexFiles then (s, true)
  else match openAll openIndex permissiveCacheLoading s indexFiles with
    | none => (s, false)
    | some opened =>
      match combineSmallIndexes v overhead (opened.map (·.2)) with
      | none => (s, false)
      | some m => ({ s with rev := s.rev + 1, merged := m, inUse := opened }, true)

end Use

end CommittedIndex

end Warphold.Content
