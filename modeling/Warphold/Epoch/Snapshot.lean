import Warphold.Lib.Strings

/-!
# Epoch snapshots

Index blobs are grouped into epochs. The uncompacted blobs `xn` of an epoch are superseded by its
single-epoch compaction `xs`, and those of a range of epochs by a range checkpoint `xr`; markers `xe`
tell the write epoch. A refresh lists the blobs and condenses them into a `CurrentSnapshot`, from
which every operation of the manager starts.

A blob's id stands for its parsed name: the prefix, the epoch numbers and the rest. Times are in
nanoseconds.
-/

namespace Warphold.Epoch

/-- The rest of a blob's name; `set` is the set id and the count of `<any>-s<set>-c<count>`. -/
structure Suffix where
  any : Str
  set : Option (Str × ℤ)
  deriving DecidableEq

inductive BlobID where
  | epochMarker (epoch : ℤ)
  | uncompacted (epoch : ℤ) (name : Suffix)
  | singleEpochCompaction (epoch : ℤ) (name : Suffix)
  | rangeCheckpoint (min max : ℤ) (name : Suffix)
  | deletionWatermark (unixSeconds : ℤ)
  deriving DecidableEq

namespace BlobID

def epochNumber : BlobID → Option ℤ
  | .epochMarker e | .uncompacted e _ | .singleEpochCompaction e _ => some e
  | _ => none

def epochRange : BlobID → Option (ℤ × ℤ)
  | .rangeCheckpoint lo hi _ => some (lo, hi)
  | _ => none

def setName : BlobID → Option (Str × ℤ)
  | .uncompacted _ n | .singleEpochCompaction _ n | .rangeCheckpoint _ _ n => n.set
  | _ => none

end BlobID

structure Metadata where
  blobID : BlobID
  length : ℤ
  timestamp : ℤ
  deriving DecidableEq

def zeroTime : ℤ := -62135596800 * 10 ^ 9

def maxTimestamp (bms : List Metadata) : ℤ := bms.foldl (fun t bm => max t bm.timestamp) zeroTime

namespace CompleteSet

structure Sets where
  begun : Str → List Metadata
  complete : List (List Metadata)

def add (s : Sets) (bm : Metadata) : Sets :=
  match bm.blobID.setName with
  | none => { s with complete := s.complete ++ [[bm]] }
  | some (id, count) =>
    let set := s.begun id ++ [bm]
    { begun := Function.update s.begun id set
      complete := if set.length = count then s.complete ++ [set] else s.complete }

def findAll (bms : List Metadata) : List (List Metadata) :=
  (bms.foldl add ⟨fun _ => [], []⟩).complete

def findFirst (bms : List Metadata) : Option (List Metadata) := (findAll bms).head?

end CompleteSet

structure RangeMetadata where
  minEpoch : ℤ
  maxEpoch : ℤ
  blobs : List Metadata
  deriving DecidableEq

/-- The chain a candidate starts, if it reaches further, or as far with fewer ranges. -/
def longer (best : ℤ × List RangeMetadata) (combined : List RangeMetadata) :
    ℤ × List RangeMetadata :=
  let m := (combined.getLast?.map (·.maxEpoch)).getD 0
  if m > best.1 ∨ (m = best.1 ∧ combined.length < best.2.length) then (m, combined) else best

/-- `findLongestRangeCheckpointStartingAt`; every range of the recursion starts at another epoch. -/
def findLongestRangeCheckpointStartingAt (ranges : List RangeMetadata) :
    ℕ → ℤ → List RangeMetadata
  | 0, _ => []
  | fuel + 1, startEpoch =>
    ((ranges.filter fun r => r.minEpoch = startEpoch).foldl (fun best cp =>
      longer best (cp :: findLongestRangeCheckpointStartingAt ranges fuel (cp.maxEpoch + 1)))
      (0, [])).2

def findLongestRangeCheckpoint (ranges : List RangeMetadata) : List RangeMetadata :=
  findLongestRangeCheckpointStartingAt ranges (ranges.length + 1) 0

structure Parameters where
  enabled : Bool
  epochRefreshFrequency : ℤ
  fullCheckpointFrequency : ℤ
  cleanupSafetyMargin : ℤ
  minEpochDuration : ℤ
  epochAdvanceOnCountThreshold : ℤ
  epochAdvanceOnTotalSizeBytesThreshold : ℤ
  deriving DecidableEq

inductive ParametersErr where
  | minEpochDuration
  | epochRefreshFrequency
  | fullCheckpointFrequency
  | cleanupSafetyMargin
  | epochAdvanceOnCount
  | epochAdvanceOnSize
  deriving DecidableEq, Repr

def Parameters.validate (p : Parameters) : Option ParametersErr :=
  if !p.enabled then none
  else if p.minEpochDuration < 10 * 60 * 10 ^ 9 then some .minEpochDuration
  else if p.epochRefreshFrequency * 3 > p.minEpochDuration then some .epochRefreshFrequency
  else if p.fullCheckpointFrequency ≤ 0 then some .fullCheckpointFrequency
  else if p.cleanupSafetyMargin < p.epochRefreshFrequency * 3 then some .cleanupSafetyMargin
  else if p.epochAdvanceOnCountThreshold < 10 then some .epochAdvanceOnCount
  else if p.epochAdvanceOnTotalSizeBytesThreshold < 2 ^ 20 then some .epochAdvanceOnSize
  else none

structure CurrentSnapshot where
  writeEpoch : ℤ
  uncompactedEpochSets : List (ℤ × List Metadata)
  longestRangeCheckpointSets : List RangeMetadata
  singleEpochCompactionSets : List (ℤ × List Metadata)
  deletionWatermark : ℤ
  validUntil : ℤ
  epochMarkerBlobs : List Metadata
  deletionWatermarkBlobs : List Metadata

def numUnsettledEpochs : ℤ := 2

structure Listing where
  epochMarkers : List Metadata
  deletionWatermarks : List Metadata
  singleEpochCompactions : List Metadata
  rangeCheckpoints : List Metadata
  uncompacted : ℤ → List Metadata

def groupByEpochNumber (bms : List Metadata) : List (ℤ × List Metadata) :=
  (bms.filterMap (·.blobID.epochNumber)).dedup.map fun e =>
    (e, bms.filter fun bm => bm.blobID.epochNumber = some e)

def groupByEpochRanges (bms : List Metadata) : List ((ℤ × ℤ) × List Metadata) :=
  (bms.filterMap (·.blobID.epochRange)).dedup.map fun r =>
    (r, bms.filter fun bm => bm.blobID.epochRange = some r)

def loadWriteEpoch (bms : List Metadata) : ℤ :=
  (groupByEpochNumber bms).foldl (fun w g => max w g.1) 0

def deletionWatermarkFromBlobID : BlobID → Option ℤ
  | .deletionWatermark unixSeconds => some (unixSeconds * 10 ^ 9)
  | _ => none

def loadDeletionWatermark (bms : List Metadata) : ℤ :=
  (bms.filterMap fun bm => deletionWatermarkFromBlobID bm.blobID).foldl max zeroTime

def loadSingleEpochCompactions (bms : List Metadata) : List (ℤ × List Metadata) :=
  (groupByEpochNumber bms).filterMap fun g => (CompleteSet.findFirst g.2).map (g.1, ·)

def loadRangeCheckpointSets (bms : List Metadata) : List RangeMetadata :=
  (groupByEpochRanges bms).filterMap fun g =>
    (CompleteSet.findFirst g.2).map (⟨g.1.1, g.1.2, ·⟩)

def loadRangeCheckpoints (bms : List Metadata) : List RangeMetadata :=
  findLongestRangeCheckpoint (loadRangeCheckpointSets bms)

def loadUncompactedEpochs (list : ℤ → List Metadata) (first : ℤ) (count : ℕ) :
    List (ℤ × List Metadata) :=
  (((List.range count).map fun i : ℕ => first + i).filter fun n => 0 ≤ n).map fun n => (n, list n)

def refreshAttempt (p : Parameters) (now : ℤ) (l : Listing) : CurrentSnapshot where
  writeEpoch := loadWriteEpoch l.epochMarkers
  uncompactedEpochSets :=
    loadUncompactedEpochs l.uncompacted (loadWriteEpoch l.epochMarkers - 1) 3
  longestRangeCheckpointSets := loadRangeCheckpoints l.rangeCheckpoints
  singleEpochCompactionSets := loadSingleEpochCompactions l.singleEpochCompactions
  deletionWatermark := loadDeletionWatermark l.deletionWatermarks
  validUntil := now + p.epochRefreshFrequency
  epochMarkerBlobs := l.epochMarkers
  deletionWatermarkBlobs := l.deletionWatermarks

namespace CurrentSnapshot

variable (cs : CurrentSnapshot)

def lastSettledEpochNumber : ℤ := cs.writeEpoch - numUnsettledEpochs

def isSettledEpochNumber (epoch : ℤ) : Bool := epoch ≤ cs.lastSettledEpochNumber

/-- The lower and the upper end of what range checkpoints cover; empty as `(0, -1)`. -/
def getRangeCompactedRange : ℤ × ℤ :=
  match cs.longestRangeCheckpointSets.head?, cs.longestRangeCheckpointSets.getLast? with
  | some first, some last => (first.minEpoch, last.maxEpoch)
  | _, _ => (0, -1)

def skipConsecutive (prev : ℤ) : List ℤ → ℤ
  | [] => prev + 1
  | v :: vs => if v = prev + 1 then skipConsecutive v vs else prev + 1

def getOldestUncompactedAfterEpoch (compactedEpochs : List ℤ) (candidate : ℤ) : ℤ :=
  match (compactedEpochs.filter fun v => candidate ≤ v).insertionSort (· ≤ ·) with
  | [] => candidate
  | s₀ :: s => if candidate < s₀ then candidate else skipConsecutive s₀ s

def oldestUncompactedEpoch : Option ℤ :=
  let r := cs.getRangeCompactedRange
  let keys := cs.singleEpochCompactionSets.map (·.1)
  if r.1 ≤ r.2 then
    if r.1 ≠ 0 then none else some (getOldestUncompactedAfterEpoch keys (r.2 + 1))
  else some (getOldestUncompactedAfterEpoch keys 0)

def getRangeToCompact (p : Parameters) : Option (ℤ × ℤ) :=
  let latestSettled := cs.lastSettledEpochNumber
  let firstNonRangeCompacted :=
    (cs.longestRangeCheckpointSets.getLast?.map (·.maxEpoch + 1)).getD 0
  if latestSettled < 0 then none
  else if latestSettled - firstNonRangeCompacted < p.fullCheckpointFrequency then none
  else some (firstNonRangeCompacted, latestSettled)

def maxCleanupTime : ℤ := maxTimestamp (cs.uncompactedEpochSets.flatMap (·.2))

end CurrentSnapshot

def blobSetWrittenEarlyEnough (set : List Metadata) (maxReplacementTime : ℤ) : Bool :=
  maxTimestamp set ≠ zeroTime && maxTimestamp set < maxReplacementTime

def shouldAdvance (bms : List Metadata) (p : Parameters) : Bool :=
  match bms with
  | [] => false
  | b :: _ =>
    let minTime := bms.foldl (fun t bm => min t bm.timestamp) b.timestamp
    let maxTime := bms.foldl (fun t bm => max t bm.timestamp) b.timestamp
    let totalSize := (bms.map (·.length)).sum
    if maxTime - minTime < p.minEpochDuration then false
    else p.epochAdvanceOnCountThreshold ≤ bms.length
      || p.epochAdvanceOnTotalSizeBytesThreshold ≤ totalSize

inductive IndexSet where
  | panicked
  | failed
  | ok (blobs : List Metadata)
  deriving DecidableEq

section Complete

variable (cs : CurrentSnapshot) (list : ℤ → Option (List Metadata))

/-- `getIndexesFromEpochInternal`; `list` is what listing the uncompacted blobs of an epoch returns,
`none` for an error. -/
def getIndexesFromEpochInternal (epoch : ℤ) : Option (List Metadata) :=
  match if cs.isSettledEpochNumber epoch then cs.singleEpochCompactionSets.lookup epoch
    else none with
  | some set => some set
  | none =>
    match cs.uncompactedEpochSets.lookup epoch with
    | some bms => some bms
    | none => list epoch

def takeRanges (startEpoch : ℤ) : List RangeMetadata → List Metadata × ℤ
  | [] => ([], startEpoch)
  | c :: rest =>
    if c.maxEpoch > startEpoch then
      let r := takeRanges (c.maxEpoch + 1) rest
      (c.blobs ++ r.1, r.2)
    else takeRanges startEpoch rest

/-- `getCompleteIndexSetForCommittedState`; a slice of negative length panics. -/
def getCompleteIndexSetForCommittedState (minEpoch maxEpoch : ℤ) : IndexSet :=
  let r := takeRanges minEpoch cs.longestRangeCheckpointSets
  let cnt := maxEpoch - r.2 + 1
  if cnt < 0 then .panicked
  else match (List.range cnt.toNat).mapM fun i : ℕ =>
      getIndexesFromEpochInternal cs list (r.2 + i) with
    | none => .failed
    | some tmp => .ok (r.1 ++ tmp.flatten)

end Complete

/-- One turn of the loop of `GetCompleteIndexSet`: the snapshot it gets, the uncompacted blobs there
are meanwhile and the epochs whose listing fails, and whether it took longer than the snapshot is
valid. -/
structure Attempt where
  snapshot : CurrentSnapshot
  uncompacted : ℤ → List Metadata
  fails : ℤ → Bool
  slow : Bool

def Attempt.list (a : Attempt) (epoch : ℤ) : Option (List Metadata) :=
  if a.fails epoch then none else some (a.uncompacted epoch)

/-- `GetCompleteIndexSet`; `maxEpoch` is `none` for `LatestEpoch`. `none` is that it is still
trying. -/
def getCompleteIndexSet (maxEpoch : Option ℤ) : List Attempt → Option (IndexSet × ℤ)
  | [] => none
  | a :: rest =>
    let bound := maxEpoch.getD (a.snapshot.writeEpoch + 1)
    match getCompleteIndexSetForCommittedState a.snapshot a.list 0 bound with
    | .panicked => some (.panicked, zeroTime)
    | res =>
      if a.slow then getCompleteIndexSet (some bound) rest
      else some (res, a.snapshot.deletionWatermark)

end Warphold.Epoch
