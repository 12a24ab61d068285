import Warphold.Epoch.Snapshot
import Warphold.Lib.Runs

/-!
# The epoch protocol

Any number of clients work on one blob store. Each client caches the snapshot of its last refresh and
takes its lock for a whole refresh, for reading the cached snapshot and for discarding it. Everything
else an operation does is a sequence of list, put and delete calls on the store, and between any two
of them the other clients go on and time passes.

An operation that fails, or is never heard of again, is abandoned; a call that had its effect and
reported an error is the call followed by that. Compaction writes what it was given as one complete
set, whose last blob is what makes it visible, so a set is one blob here.
-/

namespace Warphold.Epoch

/-- A snapshot and when it was made: the clock at the refresh's start and end, and the index blobs
whose writes had succeeded when it started. -/
structure Snap where
  cs : CurrentSnapshot
  begun : ℤ
  loaded : ℤ
  before : List BlobID

structure Refresh where
  begun : ℤ
  before : List BlobID
  markers : Option (List Metadata)
  watermarks : Option (List Metadata)
  singles : Option (List Metadata)
  ranges : Option (List Metadata)
  uncompacted : List (ℤ × List Metadata)

structure Client where
  known : Option Snap
  refresh : Option Refresh

/-- The shards of a `WriteIndex` call, those written so far, and the epoch they are written for. -/
structure Write where
  shards : List Suffix
  written : List Suffix
  epoch : ℤ

inductive Task where
  | writing (w : Write)
  | dropping (w : Write) (k : Snap)
  | putting (w : Write) (k : Snap)
  | checking (w : Write) (since : ℤ)
  | withdrawing (w : Write)
  | advancing (epoch : ℤ)
  | compacting (k : Snap) (epoch : ℤ)
  | compacted (epoch : ℤ) (covers : List BlobID)
  | ranging (k : Snap) (lo hi : ℤ) (listed : List (ℤ × List Metadata))
  | ranged (lo hi : ℤ) (covers : List BlobID)
  | cleaning (k : Snap)
  | deleting (ids : List BlobID)
  | deletingMarkers (ids : List BlobID)
  | watermarking (at_ : ℤ)
  | watermarked
  | reading (k : Snap) (listed : List (ℤ × List Metadata))

/-- An index set that was computed: the blobs it holds or covers, and those it should. -/
structure IndexRead where
  before : List BlobID
  covered : List BlobID

/-- The store, the clock, the clients and what they are doing. `covers` tells the index blobs a
compacted blob was made of. The rest is history: the blobs that were written before the epoch two
later began and were not withdrawn, those of writes that succeeded, those that cleanup removed, and
the sets that were computed. -/
structure World where
  now : ℤ
  blobs : List Metadata
  covers : BlobID → List BlobID
  clients : ℕ → Client
  tasks : ℕ → Option (ℕ × Task)
  next : ℕ
  owner : Suffix → Option ℕ
  timely : List BlobID
  succeeded : List BlobID
  cleaned : List BlobID
  reads : List IndexRead

inductive EpochAction where
  | tick (d : ℕ)
  | refreshBegin (c : ℕ)
  | refreshMarkers (c : ℕ)
  | refreshWatermarks (c : ℕ)
  | refreshSingles (c : ℕ)
  | refreshRanges (c : ℕ)
  | refreshUncompacted (c : ℕ) (epoch : ℤ)
  | refreshEnd (c : ℕ)
  | writeBegin (c : ℕ) (shards : List Suffix)
  | writeState (i : ℕ)
  | writeDrop (i : ℕ) (name : Suffix)
  | writePut (i : ℕ) (name : Suffix) (length : ℤ)
  | writeDone (i : ℕ)
  | writeCheck (i : ℕ)
  | writeWithdraw (i : ℕ) (name : Suffix)
  | advance (c : ℕ)
  | advancePut (i : ℕ)
  | compactBegin (c : ℕ)
  | compactList (i : ℕ)
  | compactPut (i : ℕ) (name set : Str) (length : ℤ)
  | rangeBegin (c : ℕ)
  | rangeList (i : ℕ) (epoch : ℤ)
  | rangeCheck (i : ℕ)
  | rangePut (i : ℕ) (name set : Str) (length : ℤ)
  | cleanupBegin (c : ℕ)
  | cleanupList (i : ℕ)
  | cleanupDelete (i : ℕ) (id : BlobID)
  | markersBegin (c : ℕ)
  | markersDelete (i : ℕ) (id : BlobID)
  | watermarkBegin (c : ℕ) (at_ : ℤ)
  | watermarkPut (i : ℕ)
  | watermarkDone (i : ℕ)
  | readBegin (c : ℕ)
  | readList (i : ℕ) (epoch : ℤ)
  | readEnd (i : ℕ)
  | abandon (i : ℕ)
  deriving DecidableEq

namespace BlobID

def isEpochMarker : BlobID → Bool
  | .epochMarker _ => true
  | _ => false

def isDeletionWatermark : BlobID → Bool
  | .deletionWatermark _ => true
  | _ => false

def isUncompacted : BlobID → Bool
  | .uncompacted _ _ => true
  | _ => false

def isUncompactedOf (e : ℤ) : BlobID → Bool
  | .uncompacted e' _ => e' = e
  | _ => false

def isSingleEpochCompaction : BlobID → Bool
  | .singleEpochCompaction _ _ => true
  | _ => false

def isRangeCheckpoint : BlobID → Bool
  | .rangeCheckpoint _ _ _ => true
  | _ => false

end BlobID

namespace World

def list (order : List Metadata → List Metadata) (s : World) (p : BlobID → Bool) : List Metadata :=
  order (s.blobs.filter fun bm => p bm.blobID)

def has (s : World) (id : BlobID) : Bool := s.blobs.any fun bm => bm.blobID = id

def put (s : World) (id : BlobID) (length : ℤ) : World :=
  { s with blobs := ⟨id, length, s.now⟩ :: s.blobs.filter fun bm => bm.blobID ≠ id }

def delete (s : World) (id : BlobID) : World :=
  { s with blobs := s.blobs.filter fun bm => bm.blobID ≠ id }

def writeEpoch (s : World) : ℤ :=
  loadWriteEpoch (s.blobs.filter fun bm => bm.blobID.isEpochMarker)

def indexes (s : World) (id : BlobID) : List BlobID := if id.isUncompacted then [id] else s.covers id

def coveredBy (s : World) (bms : List Metadata) : List BlobID :=
  bms.flatMap fun bm => s.indexes bm.blobID

def setClient (s : World) (c : ℕ) (x : Client) : World :=
  { s with clients := Function.update s.clients c x }

def setRefresh (s : World) (c : ℕ) (r : Option Refresh) : World :=
  s.setClient c { s.clients c with refresh := r }

def setTask (s : World) (i : ℕ) (t : Option (ℕ × Task)) : World :=
  { s with tasks := Function.update s.tasks i t }

def start (s : World) (c : ℕ) (t : Task) : World :=
  { s.setTask s.next (some (c, t)) with next := s.next + 1 }

/-- `committedState`: the client's snapshot, where it is valid for long enough or has just been
loaded, and the client is not refreshing. -/
def committedState (s : World) (c : ℕ) (ensureMinTime : ℤ) : Option Snap :=
  match (s.clients c).refresh, (s.clients c).known with
  | none, some k =>
    if s.now + ensureMinTime ≤ k.cs.validUntil ∨ s.now = k.loaded then some k else none
  | _, _ => none

def invalidate (s : World) (c : ℕ) : Option World :=
  match (s.clients c).refresh with
  | none => some (s.setClient c ⟨none, none⟩)
  | some _ => none

end World

section Steps

variable (p : Parameters) (order : List Metadata → List Metadata)

def Refresh.listing (markers watermarks singles ranges : List Metadata)
    (uncompacted : List (ℤ × List Metadata)) : Listing :=
  ⟨markers, watermarks, singles, ranges, fun e => (uncompacted.lookup e).getD []⟩

def Refresh.epochs (markers : List Metadata) : List ℤ :=
  (loadUncompactedEpochs (fun _ => []) (loadWriteEpoch markers - 1) 3).map (·.1)

/-- `refreshAttemptLocked`, one list call at a time; a refresh that fails or took too long is
dropped. -/
def World.stepRefresh (s : World) : EpochAction → Option World
  | .refreshBegin c =>
    if (s.clients c).refresh.isSome then none
    else some (s.setRefresh c (some ⟨s.now, s.succeeded, none, none, none, none, []⟩))
  | .refreshMarkers c =>
    match (s.clients c).refresh with
    | some r =>
      if r.markers.isSome then none
      else some (s.setRefresh c (some { r with markers := s.list order (·.isEpochMarker) }))
    | none => none
  | .refreshWatermarks c =>
    match (s.clients c).refresh with
    | some r =>
      if r.watermarks.isSome then none
      else some (s.setRefresh c (some { r with
        watermarks := s.list order (·.isDeletionWatermark) }))
    | none => none
  | .refreshSingles c =>
    match (s.clients c).refresh with
    | some r =>
      if r.singles.isSome then none
      else some (s.setRefresh c (some { r with
        singles := s.list order (·.isSingleEpochCompaction) }))
    | none => none
  | .refreshRanges c =>
    match (s.clients c).refresh with
    | some r =>
      if r.ranges.isSome then none
      else some (s.setRefresh c (some { r with ranges := s.list order (·.isRangeCheckpoint) }))
    | none => none
  | .refreshUncompacted c e =>
    match (s.clients c).refresh with
    | some r =>
      match r.markers, r.watermarks, r.singles, r.ranges with
      | some m, some _, some _, some _ =>
        if e ∈ Refresh.epochs m then
          some (s.setRefresh c (some { r with
            uncompacted := (e, s.list order (·.isUncompactedOf e)) :: r.uncompacted }))
        else none
      | _, _, _, _ => none
    | none => none
  | .refreshEnd c =>
    match (s.clients c).refresh with
    | some r =>
      match r.markers, r.watermarks, r.singles, r.ranges with
      | some m, some w, some x, some g =>
        let cs := refreshAttempt p r.begun (Refresh.listing m w x g r.uncompacted)
        if ((Refresh.epochs m).all fun e => (r.uncompacted.lookup e).isSome)
            && s.now ≤ cs.validUntil then
          some (s.setClient c ⟨some ⟨cs, r.begun, s.now, r.before⟩, none⟩)
        else some (s.setRefresh c none)
      | _, _, _, _ => some (s.setRefresh c none)
    | none => none
  | _ => none

/-- The put of a shard, which is in time while the epoch two later has not begun. -/
def World.putShard (s : World) (epoch : ℤ) (name : Suffix) (length : ℤ) : World :=
  { s.put (.uncompacted epoch name) length with
    timely := if s.writeEpoch ≤ epoch + 1 then .uncompacted epoch name :: s.timely else s.timely }

def World.withdraw (s : World) (epoch : ℤ) (name : Suffix) : World :=
  { s.delete (.uncompacted epoch name) with
    timely := s.timely.filter fun id => id ≠ .uncompacted epoch name }

/-- `WriteIndex`. A state for another epoch makes it delete what it wrote and start over; a state
that is no longer valid makes it get a new one. When everything is written it discards the client's
snapshot and looks at a new one: two epochs on, it deletes what it wrote and fails. -/
def World.stepWrite (s : World) : EpochAction → Option World
  | .writeBegin c shards =>
    if shards.all fun n => (s.owner n).isNone then
      some { s.start c (.writing ⟨shards, [], -1⟩) with
        owner := fun n => if n ∈ shards then some s.next else s.owner n }
    else none
  | .writeState i =>
    match s.tasks i with
    | some (c, .writing w) =>
      (s.committedState c (3 * p.epochRefreshFrequency / 4)).map fun k =>
        if k.cs.writeEpoch = w.epoch then s.setTask i (some (c, .putting w k))
        else s.setTask i (some (c, .dropping w k))
    | some (c, .dropping w k) =>
      if w.written = [] then
        some (s.setTask i (some (c, .putting { w with epoch := k.cs.writeEpoch } k)))
      else none
    | _ => none
  | .writeDrop i n =>
    match s.tasks i with
    | some (c, .dropping w k) =>
      if n ∈ w.written then
        some ((s.withdraw w.epoch n).setTask i
          (some (c, .dropping { w with written := w.written.filter (· ≠ n) } k)))
      else none
    | _ => none
  | .writePut i n length =>
    match s.tasks i with
    | some (c, .putting w k) =>
      if n ∈ w.shards ∧ n ∉ w.written then
        if s.now < k.cs.validUntil then
          some ((s.putShard w.epoch n length).setTask i
            (some (c, .putting { w with written := n :: w.written } k)))
        else some (s.setTask i (some (c, .writing w)))
      else none
    | _ => none
  | .writeDone i =>
    match s.tasks i with
    | some (c, .putting w _) =>
      if ∀ n ∈ w.shards, n ∈ w.written then
        (s.invalidate c).map fun s' => s'.setTask i (some (c, .checking w s.writeEpoch))
      else none
    | _ => none
  | .writeCheck i =>
    match s.tasks i with
    | some (c, .checking w _) =>
      (s.committedState c 0).map fun k =>
        if w.epoch + 2 ≤ k.cs.writeEpoch then s.setTask i (some (c, .withdrawing w))
        else { s.setTask i none with
          succeeded := w.written.map (.uncompacted w.epoch ·) ++ s.succeeded }
    | _ => none
  | .writeWithdraw i n =>
    match s.tasks i with
    | some (c, .withdrawing w) =>
      if n ∈ w.written then
        some ((s.withdraw w.epoch n).setTask i
          (some (c, .withdrawing { w with written := w.written.filter (· ≠ n) })))
      else none
    | _ => none
  | _ => none

def World.putCompacted (s : World) (id : BlobID) (length : ℤ) (covers : List BlobID) :
    Option World :=
  if s.has id then none
  else some { s.put id length with covers := Function.update s.covers id covers }

def CurrentSnapshot.epochToCompact (cs : CurrentSnapshot) : Option ℤ :=
  match cs.oldestUncompactedEpoch with
  | none => none
  | some e =>
    if e < 0 then none
    else if !cs.isSettledEpochNumber e then none
    else if (cs.singleEpochCompactionSets.lookup e).isSome then none
    else if cs.getRangeCompactedRange.1 ≤ cs.getRangeCompactedRange.2
        ∧ e ≤ cs.getRangeCompactedRange.2 then none
    else some e

/-- `MaybeAdvanceWriteEpoch`, `MaybeCompactSingleEpoch` and `MaybeGenerateRangeCheckpoint`. Advancing
takes whatever snapshot the client has; only the range checkpoint looks at the clock again before it
compacts. -/
def World.stepCompact (s : World) : EpochAction → Option World
  | .advance c =>
    match (s.clients c).refresh, (s.clients c).known with
    | none, some k =>
      if shouldAdvance ((k.cs.uncompactedEpochSets.lookup k.cs.writeEpoch).getD []) p then
        some (s.start c (.advancing (k.cs.writeEpoch + 1)))
      else none
    | _, _ => none
  | .advancePut i =>
    match s.tasks i with
    | some (_, .advancing e) => some ((s.put (.epochMarker e) 12).setTask i none)
    | _ => none
  | .compactBegin c =>
    (s.committedState c 0).bind fun k =>
      k.cs.epochToCompact.map fun e => s.start c (.compacting k e)
  | .compactList i =>
    match s.tasks i with
    | some (c, .compacting k e) =>
      let bms := (k.cs.uncompactedEpochSets.lookup e).getD (s.list order (·.isUncompactedOf e))
      if bms = [] then some (s.setTask i none)
      else some (s.setTask i (some (c, .compacted e (s.coveredBy bms))))
    | _ => none
  | .compactPut i name set length =>
    match s.tasks i with
    | some (_, .compacted e covers) =>
      (s.putCompacted (.singleEpochCompaction e ⟨name, some (set, 1)⟩) length covers).map
        fun s' => s'.setTask i none
    | _ => none
  | .rangeBegin c =>
    (s.committedState c 0).bind fun k =>
      (k.cs.getRangeToCompact p).map fun r => s.start c (.ranging k r.1 r.2 [])
  | .rangeList i e =>
    match s.tasks i with
    | some (c, .ranging k lo hi listed) =>
      some (s.setTask i (some (c,
        .ranging k lo hi ((e, s.list order (·.isUncompactedOf e)) :: listed))))
    | _ => none
  | .rangeCheck i =>
    match s.tasks i with
    | some (c, .ranging k lo hi listed) =>
      match getCompleteIndexSetForCommittedState k.cs (fun e => listed.lookup e) lo hi with
      | .ok bms =>
        if s.now ≤ k.cs.validUntil then
          some (s.setTask i (some (c, .ranged lo hi (s.coveredBy bms))))
        else none
      | _ => none
    | _ => none
  | .rangePut i name set length =>
    match s.tasks i with
    | some (_, .ranged lo hi covers) =>
      (s.putCompacted (.rangeCheckpoint lo hi ⟨name, some (set, 1)⟩) length covers).map
        fun s' => s'.setTask i none
    | _ => none
  | _ => none

/-- The uncompacted blobs `CleanupSupersededIndexes` deletes: those of epochs that have had a
compaction set for longer than the safety margin. -/
def CurrentSnapshot.superseded (cs : CurrentSnapshot) (bms : List Metadata) : List BlobID :=
  (bms.filter fun bm => match bm.blobID.epochNumber with
    | some e => blobSetWrittenEarlyEnough ((cs.singleEpochCompactionSets.lookup e).getD [])
        (cs.maxCleanupTime - p.cleanupSafetyMargin)
    | none => false).map (·.blobID)

def CurrentSnapshot.oldMarkers (cs : CurrentSnapshot) : List BlobID :=
  (cs.epochMarkerBlobs.filter fun bm => match bm.blobID.epochNumber with
    | some n => n < cs.writeEpoch - 1
    | none => false).map (·.blobID)

def CurrentSnapshot.oldWatermarks (cs : CurrentSnapshot) : List BlobID :=
  (cs.deletionWatermarkBlobs.filter fun bm => match deletionWatermarkFromBlobID bm.blobID with
    | some t => t ≠ cs.deletionWatermark
        && bm.timestamp < cs.maxCleanupTime - p.cleanupSafetyMargin
    | none => false).map (·.blobID)

/-- `CleanupSupersededIndexes`, `CleanupMarkers` and `AdvanceDeletionWatermark`. -/
def World.stepClean (s : World) : EpochAction → Option World
  | .cleanupBegin c =>
    (s.committedState c 0).bind fun k =>
      if k.cs.maxCleanupTime = zeroTime then none else some (s.start c (.cleaning k))
  | .cleanupList i =>
    match s.tasks i with
    | some (c, .cleaning k) =>
      some (s.setTask i (some (c,
        .deleting (k.cs.superseded p (s.list order (·.isUncompacted))))))
    | _ => none
  | .cleanupDelete i id =>
    match s.tasks i with
    | some (_, .deleting ids) =>
      if id ∈ ids then some { s.delete id with cleaned := id :: s.cleaned } else none
    | _ => none
  | .markersBegin c =>
    (s.committedState c 0).bind fun k =>
      if k.cs.maxCleanupTime = zeroTime then none
      else some (s.start c (.deletingMarkers (k.cs.oldMarkers ++ k.cs.oldWatermarks p)))
  | .markersDelete i id =>
    match s.tasks i with
    | some (_, .deletingMarkers ids) => if id ∈ ids then some (s.delete id) else none
    | _ => none
  | .watermarkBegin c t =>
    (s.committedState c 0).bind fun k =>
      if t < k.cs.deletionWatermark then none else some (s.start c (.watermarking t))
  | .watermarkPut i =>
    match s.tasks i with
    | some (c, .watermarking t) =>
      some ((s.put (.deletionWatermark (t / 10 ^ 9)) 18).setTask i (some (c, .watermarked)))
    | _ => none
  | .watermarkDone i =>
    match s.tasks i with
    | some (c, .watermarked) => (s.invalidate c).map fun s' => s'.setTask i none
    | _ => none
  | _ => none

def World.stepRead (s : World) : EpochAction → Option World
  | .readBegin c => (s.committedState c 0).map fun k => s.start c (.reading k [])
  | .readList i e =>
    match s.tasks i with
    | some (c, .reading k listed) =>
      some (s.setTask i (some (c,
        .reading k ((e, s.list order (·.isUncompactedOf e)) :: listed))))
    | _ => none
  | .readEnd i =>
    match s.tasks i with
    | some (_, .reading k listed) =>
      match getCompleteIndexSetForCommittedState k.cs (fun e => listed.lookup e) 0
          (k.cs.writeEpoch + 1) with
      | .ok bms =>
        if s.now < k.cs.validUntil then
          some { s.setTask i none with reads := ⟨k.before, s.coveredBy bms⟩ :: s.reads }
        else none
      | _ => none
    | _ => none
  | _ => none

def World.step (s : World) (a : EpochAction) : Option World :=
  match a with
  | .tick d => some { s with now := s.now + d }
  | .abandon i => some (s.setTask i none)
  | .refreshBegin _ | .refreshMarkers _ | .refreshWatermarks _ | .refreshSingles _
  | .refreshRanges _ | .refreshUncompacted _ _ | .refreshEnd _ => s.stepRefresh p order a
  | .writeBegin _ _ | .writeState _ | .writeDrop _ _ | .writePut _ _ _ | .writeDone _
  | .writeCheck _ | .writeWithdraw _ _ => s.stepWrite p a
  | .advance _ | .advancePut _ | .compactBegin _ | .compactList _ | .compactPut _ _ _ _
  | .rangeBegin _ | .rangeList _ _ | .rangeCheck _ | .rangePut _ _ _ _ => s.stepCompact p order a
  | .cleanupBegin _ | .cleanupList _ | .cleanupDelete _ _ | .markersBegin _ | .markersDelete _ _
  | .watermarkBegin _ _ | .watermarkPut _ | .watermarkDone _ => s.stepClean p order a
  | .readBegin _ | .readList _ _ | .readEnd _ => s.stepRead order a

end Steps

end Warphold.Epoch
