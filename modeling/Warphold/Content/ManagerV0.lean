import Warphold.Content.Manager

/-!
# The first index blob manager

Index blobs of the first kind are compacted by writing new ones with their entries and a compaction
log with the blobs that went in and came out. A blob that went into a compaction all of whose outputs
are there is not active. Inputs of logs that are old enough are deleted, in the order in which a map
gives them, then a cleanup blob schedules their logs, which a later call deletes.

What a call does not determine is in its surroundings: the names it draws, the times the storage
gives, the orders of maps and where a call on the storage fails.
-/

namespace Warphold.Content.ManagerV0

structure IndexBlob where
  blobID : Str
  length : ℕ
  entries : Index
  stops : Option ℕ
  deriving DecidableEq

def IndexBlob.delivered (b : IndexBlob) : Index :=
  match b.stops with
  | none => b.entries
  | some n => b.entries.take n

structure CompactionLog where
  blobID : Str
  timestamp : ℤ
  inputs : List Str
  outputs : List Str
  deriving DecidableEq

structure CleanupEntry where
  blobID : Str
  timestamp : ℤ
  blobIDs : List Str
  cleanupScheduleTime : ℤ
  deriving DecidableEq

structure Store where
  indexBlobs : List IndexBlob
  logs : List CompactionLog
  cleanups : List CleanupEntry
  deriving DecidableEq

structure CompactOptions where
  maxSmallBlobs : ℤ
  allIndexes : Bool
  dropDeletedBefore : Option ℤ
  dropContents : List ID
  disableEventualConsistencySafety : Bool

def defaultEventualConsistencySettleTime : ℤ := 60 * minute

def CompactOptions.maxEventualConsistencySettleTime (opt : CompactOptions) : ℤ :=
  if opt.disableEventualConsistencySafety then 0 else defaultEventualConsistencySettleTime

/-- What a call of `Compact` meets. A number tells after how many calls of its kind one fails. -/
structure Env where
  unreadable : Str → Bool
  outputID : ℕ → Str
  outputLength : ℕ → ℕ
  writes : Option ℕ
  logID : Str
  logTime : ℤ
  logFails : Bool
  order : List Str → List Str
  order_perm : ∀ ids, (order ids).Perm ids
  deletes : Option ℕ
  cleanupID : Str
  cleanupTime : ℤ
  delayFails : Bool
  cleanupOrder : List CleanupEntry → List CleanupEntry
  cleanupOrder_perm : ∀ es, (cleanupOrder es).Perm es
  logDeletes : Option ℕ
  cleanupDeletes : Option ℕ

section Listing

def Store.has (st : Store) (id : Str) : Bool := st.indexBlobs.any fun b => b.blobID = id

def haveAllOutputs (st : Store) (cl : CompactionLog) : Bool := cl.outputs.all st.has

def listActiveIndexBlobs (st : Store) : List IndexBlob :=
  let validCompactionLogs := st.logs.filter (haveAllOutputs st)
  st.indexBlobs.filter fun b => !validCompactionLogs.any fun cl => cl.inputs.contains b.blobID

def Store.view (st : Store) (c : ID) : Option Info :=
  Merged.getInfo ((listActiveIndexBlobs st).map (·.entries)) c

end Listing

section Compact

def verySmallContentFraction : ℕ := 20

def getBlobsToCompact (maxPackSize : ℕ) (opt : CompactOptions) (indexBlobs : List IndexBlob) :
    List IndexBlob :=
  let nonCompactedBlobs := indexBlobs.filter fun b => !(maxPackSize < b.length && !opt.allIndexes)
  let verySmallBlobs := nonCompactedBlobs.filter fun b =>
    b.length < maxPackSize / verySmallContentFraction
  let mediumSizedBlobCount := nonCompactedBlobs.length - verySmallBlobs.length
  if nonCompactedBlobs.length < opt.maxSmallBlobs then []
  else if nonCompactedBlobs.length / 2 < verySmallBlobs.length ∧
      (mediumSizedBlobCount + 1 : ℤ) < opt.maxSmallBlobs then verySmallBlobs
  else nonCompactedBlobs

def oldDeleted (cutoff : ℤ) (i : Info) : Bool :=
  i.deleted && i.timestampSeconds * 10 ^ 9 < cutoff

def dropAll (ids : List ID) (bld : Builder) : Builder := ids.foldl (fun b c => b.erase c) bld

def dropContentsFromBuilder (opt : CompactOptions) (bld : Builder) : Builder :=
  let bld := dropAll opt.dropContents bld
  match opt.dropDeletedBefore with
  | none => bld
  | some cutoff => dropAll ((bld.infos.filter (oldDeleted cutoff)).map (·.contentID)) bld

inductive Outcome where
  | skipped
  | failed
  | registered
  deriving DecidableEq, Repr

variable (cfg : Config) (env : Env)

def idle (opt : CompactOptions) (indexBlobs : List IndexBlob) : Bool :=
  indexBlobs.length ≤ 1 && opt.dropDeletedBefore.isNone && opt.dropContents.isEmpty

/-- The entries of the input blobs without what is dropped; an error of `Iterate` is lost. -/
def compactedBuilder (opt : CompactOptions) (indexBlobs : List IndexBlob) : Builder :=
  dropContentsFromBuilder opt (Builder.addAll ∅ (indexBlobs.flatMap (·.delivered)))

def buildShards (bld : Builder) : Option (List Index) :=
  (bld.shard defaultIndexShardSize).mapM (cfg.indexVersion.build cfg.overhead)

def outputBlobs (shards : List Index) : List IndexBlob :=
  shards.mapIdx fun k ndx => ⟨env.outputID k, env.outputLength k, ndx, none⟩

def compactIndexBlobs (opt : CompactOptions) (indexBlobs : List IndexBlob) (st : Store) :
    Store × Outcome :=
  if idle opt indexBlobs then (st, .skipped)
  else if indexBlobs.any fun b => env.unreadable b.blobID then (st, .failed)
  else
    match buildShards cfg (compactedBuilder opt indexBlobs) with
    | none => (st, .failed)
    | some shards =>
      let outputs := outputBlobs env shards
      match env.writes with
      | some n => ({ st with indexBlobs := st.indexBlobs ++ outputs.take n }, .failed)
      | none =>
        let st := { st with indexBlobs := st.indexBlobs ++ outputs }
        if env.logFails then (st, .failed)
        else
          let log : CompactionLog :=
            ⟨env.logID, env.logTime, indexBlobs.map (·.blobID), outputs.map (·.blobID)⟩
          ({ st with logs := st.logs ++ [log] }, .registered)

end Compact

section Delete

def reached {α : Type} (stops : Option ℕ) (l : List α) : List α :=
  match stops with
  | none => l
  | some n => l.take n

variable (env : Env)

def blobsOlderThan (cutoffTime : ℤ) (logs : List CompactionLog) : List CompactionLog :=
  logs.filter fun cl => cl.timestamp ≤ cutoffTime

def findIndexBlobsToDelete (latestServerBlobTime maxEventualConsistencySettleTime : ℤ)
    (entries : List CompactionLog) : List Str :=
  ((entries.filter fun cl =>
    !(latestServerBlobTime - cl.timestamp < maxEventualConsistencySettleTime)).flatMap
      (·.inputs)).dedup

def deleteIndexBlobs (ids : List Str) (st : Store) : Store :=
  { st with indexBlobs := st.indexBlobs.filter fun b => !ids.contains b.blobID }

def delayCleanupBlobs (ids : List Str) (cleanupScheduleTime : ℤ) (st : Store) : Store × Bool :=
  if ids = [] then (st, true)
  else if env.delayFails then (st, false)
  else
    let e : CleanupEntry := ⟨env.cleanupID, env.cleanupTime, ids, cleanupScheduleTime⟩
    ({ st with cleanups := st.cleanups ++ [e] }, true)

def indexBlobsToDelete (latest settle : ℤ) (st : Store) : List Str :=
  env.order (findIndexBlobsToDelete latest settle (blobsOlderThan (latest - settle) st.logs))

def deleteOldBlobs (latest settle : ℤ) (st : Store) : Store × Bool :=
  let compactionBlobs := blobsOlderThan (latest - settle) st.logs
  let st := deleteIndexBlobs (reached env.deletes (indexBlobsToDelete env latest settle st)) st
  if env.deletes.isSome then (st, false)
  else delayCleanupBlobs env (compactionBlobs.map (·.blobID)) latest st

def zeroTime : ℤ := -62135596800 * 10 ^ 9

def cleanup (settle : ℤ) (st : Store) : Store × Bool :=
  let latest := (st.cleanups.map (·.timestamp)).foldl max zeroTime
  let old := (env.cleanupOrder st.cleanups).filter fun e => settle ≤ latest - e.cleanupScheduleTime
  let logs := reached env.logDeletes (old.flatMap (·.blobIDs))
  let st := { st with logs := st.logs.filter fun cl => !logs.contains cl.blobID }
  if env.logDeletes.isSome then (st, false)
  else
    let gone := reached env.cleanupDeletes (old.map (·.blobID))
    ({ st with cleanups := st.cleanups.filter fun e => !gone.contains e.blobID },
      env.cleanupDeletes.isNone)

def finish (opt : CompactOptions) : Store × Outcome → Store × Bool
  | (st, .failed) => (st, false)
  | (st, .skipped) => cleanup env opt.maxEventualConsistencySettleTime st
  | (st, .registered) =>
    match deleteOldBlobs env env.logTime opt.maxEventualConsistencySettleTime st with
    | (st, false) => (st, false)
    | (st, true) => cleanup env opt.maxEventualConsistencySettleTime st

def compact (cfg : Config) (opt : CompactOptions) (st : Store) : Store × Bool :=
  finish env opt (compactIndexBlobs cfg env opt
    (getBlobsToCompact cfg.maxPackSize opt (listActiveIndexBlobs st)) st)

end Delete

section Runs

structure State where
  store : Store
  before : Store
  deriving DecidableEq

inductive Action where
  | write (b : IndexBlob)
  | compact (opt : CompactOptions) (env : Env)

/-- Names that nothing has had: they are hashes of data with random bytes in it. -/
def Store.unused (st : Store) (ids : List Str) : Prop :=
  ids.Nodup ∧ ∀ id ∈ ids, st.has id = false ∧ ∀ cl ∈ st.logs, id ∉ cl.inputs ∧ id ∉ cl.outputs

instance (st : Store) (ids : List Str) : Decidable (st.unused ids) := by
  unfold Store.unused
  infer_instance

def beforeDeletions (cfg : Config) (opt : CompactOptions) (env : Env) (st : Store) :
    Store × Outcome :=
  compactIndexBlobs cfg env opt (getBlobsToCompact cfg.maxPackSize opt (listActiveIndexBlobs st)) st

def Env.fresh (env : Env) (cfg : Config) (opt : CompactOptions) (st : Store) : Prop :=
  st.unused (((beforeDeletions cfg opt env st).1.indexBlobs.drop st.indexBlobs.length).map
    (·.blobID)) ∧
  (∀ cl ∈ st.logs, cl.blobID ≠ env.logID ∧ cl.timestamp ≤ env.logTime) ∧
  ∀ e ∈ st.cleanups, env.logID ∉ e.blobIDs

instance (env : Env) (cfg : Config) (opt : CompactOptions) (st : Store) :
    Decidable (env.fresh cfg opt st) := by
  unfold Env.fresh
  infer_instance

def step (cfg : Config) (s : State) : Action → Option State
  | .write b =>
    if s.store.unused [b.blobID] then
      let st := { s.store with indexBlobs := s.store.indexBlobs ++ [b] }
      some ⟨st, st⟩
    else none
  | .compact opt env =>
    if env.fresh cfg opt s.store then
      let r := beforeDeletions cfg opt env s.store
      some ⟨(finish env opt r).1, r.1⟩
    else none

end Runs

end Warphold.Content.ManagerV0
