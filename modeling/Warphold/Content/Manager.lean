import Warphold.Content.Index

/-!
# The content manager

Contents are appended to pending packs, one for contents with a prefix and one for those without. A
pack that is full, or that a flush finishes, is uploaded; its entries then go to the unflushed index,
and a flush writes that as index blobs and takes them into use. A lookup asks the pending packs, the
packs being written, the unflushed index and the indexes in use, in this order.

What a call does not determine is in its surroundings: the clock readings it makes, the random bytes
it draws, and which calls on the storage fail.
-/

namespace Warphold.Content

structure Compressor where
  compress : Str → Str
  decompress : Str → Option Str
  decompress_compress : ∀ data, decompress (compress data) = some data

structure Config where
  indexVersion : IndexVersion
  version : ℕ
  maxPackSize : ℕ
  paddingUnit : ℕ
  formatBytes : Str
  overhead : ℕ
  permissiveCacheLoading : Bool
  disableIndexRefresh : Bool
  hash : Str → Str
  compressors : ℕ → Option Compressor
  encrypt : (nonce data iv : Str) → Str
  decrypt : (payload iv : Str) → Option Str
  decrypt_encrypt : ∀ nonce data iv, decrypt (encrypt nonce data iv) iv = some data

/-- The second index format over contents as they are: data is its own hash, and encryption puts one
byte before it. -/
def Config.plain : Config where
  indexVersion := .v2
  version := 2
  maxPackSize := 4
  paddingUnit := 0
  formatBytes := []
  overhead := 1
  permissiveCacheLoading := false
  disableIndexRefresh := true
  hash data := data
  compressors _ := none
  encrypt _ data _ := 0 :: data
  decrypt payload _ := some payload.tail
  decrypt_encrypt _ _ _ := rfl

/-- What comes of writing a blob; the answer to a call that had its effect may be lost. -/
inductive Put where
  | ok
  | failed
  | lost
  deriving DecidableEq

structure Upload where
  put : Put
  random : ℕ → Str
  recovery : Str
  recovery_ne_nil : recovery ≠ []

/-- Where flushing the index fails: after some of its blobs, or at the session markers. -/
inductive IndexFault where
  | write (written : ℕ)
  | commit
  deriving DecidableEq

/-- A clock reading that decides whether to load the indexes again, and the one after that. -/
structure RefreshClock where
  due : ℤ
  loaded : ℤ

structure Env where
  upload : Str → Upload
  packBlobID : Str
  preamble : Str
  sessionFails : Bool
  nonce : Str
  indexBlobID : ℕ → Str
  indexFault : Option IndexFault
  specialFirst : Bool
  refresh : RefreshClock
  recheck : RefreshClock
  flushDue : ℤ
  flushed : ℤ
  write : ℤ

inductive ContentErr where
  | contentNotFound
  | refresh
  | invalidPrefix
  | invalidHash
  | encrypt
  | data
  | createPack
  | writePack
  | buildIndex
  | writeIndex
  | commitSession
  deriving DecidableEq, Repr

inductive PackPrefix where
  | regular
  | special
  deriving DecidableEq, Repr

def packPrefixForContentID (id : ID) : PackPrefix := if id.hasPrefix then .special else .regular

structure Pack where
  pre : PackPrefix
  packBlobID : Str
  currentPackItems : Builder
  currentPackData : Str
  finalized : Bool
  deriving DecidableEq

structure Storage where
  packs : List (Str × Str)
  indexBlobs : List (Str × Index)
  deletionWatermark : ℤ

structure Manager where
  pendingPacks : PackPrefix → Option Pack
  writingPacks : List Pack
  failedPacks : List Pack
  packIndexBuilder : Builder
  disableIndexFlushCount : ℤ
  flushing : Bool
  flushPackIndexesAfter : ℤ
  refreshIndexesAfter : ℤ
  inUse : List Str
  merged : List Index
  deletionWatermark : ℤ
  storage : Storage

def minute : ℤ := 60 * 10 ^ 9

def flushPackIndexTimeout : ℤ := 10 * minute

def indexRefreshFrequency : ℤ := 15 * minute

def defaultIndexShardSize : ℕ := 16000000

def contentWriteTime (now : ℤ) (previousUnixTimeSeconds : ℤ) : ℤ :=
  if previousUnixTimeSeconds < now / 10 ^ 9 then now / 10 ^ 9 else previousUnixTimeSeconds + 1

def deletedInfo (i : Info) (deletedTime : ℤ) : Info :=
  { i with deleted := true, timestampSeconds := deletedTime }

def shouldIgnore (i : Info) (deletionWatermark : ℤ) : Bool :=
  i.deleted && i.timestampSeconds * 10 ^ 9 ≤ deletionWatermark

section Data

variable (cfg : Config)

def getPackedContentIV (id : ID) : Str := id.hash.drop (id.hash.length - 16)

/-- `maybeCompressAndEncryptDataForPacking`: the compression used and the bytes for the pack. -/
def maybeCompressAndEncryptDataForPacking (nonce data : Str) (id : ID) (comp : ℕ) :
    Option (ℕ × Str) :=
  let iv := getPackedContentIV id
  let comp := if id.hasPrefix ∧ cfg.indexVersion = .v1 then 0 else comp
  if comp = 0 then some (0, cfg.encrypt nonce data iv)
  else if cfg.indexVersion = .v1 then none
  else match cfg.compressors comp with
    | none => none
    | some c =>
      if data.length ≤ (c.compress data).length then some (0, cfg.encrypt nonce data iv)
      else some (comp, cfg.encrypt nonce (c.compress data) iv)

def decryptContentAndVerify (payload : Str) (i : Info) : Option Str :=
  if i.encryptionKeyID ≠ 0 then none
  else if i.compressionHeaderID = 0 then cfg.decrypt payload (getPackedContentIV i.contentID)
  else match cfg.decrypt payload (getPackedContentIV i.contentID),
      cfg.compressors i.compressionHeaderID with
    | some z, some c => c.decompress z
    | _, _ => none

def dataSection (data : Str) (offset length : ℕ) : Option Str :=
  if offset + length ≤ data.length then some ((data.drop offset).take length) else none

def getContentData (st : Storage) (pp : Option Pack) (i : Info) : Option Str :=
  let data := match pp with
    | some pp =>
      if pp.packBlobID = i.packBlobID then some pp.currentPackData
      else st.packs.lookup i.packBlobID
    | none => st.packs.lookup i.packBlobID
  (data.bind fun d => dataSection d i.packOffset i.packedLength).bind
    fun payload => decryptContentAndVerify cfg payload i

/-- `preparePackDataContent`: the pack as it will be uploaded and its entries. -/
def Pack.prepare (up : Upload) (pp : Pack) : Pack × Option Builder :=
  let packFileIndex := Builder.addAll ∅ pp.currentPackItems.infos
  if packFileIndex.infos = [] then (pp, some packFileIndex)
  else if pp.currentPackItems.infos.all fun i => i.packBlobID ≠ pp.packBlobID then
    -- only deletions: the preamble is dropped and there is nothing to upload
    ({ pp with currentPackData := [] }, some packFileIndex)
  else if pp.finalized then (pp, some packFileIndex)
  else
    let missing := cfg.paddingUnit - pp.currentPackData.length % cfg.paddingUnit
    let padding := if 0 < cfg.paddingUnit then up.random missing else []
    let pp := { pp with finalized := true, currentPackData := pp.currentPackData ++ padding }
    if cfg.indexVersion.buildable packFileIndex.infos then
      ({ pp with currentPackData := pp.currentPackData ++ up.recovery }, some packFileIndex)
    else (pp, none)

end Data

namespace Manager

variable (cfg : Config) (env : Env)

section Lookup

def pendingList (s : Manager) : List Pack :=
  [PackPrefix.regular, PackPrefix.special].filterMap s.pendingPacks

def findItem (packs : List Pack) (id : ID) : Option (Option Pack × Info) :=
  packs.findSome? fun pp => (pp.currentPackItems.lookup id).map (some pp, ·)

def getOverlayContentInfo (s : Manager) (id : ID) : Option (Option Pack × Info) :=
  match findItem s.pendingList id with
  | some r => some r
  | none =>
    match findItem s.writingPacks id with
    | some r => some r
    | none => (s.packIndexBuilder.lookup id).map (none, ·)

def committedContent (s : Manager) (id : ID) : Option Info :=
  (Merged.getInfo s.merged id).filter fun i => !shouldIgnore i s.deletionWatermark

/-- `Refresh`: the indexes in use are loaded again unless they are the blobs that are there. -/
def refreshIndexes (loaded : ℤ) (s : Manager) : Manager × Bool :=
  let s := { s with deletionWatermark := s.storage.deletionWatermark }
  let indexFiles := s.storage.indexBlobs.map (·.1)
  if indexFiles.length = s.inUse.length ∧ ∀ ndx ∈ indexFiles, ndx ∈ s.inUse then
    ({ s with refreshIndexesAfter := loaded + indexRefreshFrequency }, true)
  else match combineSmallIndexes cfg.indexVersion cfg.overhead
      (s.storage.indexBlobs.map (·.2)) with
    | none => (s, false)
    | some merged =>
      ({ s with
        merged
        inUse := indexFiles
        refreshIndexesAfter := loaded + indexRefreshFrequency }, true)

def maybeRefreshIndexes (t : RefreshClock) (s : Manager) : Manager × Bool :=
  if cfg.permissiveCacheLoading then (s, true)
  else if !cfg.disableIndexRefresh && s.refreshIndexesAfter < t.due then
    s.refreshIndexes cfg t.loaded
  else (s, true)

def getContentInfo (t : RefreshClock) (s : Manager) (id : ID) :
    Manager × Except ContentErr (Option Pack × Info) :=
  match s.getOverlayContentInfo id with
  | some r => (s, .ok r)
  | none =>
    match s.maybeRefreshIndexes cfg t with
    | (s, false) => (s, .error .refresh)
    | (s, true) =>
      match s.committedContent id with
      | none => (s, .error .contentNotFound)
      | some i => (s, .ok (none, i))

def getContentDataAndInfo (t : RefreshClock) (s : Manager) (id : ID) :
    Manager × Except ContentErr (Str × Info) :=
  match s.getContentInfo cfg t id with
  | (s, .error e) => (s, .error e)
  | (s, .ok (pp, i)) =>
    match getContentData cfg s.storage pp i with
    | none => (s, .error .data)
    | some data => (s, .ok (data, i))

end Lookup

section Packs

def setPending (s : Manager) (pp : Pack) : Manager :=
  { s with pendingPacks := Function.update s.pendingPacks pp.pre (some pp) }

def startWriting (s : Manager) (pp : Pack) : Manager :=
  { s with
    pendingPacks := Function.update s.pendingPacks pp.pre none
    writingPacks := s.writingPacks ++ [pp] }

/-- `getOrCreatePendingPackInfoLocked`; the caller stores the pack. A new one needs a session, whose
marker may fail to be written. -/
def getOrCreatePendingPack (s : Manager) (pre : PackPrefix) : Option Pack :=
  match s.pendingPacks pre with
  | some pp => some pp
  | none =>
    if env.sessionFails then none
    else some ⟨pre, env.packBlobID, ∅, cfg.formatBytes ++ env.preamble, false⟩

def putBlob (s : Manager) (pp : Pack) : Manager :=
  { s with storage := { s.storage with
      packs := (pp.packBlobID, pp.currentPackData) :: s.storage.packs } }

def prepareAndWritePack (s : Manager) (pp : Pack) : Manager × Pack × Option Builder :=
  let up := env.upload pp.packBlobID
  match pp.prepare cfg up with
  | (pp, none) => (s, pp, none)
  | (pp, some packFileIndex) =>
    if pp.currentPackData = [] then (s, pp, some packFileIndex)
    else match up.put with
      | .ok => (s.putBlob pp, pp, some packFileIndex)
      | .failed => (s, pp, none)
      | .lost => (s.putBlob pp, pp, none)

def removePendingPack (packs : List Pack) (pp : Pack) : List Pack :=
  packs.filter fun p => p.packBlobID ≠ pp.packBlobID

def processWritePackResult (s : Manager) (pp : Pack) (packFileIndex : Option Builder) :
    Manager × Except ContentErr Unit :=
  let s := { s with
    writingPacks := removePendingPack s.writingPacks pp
    failedPacks := removePendingPack s.failedPacks pp }
  match packFileIndex with
  | some b => ({ s with packIndexBuilder := s.packIndexBuilder.addAll b.infos }, .ok ())
  | none => ({ s with failedPacks := s.failedPacks ++ [pp] }, .error .writePack)

def writePackAndAddToIndex (s : Manager) (pp : Pack) : Manager × Except ContentErr Unit :=
  match s.prepareAndWritePack cfg env pp with
  | (s, pp, packFileIndex) => s.processWritePackResult pp packFileIndex

def retryPacks : List Pack → Manager → Manager × Except ContentErr Unit
  | [], s => (s, .ok ())
  | pp :: pps, s =>
    match s.writePackAndAddToIndex cfg env pp with
    | (s, .error e) => (s, .error e)
    | (s, .ok ()) => retryPacks pps s

def retryFailedPacks (s : Manager) : Manager × Except ContentErr Unit :=
  s.retryPacks cfg env s.failedPacks

end Packs

section Flush

/-- `finishAllPacksLocked`, which takes the two pending packs in either order. -/
def finishPacks : List PackPrefix → Manager → Manager × Except ContentErr Unit
  | [], s => (s, .ok ())
  | pre :: rest, s =>
    match s.pendingPacks pre with
    | none => finishPacks rest s
    | some pp =>
      match (s.startWriting pp).writePackAndAddToIndex cfg env pp with
      | (s, .error e) => (s, .error e)
      | (s, .ok ()) => finishPacks rest s

def finishAllPacks (s : Manager) : Manager × Except ContentErr Unit :=
  s.finishPacks cfg env (if env.specialFirst then [.special, .regular] else [.regular, .special])

def addIndexBlob (s : Manager) (blob : Str × Index) : Manager :=
  if blob.1 ∈ s.inUse then s
  else { s with inUse := s.inUse ++ [blob.1], merged := s.merged ++ [blob.2] }

def writeIndexBlobs (s : Manager) (blobs : List (Str × Index)) : Manager :=
  { s with storage := { s.storage with indexBlobs := s.storage.indexBlobs ++ blobs } }

def flushPackIndexes (s : Manager) : Manager × Except ContentErr Unit :=
  if 0 < s.disableIndexFlushCount then (s, .ok ())
  else
    let done := fun s : Manager =>
      { s with flushPackIndexesAfter := env.flushed + flushPackIndexTimeout }
    if s.packIndexBuilder.entries = [] then (done s, .ok ())
    else match (s.packIndexBuilder.shard defaultIndexShardSize).mapM
        (cfg.indexVersion.build cfg.overhead) with
      | none => (s, .error .buildIndex)
      | some shards =>
        let blobs := shards.mapIdx fun k ndx => (env.indexBlobID k, ndx)
        match env.indexFault with
        | some (.write n) => (s.writeIndexBlobs (blobs.take n), .error .writeIndex)
        | some .commit => (s.writeIndexBlobs blobs, .error .commitSession)
        | none =>
          let s := blobs.foldl addIndexBlob (s.writeIndexBlobs blobs)
          (done { s with packIndexBuilder := ∅ }, .ok ())

def flushBegin (s : Manager) : Manager × Except ContentErr Unit :=
  match { s with flushing := true }.retryFailedPacks cfg env with
  | (s, .error e) => ({ s with flushing := false }, .error e)
  | (s, .ok ()) => (s, .ok ())

def flushFinish (s : Manager) : Manager × Except ContentErr Unit :=
  match s.finishAllPacks cfg env with
  | (s, .error e) => ({ s with flushing := false }, .error e)
  | (s, .ok ()) =>
    match s.flushPackIndexes cfg env with
    | (s, r) => ({ s with flushing := false }, r)

/-- `Flush` with nobody else at work: `none` is that it waits for ever. -/
def flush (s : Manager) : Option (Manager × Except ContentErr Unit) :=
  match s.flushBegin cfg env with
  | (s, .error e) => some (s, .error e)
  | (s, .ok ()) => if s.writingPacks = [] then some (s.flushFinish cfg env) else none

def maybeFlushBasedOnTime (s : Manager) : Option (Manager × Except ContentErr Unit) :=
  if s.flushPackIndexesAfter < env.flushDue then s.flush cfg env else some (s, .ok ())

end Flush

section Write

/-- The entry `addToPackUnlocked` makes of a content at the end of a pack. -/
def newInfo (pp : Pack) (id : ID) (length : ℕ) (isDeleted : Bool) (comp : ℕ)
    (previousWriteTime : ℤ) (payload : Str) : Info where
  packBlobID := pp.packBlobID
  timestampSeconds := contentWriteTime env.write previousWriteTime
  originalLength := length % 2 ^ 32
  packedLength := ((pp.currentPackData ++ payload).length % 2 ^ 32 + 2 ^ 32
    - pp.currentPackData.length % 2 ^ 32) % 2 ^ 32
  packOffset := pp.currentPackData.length % 2 ^ 32
  compressionHeaderID := comp
  contentID := id
  deleted := isDeleted
  formatVersion := cfg.version
  encryptionKeyID := 0

/-- `addToPackUnlocked` from when nobody flushes on, under the lock: the full pack, if any, is to be
written next. -/
def appendToPack (s : Manager) (id : ID) (length : ℕ) (isDeleted : Bool) (comp : ℕ)
    (previousWriteTime : ℤ) (payload : Str) : Manager × Except ContentErr (Option Pack) :=
  match s.retryFailedPacks cfg env with
  | (s, .error e) => (s, .error e)
  | (s, .ok ()) =>
    match s.getOrCreatePendingPack cfg env (packPrefixForContentID id) with
    | none => (s, .error .createPack)
    | some pp =>
      let info := newInfo cfg env pp id length isDeleted comp previousWriteTime payload
      let pp := { pp with
        currentPackItems := pp.currentPackItems.insert id info
        currentPackData := pp.currentPackData ++ payload }
      if cfg.maxPackSize ≤ pp.currentPackData.length then (s.startWriting pp, .ok (some pp))
      else (s.setPending pp, .ok none)

def recheck (s : Manager) (id : ID) (previousWriteTime : ℤ) : Manager × Bool :=
  if previousWriteTime < 0 then
    match s.getContentInfo cfg env.recheck id with
    | (s, .ok _) => (s, true)
    | (s, .error _) => (s, false)
  else (s, false)

def addToPack (s : Manager) (id : ID) (data : Str) (isDeleted : Bool) (comp : ℕ)
    (previousWriteTime : ℤ) : Option (Manager × Except ContentErr Unit) :=
  match s.maybeFlushBasedOnTime cfg env with
  | none => none
  | some (s, .error e) => some (s, .error e)
  | some (s, .ok ()) =>
    match maybeCompressAndEncryptDataForPacking cfg env.nonce data id comp with
    | none => some (s, .error .encrypt)
    | some (comp, payload) =>
      match s.recheck cfg env id previousWriteTime with
      | (s, true) => some (s, .ok ())
      | (s, false) =>
        if s.flushing then none
        else match s.appendToPack cfg env id data.length isDeleted comp previousWriteTime payload with
          | (s, .error e) => some (s, .error e)
          | (s, .ok none) => some (s, .ok ())
          | (s, .ok (some pp)) => some (s.writePackAndAddToIndex cfg env pp)

def writeContent (s : Manager) (data pre : Str) (comp : ℕ) :
    Option (Manager × Except ContentErr ID) :=
  if s.flushing then none
  else match s.retryFailedPacks cfg env with
    | (s, .error e) => some (s, .error e)
    | (s, .ok ()) =>
      if !validateSingle pre then some (s, .error .invalidPrefix)
      else match idFromHash pre (cfg.hash data) with
        | none => some (s, .error .invalidHash)
        | some id =>
          match s.getContentInfo cfg env.refresh id with
          | (s, .ok (_, bi)) =>
            if bi.deleted then
              (s.addToPack cfg env id data false comp bi.timestampSeconds).map
                fun r => (r.1, r.2.map fun _ => id)
            else some (s, .ok id)
          | (s, .error _) =>
            (s.addToPack cfg env id data false comp (-1)).map fun r => (r.1, r.2.map fun _ => id)

def rewrite (s : Manager) (id : ID) (onlyRewriteDeleted : Bool) :
    Option (Manager × Except ContentErr Unit) :=
  match s.getContentDataAndInfo cfg env.refresh id with
  | (s, .error e) => some (s, .error e)
  | (s, .ok (data, bi)) =>
    if onlyRewriteDeleted ∧ !bi.deleted then some (s, .ok ())
    else s.addToPack cfg env id data (if onlyRewriteDeleted then false else bi.deleted)
      bi.compressionHeaderID bi.timestampSeconds

def undeleteContent (s : Manager) (id : ID) : Option (Manager × Except ContentErr Unit) :=
  s.rewrite cfg env id true

def rewriteContent (s : Manager) (id : ID) : Option (Manager × Except ContentErr Unit) :=
  s.rewrite cfg env id false

def deletePreexistingContent (s : Manager) (ci : Info) : Manager × Except ContentErr Unit :=
  if ci.deleted then (s, .ok ())
  else match s.getOrCreatePendingPack cfg env (packPrefixForContentID ci.contentID) with
    | none => (s, .error .createPack)
    | some pp =>
      let info := deletedInfo ci (contentWriteTime env.write ci.timestampSeconds)
      (s.setPending { pp with
        currentPackItems := pp.currentPackItems.insert ci.contentID info }, .ok ())

def deleteContent (s : Manager) (id : ID) : Manager × Except ContentErr Unit :=
  match s.pendingList.find? fun pp => (pp.currentPackItems.lookup id).any (!·.deleted) with
  | some pp =>
    (s.setPending { pp with currentPackItems := pp.currentPackItems.erase id }, .ok ())
  | none =>
    match s.writingPacks.findSome? fun pp =>
        (pp.currentPackItems.lookup id).filter (!·.deleted) with
    | some bi => s.deletePreexistingContent cfg env bi
    | none =>
      match s.packIndexBuilder.lookup id with
      | some bi => s.deletePreexistingContent cfg env bi
      | none =>
        match s.maybeRefreshIndexes cfg env.refresh with
        | (s, false) => (s, .error .refresh)
        | (s, true) =>
          match s.committedContent id with
          | none => (s, .error .contentNotFound)
          | some bi => s.deletePreexistingContent cfg env bi

end Write

end Manager

inductive Call where
  | writeContent (data pre : Str) (comp : ℕ)
  | deleteContent (id : ID)
  | undeleteContent (id : ID)
  | rewriteContent (id : ID)
  | flush
  | contentInfo (id : ID)
  | getContent (id : ID)
  deriving DecidableEq

inductive Answer where
  | done
  | written (id : ID)
  | info (i : Info)
  | data (d : Str)
  deriving DecidableEq

def Manager.call (cfg : Config) (s : Manager) (c : Call) (env : Env) :
    Option (Manager × Except ContentErr Answer) :=
  match c with
  | .writeContent data pre comp =>
    (s.writeContent cfg env data pre comp).map fun r => (r.1, r.2.map .written)
  | .deleteContent id => let r := s.deleteContent cfg env id; some (r.1, r.2.map fun _ => .done)
  | .undeleteContent id =>
    (s.undeleteContent cfg env id).map fun r => (r.1, r.2.map fun _ => .done)
  | .rewriteContent id => (s.rewriteContent cfg env id).map fun r => (r.1, r.2.map fun _ => .done)
  | .flush => (s.flush cfg env).map fun r => (r.1, r.2.map fun _ => .done)
  | .contentInfo id =>
    let r := s.getContentInfo cfg env.refresh id
    some (r.1, r.2.map fun x => .info x.2)
  | .getContent id =>
    let r := s.getContentDataAndInfo cfg env.refresh id
    some (r.1, r.2.map fun x => .data x.1)

end Warphold.Content
