import Warphold.Content.Manager
import Warphold.Content.Merged

/-!
# Going over contents and packs

`IterateContents` gives the entries no flush has written yet, then those of the indexes in use.
`IteratePacks` counts the entries by pack, and `IterateUnreferencedPacks` lists the pack blobs that
none of them is in.

Every index sends its entries over a channel from a goroutine of its own. One that cannot be read on
closes its channel early, and the error of the goroutine is dropped.
-/

namespace Warphold.Content

structure Source where
  shard : Shard
  stops : Option ℕ
  deriving DecidableEq

def Source.delivered (x : Source) : Shard :=
  match x.stops with
  | none => x.shard
  | some n => ⟨x.shard.entries.take n, x.shard.sorted.sublist (List.take_sublist n _)⟩

structure IterateOptions where
  range : IDRange
  includeDeleted : Bool
  deriving DecidableEq

def IterateOptions.withDefaults (opts : IterateOptions) : IterateOptions :=
  if opts.range = ⟨[], []⟩ then { opts with range := .allIDs } else opts

structure IteratePackOptions where
  includePacksWithOnlyDeletedContent : Bool
  prefixes : List Str

def IteratePackOptions.matchesBlob (o : IteratePackOptions) (id : Str) : Bool :=
  if o.prefixes = [] then true else o.prefixes.any fun p => Strings.hasPrefix id p

structure PackInfo where
  contentCount : ℕ
  totalSize : ℕ
  deriving DecidableEq

def packBlobIDPrefixes : List Str := [[112], [113]]

def hexDigit (n : ℕ) : UInt8 := if n < 10 then 48 + .ofNat n else 87 + .ofNat n

namespace Manager

section Contents

variable {σ ε : Type} (cb : σ → Info → Except ε σ)

def snapshotUncommittedItems (s : Manager) : Builder :=
  (s.packIndexBuilder.addAll (s.pendingList.flatMap fun pp => pp.currentPackItems.infos)).addAll
    (s.writingPacks.flatMap fun pp => pp.currentPackItems.infos)

def listContents (sources : List Source) (deletionWatermark : ℤ) (r : IDRange) (a : σ) :
    Except ε σ :=
  Merged.iterate (fun a i => if shouldIgnore i deletionWatermark then .ok a else cb a i)
    (sources.map Source.delivered) r a

def invokeCallback (opts : IterateOptions) (uncommitted : Builder) (a : σ) (i : Info) :
    Except ε σ :=
  let deleted := match uncommitted.lookup i.contentID with
    | some ci => ci.deleted
    | none => i.deleted
  if !opts.includeDeleted && deleted then .ok a
  else if !opts.range.contains i.contentID then .ok a
  else cb a i

/-- The errors of the callback for entries that are not committed are ignored. -/
def overUncommitted (cb : σ → Info → Except ε σ) (uncommitted : Builder) (a : σ) : σ :=
  uncommitted.infos.foldl (fun a i => (cb a i).toOption.getD a) a

/-- `IterateContents` with one worker: the outer `none` is a refresh that fails. -/
def iterateContents (cfg : Config) (t : RefreshClock) (s : Manager) (sources : List Source)
    (opts : IterateOptions) (a : σ) : Option (Except ε σ) :=
  let opts := opts.withDefaults
  let uncommitted := s.snapshotUncommittedItems
  let callback :=
    if uncommitted.infos = [] ∧ opts.includeDeleted ∧ opts.range = .allIDs then cb
    else invokeCallback cb opts uncommitted
  let a := overUncommitted callback uncommitted a
  match s.maybeRefreshIndexes cfg t with
  | (_, false) => none
  | (s, true) => some (listContents callback sources s.deletionWatermark opts.range a)

end Contents

section Packs

abbrev PackUsage := AList fun _ : Str => PackInfo

def countPack (o : IteratePackOptions) (usage : PackUsage) (ci : Info) :
    Except Empty PackUsage :=
  if !o.matchesBlob ci.packBlobID then .ok usage
  else
    let pi := (usage.lookup ci.packBlobID).getD ⟨0, 0⟩
    .ok (usage.insert ci.packBlobID ⟨pi.contentCount + 1, pi.totalSize + ci.packedLength⟩)

def iteratePacks (cfg : Config) (t : RefreshClock) (s : Manager) (sources : List Source)
    (o : IteratePackOptions) : Option PackUsage :=
  match s.iterateContents (countPack o) cfg t sources
      ⟨⟨[], []⟩, o.includePacksWithOnlyDeletedContent⟩ ∅ with
  | some (.ok usage) => some usage
  | _ => none

/-- The prefixes to list: with more workers than prefixes, each with every digit after it. -/
def scanPrefixes (blobPrefixes : List Str) (parallelism : ℕ) : List Str :=
  let blobPrefixes := if blobPrefixes = [] then packBlobIDPrefixes else blobPrefixes
  if parallelism ≤ blobPrefixes.length then blobPrefixes
  else blobPrefixes.flatMap fun p => (List.range 16).map fun n => p ++ [hexDigit n]

def listBlobs (fails : Str → Bool) (blobs : List Str) (p : Str) : Option (List Str) :=
  if fails p then none else some (blobs.filter fun b => Strings.hasPrefix b p)

def iterateUnreferencedPacks (cfg : Config) (t : RefreshClock) (s : Manager)
    (sources : List Source) (fails : Str → Bool) (blobs blobPrefixes : List Str)
    (parallelism : ℕ) : Option (List Str) :=
  match s.iteratePacks cfg t sources ⟨true, blobPrefixes⟩ with
  | none => none
  | some usage =>
    let usedPacks := (usage.entries.filter fun e => 0 < e.2.contentCount).map (·.1)
    match (scanPrefixes blobPrefixes parallelism).mapM (listBlobs fails blobs) with
    | none => none
    | some listed => some (listed.flatten.filter fun b => b ∉ usedPacks)

end Packs

end Manager

end Warphold.Content
