import Warphold.Lib.Strings

/-!
# Rewriting directories

A rewriter replaces the entries of a snapshot tree by what a callback makes of them, and rewrites the
directories among them in turn. The entries of a directory are rewritten one after the other by the
caller, or handed to a pool of workers when one is free and collected at the end. A schedule decides
which; workers share nothing but a cache of results by entry. A cached result is one that a rewrite of
the same entry has returned, so a rewrite answered from the cache returns what some rewrite of the entry
returns, and the cache adds no outcome (the hash that the cache is keyed by tells entries apart).

`Rewrites share e o` says that rewriting `e` can end with `o`: when `share` holds, entries may be handed
to workers, and otherwise everything is done in the caller. A directory is written with its entries
sorted by kind and name; entries of one kind and name are in no particular order here.
-/

namespace Warphold.Rewriting

inductive EntryType where
  | file
  | directory
  | symlink
  | other
deriving DecidableEq

structure Summary where
  totalFileSize : Int := 0
  totalFileCount : Int := 0
  totalSymlinkCount : Int := 0
  totalDirCount : Int := 0
  maxModTime : Int := 0
  incompleteReason : Str := []
  fatalErrorCount : Int := 0
  ignoredErrorCount : Int := 0
  failedEntries : Multiset (Str × Str) := 0
deriving DecidableEq

structure DirEntry where
  name : Str
  type : EntryType
  modTime : Int := 0
  fileSize : Int := 0
  objectID : Str := []
  dirSummary : Option Summary := none
deriving DecidableEq

/-- The callbacks and the repository. A callback returns an entry or none, and possibly an error. -/
structure Rewriter where
  rewriteEntry : DirEntry → Option DirEntry × Bool
  onDirectoryReadFailure : DirEntry → Option DirEntry × Bool
  readDirEntries : Str → Option (List DirEntry)
  writeDirManifest : Summary → Multiset DirEntry → Option Str

inductive Outcome where
  | replaced (e : DirEntry)
  | removed
  | failed
  | panicked
deriving DecidableEq

inductive Listing where
  | kept (entries : Multiset DirEntry)
  | failed
  | panicked

section Builder

def contribution (e : DirEntry) : Summary :=
  match e.type, e.dirSummary with
  | .symlink, _ => { totalSymlinkCount := 1, maxModTime := e.modTime }
  | .file, _ => { totalFileCount := 1, totalFileSize := e.fileSize, maxModTime := e.modTime }
  | .directory, some s => { s with maxModTime := max e.modTime s.maxModTime }
  | _, _ => { maxModTime := e.modTime }

/-- The list of failed entries is cut short only in the builder's own copy of the summary. -/
def buildSummary (dirModTime : Int) (incompleteReason : Str) (entries : Multiset DirEntry) : Summary :=
  let parts := entries.map contribution
  { totalFileSize := (parts.map Summary.totalFileSize).sum
    totalFileCount := (parts.map Summary.totalFileCount).sum
    totalSymlinkCount := (parts.map Summary.totalSymlinkCount).sum
    totalDirCount := (parts.map Summary.totalDirCount).sum + 1
    maxModTime := if entries = 0 then dirModTime else (parts.map Summary.maxModTime).fold max 0
    incompleteReason
    fatalErrorCount := (parts.map Summary.fatalErrorCount).sum
    ignoredErrorCount := (parts.map Summary.ignoredErrorCount).sum
    failedEntries := (parts.map Summary.failedEntries).sum }

end Builder

variable (rw : Rewriter)

/-- Build and write the directory `d` with what is kept of it. Its old summary is read for the reason
it is incomplete, which a directory without one does not survive. -/
def Rewriter.finish (d : DirEntry) : Listing → Outcome
  | .failed => .failed
  | .panicked => .panicked
  | .kept entries =>
    match d.dirSummary with
    | none => .panicked
    | some s =>
      let summary := buildSummary d.modTime s.incompleteReason entries
      match rw.writeDirManifest summary entries with
      | none => .failed
      | some oid => .replaced { d with dirSummary := some summary, objectID := oid }

def ofCallback : Option DirEntry × Bool → Outcome
  | (some e, _) => .replaced e
  | (none, true) => .failed
  | (none, false) => .removed

def Listing.addInline (o : Outcome) (rest : Listing) : Listing :=
  match o with
  | .failed => .failed
  | .panicked => .panicked
  | .removed => rest
  | .replaced e =>
    match rest with
    | .kept entries => .kept (e ::ₘ entries)
    | rest => rest

/-- An entry rewritten by a worker: its result is added if there is one, its error is not looked at. -/
def Listing.addShared (o : Outcome) (rest : Listing) : Listing :=
  match o with
  | .failed => rest
  | .panicked => .panicked
  | .removed => rest
  | .replaced e =>
    match rest with
    | .kept entries => .kept (e ::ₘ entries)
    | rest => rest

mutual

inductive Rewrites (share : Bool) : DirEntry → Outcome → Prop where
  | dropped {e : DirEntry} {err : Bool} : rw.rewriteEntry e = (none, err) →
      Rewrites share e (ofCallback (none, err))
  | leaf {e d : DirEntry} {err : Bool} : rw.rewriteEntry e = (some d, err) → d.type ≠ .directory →
      Rewrites share e (.replaced d)
  | unreadable {e d : DirEntry} {err : Bool} : rw.rewriteEntry e = (some d, err) →
      d.type = .directory → rw.readDirEntries d.objectID = none →
      Rewrites share e (ofCallback (rw.onDirectoryReadFailure d))
  | directory {e d : DirEntry} {err : Bool} {entries : List DirEntry} {l : Listing} :
      rw.rewriteEntry e = (some d, err) → d.type = .directory →
      rw.readDirEntries d.objectID = some entries → Lists share entries l →
      Rewrites share e (rw.finish d l)

inductive Lists (share : Bool) : List DirEntry → Listing → Prop where
  | nil : Lists share [] (.kept 0)
  | inline {c : DirEntry} {rest : List DirEntry} {o : Outcome} {l : Listing} :
      Rewrites share c o → o ≠ .failed → o ≠ .panicked → Lists share rest l →
      Lists share (c :: rest) (l.addInline o)
  | inlineStops {c : DirEntry} {rest : List DirEntry} {o : Outcome} :
      Rewrites share c o → o = .failed ∨ o = .panicked →
      Lists share (c :: rest) (Listing.addInline o (.kept 0))
  | shared {c : DirEntry} {rest : List DirEntry} {o : Outcome} {l : Listing} : share = true →
      Rewrites share c o → Lists share rest l → Lists share (c :: rest) (l.addShared o)

end

inductive ManifestOutcome where
  | done (rootEntry : Option DirEntry) (changed : Bool)
  | failed
  | panicked
deriving DecidableEq

/-- What becomes of a snapshot with root entry `root` when its rewrite ends with an outcome. -/
def Rewriter.rewriteSnapshotManifest (root : DirEntry) : Outcome → ManifestOutcome
  | .failed => .failed
  | .panicked => .panicked
  | .replaced e => .done (some e) (decide (e ≠ root))
  | .removed =>
    match rw.onDirectoryReadFailure root with
    | (_, true) => .failed
    | (e, false) => .done e (decide (e ≠ some root))

end Warphold.Rewriting
