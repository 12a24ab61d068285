import Warphold.Snapshot.Rewriter

/-!
# Building directories

An uploader adds the entries of a directory and what failed in it, from several workers and so in any
order, and builds the directory at the end.
-/

namespace Warphold.Rewriting

def maxFailedEntriesPerDirectorySummary : Nat := 10

/-- What sorting may return: the order of equal elements is not determined. -/
structure Sorted {α : Type} (lt : α → α → Bool) (m : Multiset α) where
  list : List α
  perm : (list : Multiset α) = m
  order : list.Pairwise fun a b => lt b a = false

inductive Added where
  | entry (e : DirEntry)
  | failed (relPath : Str) (isIgnoredError : Bool) (err : Str)

structure Builder where
  summary : Summary := {}
  entries : List DirEntry := []

def Builder.addEntry (b : Builder) (de : DirEntry) : Builder :=
  let s := { b.summary with maxModTime := max b.summary.maxModTime de.modTime }
  { entries := b.entries ++ [de]
    summary := match de.type, de.dirSummary with
      | .symlink, _ => { s with totalSymlinkCount := s.totalSymlinkCount + 1 }
      | .file, _ =>
        { s with
          totalFileCount := s.totalFileCount + 1
          totalFileSize := s.totalFileSize + de.fileSize }
      | .directory, some child =>
        { s with
          totalFileCount := s.totalFileCount + child.totalFileCount
          totalFileSize := s.totalFileSize + child.totalFileSize
          totalDirCount := s.totalDirCount + child.totalDirCount
          totalSymlinkCount := s.totalSymlinkCount + child.totalSymlinkCount
          fatalErrorCount := s.fatalErrorCount + child.fatalErrorCount
          ignoredErrorCount := s.ignoredErrorCount + child.ignoredErrorCount
          failedEntries := s.failedEntries + child.failedEntries
          maxModTime := max s.maxModTime child.maxModTime }
      | _, _ => s }

def Builder.addFailedEntry (b : Builder) (relPath : Str) (isIgnoredError : Bool) (err : Str) : Builder :=
  let s := if isIgnoredError then { b.summary with ignoredErrorCount := b.summary.ignoredErrorCount + 1 }
    else { b.summary with fatalErrorCount := b.summary.fatalErrorCount + 1 }
  { b with summary := { s with failedEntries := s.failedEntries + {(relPath, err)} } }

def Builder.add (b : Builder) : Added → Builder
  | .entry de => b.addEntry de
  | .failed relPath isIgnoredError err => b.addFailedEntry relPath isIgnoredError err

def lessEntry (a b : DirEntry) : Bool :=
  if (a.type = .directory) ≠ (b.type = .directory) then a.type = .directory else Strings.lt a.name b.name

def lessFailure (a b : Str × Str) : Bool := Strings.lt a.1 b.1

structure DirManifest where
  summary : Summary
  failedEntries : List (Str × Str)
  entries : List DirEntry

/-- `sortedTopFailures` sorts the array of failures in place, and what it returns is kept in the
builder: the summary that is built was copied before, with all of the array. -/
def Builder.build (b : Builder) (failures : Sorted lessFailure b.summary.failedEntries)
    (entries : Sorted lessEntry b.entries) (dirModTime : Int) (incompleteReason : Str) : DirManifest :=
  let s := { b.summary with totalDirCount := b.summary.totalDirCount + 1, incompleteReason }
  { summary := if b.entries = [] then { s with maxModTime := dirModTime } else s
    failedEntries := failures.list
    entries := entries.list }

end Warphold.Rewriting
