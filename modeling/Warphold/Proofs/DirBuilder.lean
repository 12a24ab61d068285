import Warphold.Snapshot.DirBuilder

/-!
# What a directory is built with

Each addition adds its part to the summary (`add_summary`), which is the sum of the parts in the end.
-/

namespace Warphold.Rewriting

open List Builder

def Added.part : Added → Summary
  | .entry e => contribution e
  | .failed relPath true err => { ignoredErrorCount := 1, failedEntries := {(relPath, err)} }
  | .failed relPath false err => { fatalErrorCount := 1, failedEntries := {(relPath, err)} }

def Added.entry? : Added → Option DirEntry
  | .entry e => some e
  | .failed .. => none

def Summary.add (s t : Summary) : Summary where
  totalFileSize := s.totalFileSize + t.totalFileSize
  totalFileCount := s.totalFileCount + t.totalFileCount
  totalSymlinkCount := s.totalSymlinkCount + t.totalSymlinkCount
  totalDirCount := s.totalDirCount + t.totalDirCount
  maxModTime := max s.maxModTime t.maxModTime
  incompleteReason := s.incompleteReason
  fatalErrorCount := s.fatalErrorCount + t.fatalErrorCount
  ignoredErrorCount := s.ignoredErrorCount + t.ignoredErrorCount
  failedEntries := s.failedEntries + t.failedEntries

/-- The summary of a directory, from the parts of all that was added to it. -/
def aggregate (dirModTime : Int) (incompleteReason : Str) (as : List Added) : Summary :=
  let s := (as.map Added.part).foldl Summary.add {}
  { s with
    totalDirCount := s.totalDirCount + 1
    maxModTime := if as.filterMap Added.entry? = [] then dirModTime else s.maxModTime
    incompleteReason }

lemma add_summary (b : Builder) (a : Added) (h : 0 ≤ b.summary.maxModTime) :
    (b.add a).summary = b.summary.add a.part := by
  rcases a with ⟨name, _ | _ | _ | _, modTime, size, oid, _ | child⟩ | ⟨path, _ | _, err⟩ <;>
    simp [add, addEntry, addFailedEntry, Added.part, contribution, Summary.add,
      max_assoc, h]

lemma foldl_summary : ∀ (as : List Added) (b : Builder), 0 ≤ b.summary.maxModTime →
    (as.foldl add b).summary = (as.map Added.part).foldl Summary.add b.summary
  | [], b, _ => rfl
  | a :: as, b, h => by
    have ha := add_summary b a h
    rw [foldl_cons, foldl_summary as _ (ha ▸ le_max_of_le_left h), ha]
    rfl

lemma foldl_entries : ∀ (as : List Added) (b : Builder),
    (as.foldl add b).entries = b.entries ++ as.filterMap Added.entry?
  | [], b => by simp
  | a :: as, b => by
    rw [foldl_cons, foldl_entries as]
    cases a with
    | entry e => simp [add, addEntry, Added.entry?]
    | failed => rfl

def builder (as : List Added) : Builder := as.foldl Builder.add {}

lemma build_summary (as : List Added) {failures : Sorted lessFailure (builder as).summary.failedEntries}
    {entries : Sorted lessEntry (builder as).entries} (dirModTime : Int) (incompleteReason : Str) :
    ((builder as).build failures entries dirModTime incompleteReason).summary
      = aggregate dirModTime incompleteReason as := by
  have hentries : (builder as).entries = as.filterMap Added.entry? := foldl_entries as {}
  have hsummary : (builder as).summary = _ := foldl_summary as {} (le_refl 0)
  simp only [build, aggregate, hentries, hsummary]
  split_ifs <;> rfl

/-- Eleven failures. -/
def elevenFailures : List Added := List.replicate 11 (.failed (str "f") false (str "e"))

end Warphold.Rewriting
