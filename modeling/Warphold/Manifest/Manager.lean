import Warphold.Lib.Strings
import Warphold.Lib.Runs

/-!
# The manifest manager

Manifests live in contents of the repository, each content holding any number of entries. A manager
keeps the entries that are not flushed yet, and the merged entries of the contents it has loaded, from
which those marked as deleted are dropped. Flushing writes the pending entries as one more content;
compaction writes all entries the manager knows as one content and deletes the contents it knows.

A content stands for its id. Each client sees the stored contents of the time it last looked, with
the changes it made since; the changes are stored when its contents are flushed, which may be at any
time, and loading may be followed by a compaction and a flush. Go goes through a map in any order, so
the order of entries and of contents comes with the action.
-/

namespace Warphold.Manifest

abbrev ID := Str

abbrev Labels := List (Str × Str)

structure Entry where
  id : ID
  labels : Labels
  modTime : ℤ
  deleted : Bool
  content : Str
  deriving DecidableEq

abbrev Content := List Entry

instance : LawfulBEq Content := inferInstance

abbrev EntryMap := AList fun _ : ID => Entry

namespace EntryMap

def values (m : EntryMap) : List Entry := m.entries.map (·.2)

def filter (p : Entry → Bool) (m : EntryMap) : EntryMap :=
  ⟨m.entries.filter fun x => p x.2, m.nodupKeys.sublist List.filter_sublist⟩

def mergeEntry (m : EntryMap) (e : Entry) : EntryMap :=
  match m.lookup e.id with
  | none => m.insert e.id e
  | some prev => if prev.modTime < e.modTime then m.insert e.id e else m

/-- `loadManifestContentsLocked`: after merging, entries marked as deleted are removed. -/
def load (contents : List Content) : EntryMap :=
  filter (fun e => !e.deleted) (contents.flatten.foldl mergeEntry ∅)

end EntryMap

def matchesLabels (a b : Labels) : Bool := b.all fun kv => a.lookup kv.1 = some kv.2

def typeLabelKey : Str := str "type"

structure Client where
  pendingEntries : EntryMap
  committedEntries : EntryMap
  committedContentIDs : List Content
  stale : Bool
  /-- The contents the client sees, and what of it is not stored yet. -/
  contents : List Content
  added : List Content
  removed : List Content

namespace Client

def new (stored : List Content) : Client := ⟨∅, ∅, [], true, stored, [], []⟩

variable (cl : Client)

def writeContent (c : Content) : Client :=
  if c ∈ cl.contents then cl
  else { cl with
    contents := c :: cl.contents
    added := c :: cl.added
    stale := true }

def deleteContent (c : Content) : Client :=
  { cl with
    contents := cl.contents.filter (· ≠ c)
    added := cl.added.filter (· ≠ c)
    removed := c :: cl.removed
    stale := true }

/-- `ensureInitializedLocked`; the contents are gone through in the given order. -/
def ensureInitialized (order : List Content) : Client :=
  if cl.stale then
    { cl with committedEntries := .load order, committedContentIDs := order, stale := false }
  else cl

def writeEntries (c : Content) : Client :=
  if c = [] then cl
  else { cl.writeContent c with
    committedEntries := c.foldl (fun m e => m.insert e.id e) cl.committedEntries
    committedContentIDs := cl.committedContentIDs.insert c }

def flush (c : Content) : Client := { cl.writeEntries c with pendingEntries := ∅ }

def compact (c : Content) : Client :=
  if cl.committedContentIDs.length = 1 then cl
  else
    let old := cl.committedContentIDs.filter (· ≠ c)
    { old.foldl deleteContent (cl.writeEntries c) with
      committedContentIDs := (cl.writeEntries c).committedContentIDs.filter (· ∉ old) }

def flushed : Client :=
  { cl with
    added := []
    removed := []
    stale := cl.stale || !(cl.added.isEmpty && cl.removed.isEmpty) }

def put (id : ID) (now : ℤ) (labels : Labels) (content : Str) : Client :=
  { cl with pendingEntries := cl.pendingEntries.insert id ⟨id, labels, now, false, content⟩ }

def delete (id : ID) (now : ℤ) : Client :=
  if (cl.pendingEntries.lookup id).isNone ∧ (cl.committedEntries.lookup id).isNone then cl
  else { cl with pendingEntries := cl.pendingEntries.insert id ⟨id, [], now, true, []⟩ }

def get (id : ID) : Option Entry :=
  ((cl.pendingEntries.lookup id).or (cl.committedEntries.lookup id)).filter fun e => !e.deleted

def find (labels : Labels) : List Entry :=
  cl.pendingEntries.values.filter (fun e => matchesLabels e.labels labels)
    ++ cl.committedEntries.values.filter fun e =>
      matchesLabels e.labels labels && (cl.pendingEntries.lookup e.id).isNone

end Client

structure World where
  now : ℕ → ℤ
  stored : List Content
  clients : ℕ → Client

inductive ManifestAction where
  | tick (c d : ℕ)
  | refresh (c : ℕ)
  | load (c : ℕ) (order : List Content)
  | put (c : ℕ) (id : ID) (labels : Labels) (content : Str)
  | delete (c : ℕ) (id : ID) (order : List Content)
  | flush (c : ℕ) (entries : Content)
  | compact (c : ℕ) (entries : Content)
  | flushContents (c : ℕ)
  | reopen (c : ℕ)
  deriving DecidableEq

namespace World

variable (w : World)

def setClient (c : ℕ) (cl : Client) : World := { w with clients := Function.update w.clients c cl }

def applied (cl : Client) : List Content :=
  cl.added ++ w.stored.filter fun c => c ∉ cl.removed ∧ c ∉ cl.added

def step : ManifestAction → Option World
  | .tick c d => some { w with now := Function.update w.now c (w.now c + d) }
  | .refresh c =>
    some (w.setClient c { w.clients c with
      contents := w.applied (w.clients c)
      stale := (w.clients c).stale || !(w.applied (w.clients c)).Perm (w.clients c).contents })
  | .load c order =>
    if order.Perm (w.clients c).contents then
      some (w.setClient c ((w.clients c).ensureInitialized order))
    else none
  | .put c id labels content =>
    if labels.lookup typeLabelKey = none ∨ labels.lookup typeLabelKey = some [] then none
    else some (w.setClient c ((w.clients c).put id (w.now c) labels content))
  | .delete c id order =>
    if order.Perm (w.clients c).contents then
      some (w.setClient c (((w.clients c).ensureInitialized order).delete id (w.now c)))
    else none
  | .flush c entries =>
    if entries.Perm (w.clients c).pendingEntries.values then
      some (w.setClient c ((w.clients c).flush entries))
    else none
  | .compact c entries =>
    if entries.Perm (w.clients c).committedEntries.values then
      some (w.setClient c ((w.clients c).compact entries))
    else none
  | .flushContents c =>
    some { w.setClient c (w.clients c).flushed with stored := w.applied (w.clients c) }
  | .reopen c => some (w.setClient c (.new w.stored))

def empty (now : ℕ → ℤ) : World := ⟨now, [], fun _ => .new []⟩

end World

end Warphold.Manifest
