import Warphold.Content.Manager
import Warphold.Lib.Runs

/-!
# Snapshot garbage collection

A run lists the snapshot manifests and loads them, walks the tree of each, and marks as used every
content that an object of the tree is made of. The walk of one tree is shared by any number of
goroutines, so any of its open tasks may take the next step; an object that was met before is not
entered again. Then the run goes over the index: a used content that is deleted is restored, and an
unused one that is old enough is deleted.

A content has at most one entry in the index when a run starts: nothing is pending in the manager.
-/

namespace Warphold.Snapshot

open Content (ID)

structure ObjectID where
  indirection : ℕ
  compression : Bool
  cid : ID
  deriving DecidableEq, Repr

def ObjectID.empty : ObjectID := ⟨0, false, ⟨0, []⟩⟩

def ObjectID.indexObjectID (oid : ObjectID) : Option ObjectID :=
  if 0 < oid.indirection then some { oid with indirection := oid.indirection - 1 } else none

structure DirEntry where
  isDir : Bool
  objectID : ObjectID
  deriving DecidableEq, Repr

/-- What the manifests and objects of a repository say when they can be read. -/
structure Store where
  ids : List Str
  root : Str → DirEntry
  entries : ObjectID → List DirEntry
  seekTable : ObjectID → List ObjectID

structure Entry where
  timestampSeconds : ℤ
  deleted : Bool
  deriving DecidableEq, Repr

abbrev Index := AList fun _ : ID => Entry

namespace Index

def deleteContent (index : Index) (c : ID) (now : ℤ) : Option Index :=
  (index.lookup c).map fun e =>
    if e.deleted then index
    else index.insert c ⟨Content.contentWriteTime now e.timestampSeconds, true⟩

def undeleteContent (index : Index) (c : ID) (now : ℤ) : Option Index :=
  (index.lookup c).map fun e =>
    if e.deleted then index.insert c ⟨Content.contentWriteTime now e.timestampSeconds, false⟩
    else index

end Index

section Objects

variable (st : Store) (index : Index) (fails : ObjectID → Bool)

/-- `iterateBackingContents` with the callback of `VerifyObject`; `fails` are the index objects that
cannot be loaded. -/
def iterateBackingContents : ℕ → ObjectID → List ID → Option (List ID)
  | 0, _, _ => none
  | fuel + 1, oid, tracker =>
    match oid.indexObjectID with
    | some indexObjectID =>
      match iterateBackingContents fuel indexObjectID tracker with
      | none => none
      | some tracker =>
        if fails indexObjectID then none
        else (st.seekTable indexObjectID).foldlM
          (fun tracker m => iterateBackingContents fuel m tracker) tracker
    | none =>
      match index.lookup oid.cid with
      | none => none
      | some _ => some (tracker.insert oid.cid)

def verifyObject (fuel : ℕ) (oid : ObjectID) : Option (List ID) :=
  iterateBackingContents st index fails fuel oid []

end Objects

/-- What a goroutine of the walk is at: an entry, or the rest of a directory. -/
inductive Task where
  | entry (e : DirEntry)
  | dir (e : DirEntry) (rest : List DirEntry)
  deriving DecidableEq, Repr

structure Walker where
  enqueued : List ObjectID
  tasks : List Task
  used : List ID
  numErrors : ℕ
  deriving DecidableEq, Repr

namespace Walker

def start : Walker := ⟨[], [], [], 0⟩

def maxErrors : ℕ := 1

def tooManyErrors (w : Walker) : Bool := maxErrors ≤ w.numErrors

def reportError (w : Walker) : Walker := { w with numErrors := w.numErrors + 1 }

def enqueue (w : Walker) (e : DirEntry) : Walker :=
  if e.objectID ∈ w.enqueued then w
  else { w with enqueued := e.objectID :: w.enqueued, tasks := .entry e :: w.tasks }

def processEntry (st : Store) (w : Walker) (e : DirEntry) (verified : Option (List ID))
    (ok : Bool) : Walker :=
  match verified with
  | none => w.reportError
  | some ids =>
    let w := { w with used := ids ++ w.used }
    if e.isDir then
      if ok then { w with tasks := .dir e (st.entries e.objectID) :: w.tasks } else w.reportError
    else w

def processDirEntry (w : Walker) (e : DirEntry) (rest : List DirEntry) (ok : Bool) : Walker :=
  if !ok then w.reportError
  else match rest with
    | [] => w
    | ent :: rest =>
      if w.tooManyErrors then w
      else { w with tasks := .dir e rest :: w.tasks }.enqueue ent

end Walker

structure Config where
  gcDelete : Bool
  minContentAgeSubjectToGC : ℤ
  maintenanceStartTime : ℤ

inductive Phase where
  | load (todo : List Str) (manifests : List DirEntry)
  | walk (manifests : List DirEntry)
  | sweep (todo : List (Sigma fun _ : ID => Entry))
  | done
  | failed
  deriving DecidableEq

structure GC where
  phase : Phase
  walker : Walker
  index : Index
  unused : ℕ

inductive Action where
  | load (ok : Bool)
  | root
  | task (i fuel : ℕ) (fails : ObjectID → Bool) (ok : Bool)
  | sweep (ok flushOk : Bool) (now : ℤ)
  | flush (ok : Bool)

def contentPrefix : Str := [109]

namespace GC

def fail (s : GC) : GC := { s with phase := .failed }

def stepLoad (st : Store) (s : GC) (ok : Bool) : Option GC :=
  match s.phase with
  | .load [] manifests => some { s with phase := .walk manifests }
  | .load (id :: todo) manifests =>
    some { s with phase := .load todo (if ok then manifests ++ [st.root id] else manifests) }
  | _ => none

/-- The loop of `findInUseContentIDs`: the end of one `Process` and the start of the next. -/
def stepRoot (s : GC) : Option GC :=
  match s.phase with
  | .walk manifests =>
    if s.walker.tasks ≠ [] then none
    else if 0 < s.walker.numErrors then some s.fail
    else match manifests with
      | [] => some { s with phase := .sweep s.index.entries }
      | m :: manifests =>
        if m.objectID = .empty then some s.fail
        else some { s with phase := .walk manifests, walker := s.walker.enqueue m }
  | _ => none

def stepTask (st : Store) (s : GC) (i fuel : ℕ) (fails : ObjectID → Bool) (ok : Bool) : Option GC :=
  match s.phase, s.walker.tasks[i]? with
  | .walk _, some t =>
    let w := { s.walker with tasks := s.walker.tasks.eraseIdx i }
    some { s with walker :=
      match t with
      | .entry e => w.processEntry st e (verifyObject st s.index fails fuel e.objectID) ok
      | .dir e rest => w.processDirEntry e rest ok }
  | _, _ => none

/-- The callback of `findUnreferencedAndRepairRereferenced` on one entry of the index, and whether it
succeeds. -/
def visit (cfg : Config) (s : GC) (c : ID) (ci : Entry) (ok flushOk : Bool) (now : ℤ) : GC × Bool :=
  if c.prefixString = contentPrefix then (s, true)
  else if c ∈ s.walker.used then
    if ci.deleted then
      match if ok then s.index.undeleteContent c now else none with
      | none => (s, false)
      | some index => ({ s with index := index }, true)
    else (s, true)
  else if cfg.maintenanceStartTime - ci.timestampSeconds * 10 ^ 9 < cfg.minContentAgeSubjectToGC then
    (s, true)
  else
    let s := { s with unused := s.unused + 1 }
    if cfg.gcDelete then
      match if ok then s.index.deleteContent c now else none with
      | none => (s, false)
      | some index => ({ s with index := index }, s.unused % 100000 ≠ 0 || flushOk)
    else (s, true)

def stepSweep (cfg : Config) (s : GC) (ok flushOk : Bool) (now : ℤ) : Option GC :=
  match s.phase with
  | .sweep (⟨c, ci⟩ :: todo) =>
    match s.visit cfg c ci ok flushOk now with
    | (s, true) => some { s with phase := .sweep todo }
    | (s, false) => some s.fail
  | _ => none

def stepFlush (cfg : Config) (s : GC) (ok : Bool) : Option GC :=
  match s.phase with
  | .sweep [] =>
    if !ok then some s.fail
    else if 0 < s.unused && !cfg.gcDelete then some s.fail
    else some { s with phase := .done }
  | _ => none

def step (cfg : Config) (st : Store) (s : GC) : Action → Option GC
  | .load ok => s.stepLoad st ok
  | .root => s.stepRoot
  | .task i fuel fails ok => s.stepTask st i fuel fails ok
  | .sweep ok flushOk now => s.stepSweep cfg ok flushOk now
  | .flush ok => s.stepFlush cfg ok

def start (st : Store) (index : Index) : GC := ⟨.load st.ids [], .start, index, 0⟩

end GC

section Purpose

variable (st : Store)

inductive Reachable : DirEntry → Prop where
  | root {id : Str} : id ∈ st.ids → Reachable (st.root id)
  | child {d e : DirEntry} : Reachable d → d.isDir → e ∈ st.entries d.objectID → Reachable e

inductive Touches : ObjectID → ID → Prop where
  | content {oid : ObjectID} : oid.indexObjectID = none → Touches oid oid.cid
  | index {oid i : ObjectID} {c : ID} : oid.indexObjectID = some i → Touches i c → Touches oid c
  | part {oid i m : ObjectID} {c : ID} :
    oid.indexObjectID = some i → m ∈ st.seekTable i → Touches m c → Touches oid c

def Referenced (c : ID) : Prop := ∃ e, Reachable st e ∧ Touches st e.objectID c

/-- What a run that started from the index `before` may leave behind. -/
structure Kept (cfg : Config) (before after : Index) : Prop where
  live : ∀ c, Referenced st c → ∃ e, after.lookup c = some e ∧ e.deleted = false
  deleted : ∀ c e e', before.lookup c = some e → e.deleted = false → after.lookup c = some e' →
    e'.deleted = true → ¬ Referenced st c ∧ c.prefixString ≠ contentPrefix ∧
      cfg.minContentAgeSubjectToGC ≤ cfg.maintenanceStartTime - e.timestampSeconds * 10 ^ 9

end Purpose

end Warphold.Snapshot
