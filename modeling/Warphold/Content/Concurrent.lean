import Warphold.Content.Manager
import Warphold.Lib.Runs

/-!
# Concurrent writes and flushes

Any number of goroutines call `WriteContent`, `DeleteContent` and `Flush` on one manager. Each step is
what a call does while it holds the lock: finding that a content is there, appending to a pack,
learning what came of an upload, starting a flush, and finishing it. Packs are uploaded without the
lock, and a flush waits without it until no pack is being written.

`written` are the contents whose write has returned success and that were not deleted since, a flush
that waits carries those it found, and `flushed` are the ones flushes have answered for.
-/

namespace Warphold.Content

structure Shared where
  mgr : Manager
  written : List ID
  flushers : List (List ID)
  flushed : List ID

namespace Shared

inductive Action where
  | found (id : ID) (t : RefreshClock)
  | retry (env : Env)
  | append (id : ID) (data : Str) (comp : ℕ) (previousWriteTime : ℤ) (env : Env)
  /-- The upload of a pack ends, and with it the write of the content that filled it. -/
  | uploaded (i : ℕ) (id : ID) (env : Env)
  | delete (id : ID) (env : Env)
  | flush (env : Env)
  | finish (i : ℕ) (env : Env)

def Fresh (s : Manager) (name : Str) : Prop :=
  name ∉ (s.pendingList ++ s.writingPacks ++ s.failedPacks).map (·.packBlobID)

instance (s : Manager) (name : Str) : Decidable (Fresh s name) := by
  unfold Fresh
  infer_instance

def forget (s : Shared) (id : ID) : Shared :=
  { s with
    written := s.written.filter (· ≠ id)
    flushers := s.flushers.map (·.filter (· ≠ id)) }

variable (cfg : Config)

def stepFound (s : Shared) (id : ID) (t : RefreshClock) : Shared :=
  match s.mgr.getContentInfo cfg t id with
  | (mgr, .ok _) => { s with mgr, written := id :: s.written }
  | (mgr, .error _) => { s with mgr }

def stepRetry (s : Shared) (env : Env) : Option Shared :=
  if s.mgr.flushing then none else some { s with mgr := (s.mgr.retryFailedPacks cfg env).1 }

def stepAppend (s : Shared) (id : ID) (data : Str) (comp : ℕ) (previousWriteTime : ℤ) (env : Env) :
    Option Shared :=
  if s.mgr.flushing ∨ ¬ Fresh s.mgr env.packBlobID then none
  else match maybeCompressAndEncryptDataForPacking cfg env.nonce data id comp with
    | none => none
    | some (comp, payload) =>
      match s.mgr.appendToPack cfg env id data.length false comp previousWriteTime payload with
      | (mgr, .ok none) => some { s with mgr, written := id :: s.written }
      | (mgr, _) => some { s with mgr }

def stepUploaded (s : Shared) (i : ℕ) (id : ID) (env : Env) : Option Shared :=
  match s.mgr.writingPacks[i]? with
  | none => none
  | some pp =>
    if (pp.currentPackItems.lookup id).isNone then none
    else match s.mgr.writePackAndAddToIndex cfg env pp with
      | (mgr, .ok ()) => some { s with mgr, written := id :: s.written }
      | (mgr, .error _) => some { s with mgr }

def stepDelete (s : Shared) (id : ID) (env : Env) : Option Shared :=
  if ¬ Fresh s.mgr env.packBlobID then none
  else match s.mgr.deleteContent cfg env id with
    | (mgr, .ok ()) => some ({ s with mgr }.forget id)
    | (mgr, .error _) => some { s with mgr }

def stepFlush (s : Shared) (env : Env) : Shared :=
  match s.mgr.flushBegin cfg env with
  | (mgr, .ok ()) => { s with mgr, flushers := s.flushers ++ [s.written] }
  | (mgr, .error _) => { s with mgr }

def stepFinish (s : Shared) (i : ℕ) (env : Env) : Option Shared :=
  match s.flushers[i]? with
  | none => none
  | some owed =>
    if s.mgr.writingPacks ≠ [] then none
    else
      let s := { s with flushers := s.flushers.eraseIdx i }
      match s.mgr.flushFinish cfg env with
      | (mgr, .ok ()) => some { s with mgr, flushed := owed ++ s.flushed }
      | (mgr, .error _) => some { s with mgr }

def step (s : Shared) : Action → Option Shared
  | .found id t => some (s.stepFound cfg id t)
  | .retry env => s.stepRetry cfg env
  | .append id data comp prev env => s.stepAppend cfg id data comp prev env
  | .uploaded i id env => s.stepUploaded cfg i id env
  | .delete id env => s.stepDelete cfg id env
  | .flush env => some (s.stepFlush cfg env)
  | .finish i env => s.stepFinish cfg i env

/-- A manager that was opened on a repository whose index entries refer to packs that are there. -/
structure Opened (s : Shared) : Prop where
  pending : ∀ k, s.mgr.pendingPacks k = none
  writing : s.mgr.writingPacks = []
  failed : s.mgr.failedPacks = []
  builder : s.mgr.packIndexBuilder = ∅
  enabled : s.mgr.disableIndexFlushCount ≤ 0
  indexes : ∀ blob ∈ s.mgr.storage.indexBlobs, ∀ i ∈ blob.2,
    i.packBlobID ∈ s.mgr.storage.packs.map (·.1)
  merged : ∀ ndx ∈ s.mgr.merged, ∀ i ∈ ndx, ∃ blob ∈ s.mgr.storage.indexBlobs, ∃ j ∈ blob.2,
    j.contentID = i.contentID ∧ j.packBlobID = i.packBlobID
  written : s.written = []
  flushers : s.flushers = []
  flushed : s.flushed = []

def Durable (st : Storage) (c : ID) : Prop :=
  ∃ blob ∈ st.indexBlobs, ∃ i ∈ blob.2, i.contentID = c ∧ i.packBlobID ∈ st.packs.map (·.1)

def NoneFailed (s : Shared) : Action → Prop
  | .finish _ _ => s.mgr.failedPacks = []
  | _ => True

instance (s : Shared) (a : Action) : Decidable (NoneFailed s a) := by
  cases a <;> simp only [NoneFailed] <;> infer_instance

end Shared

end Warphold.Content
