import Warphold.Content.Manager
import Warphold.Lib.Runs

/-!
# The invariants a manager asserts

When invariant checking is on, every release of the lock asserts what `verifyInvariantsLocked` says of
the pending packs and of the unflushed index. The steps are what the calls do while they hold the
lock.
-/

namespace Warphold.Content.Manager

section Verify

variable (cfg : Config) (s : Manager)

def verifyCurrentPackItemsLocked : Bool :=
  s.pendingList.all fun pp => pp.currentPackItems.entries.all fun e =>
    e.2.contentID = e.1 && (e.2.deleted || e.2.packBlobID = pp.packBlobID)
      && e.2.timestampSeconds ≠ 0

def verifyPackIndexBuilderLocked : Bool :=
  s.packIndexBuilder.entries.all fun e =>
    e.2.contentID = e.1
      && (if e.2.deleted then e.2.packBlobID = []
          else e.2.packBlobID ≠ [] && e.2.formatVersion = cfg.version)
      && e.2.timestampSeconds ≠ 0

def verifyInvariantsLocked : Bool :=
  s.verifyCurrentPackItemsLocked && s.verifyPackIndexBuilderLocked cfg

end Verify

inductive Locked where
  | lookup (id : ID) (t : RefreshClock)
  | retry (env : Env)
  | append (id : ID) (length : ℕ) (isDeleted : Bool) (comp : ℕ) (previousWriteTime : ℤ)
    (payload : Str) (env : Env)
  | uploaded (i : ℕ) (env : Env)
  | delete (id : ID) (env : Env)
  | flushBegin (env : Env)
  | flushFinish (env : Env)
  | disableIndexFlush
  | enableIndexFlush

/-- The surroundings of a step; looking up, disabling and enabling have none that matter. -/
def Locked.env : Locked → Option Env
  | .retry env | .append _ _ _ _ _ _ env | .uploaded _ env | .delete _ env | .flushBegin env
  | .flushFinish env => some env
  | _ => none

def locked (cfg : Config) (s : Manager) : Locked → Option Manager
  | .lookup id t => some (s.getContentInfo cfg t id).1
  | .retry env => some (s.retryFailedPacks cfg env).1
  | .append id length isDeleted comp prev payload env =>
    some (s.appendToPack cfg env id length isDeleted comp prev payload).1
  | .uploaded i env => s.writingPacks[i]?.map fun pp => (s.writePackAndAddToIndex cfg env pp).1
  | .delete id env => some (s.deleteContent cfg env id).1
  | .flushBegin env => some (s.flushBegin cfg env).1
  | .flushFinish env => some (s.flushFinish cfg env).1
  | .disableIndexFlush => some { s with disableIndexFlushCount := s.disableIndexFlushCount + 1 }
  | .enableIndexFlush => some { s with disableIndexFlushCount := s.disableIndexFlushCount - 1 }

structure OpenedOn (s : Manager) : Prop where
  pending : ∀ k, s.pendingPacks k = none
  writing : s.writingPacks = []
  failed : s.failedPacks = []
  builder : s.packIndexBuilder = ∅
  indexes : ∀ blob ∈ s.storage.indexBlobs, ∀ i ∈ blob.2, i.packBlobID ≠ []
  merged : ∀ ndx ∈ s.merged, ∀ i ∈ ndx, i.packBlobID ≠ []

def Sound (_ : Manager) (a : Locked) : Prop :=
  ∀ env ∈ a.env, env.packBlobID ≠ [] ∧ 0 < env.write / 10 ^ 9

end Warphold.Content.Manager
