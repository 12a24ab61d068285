import Warphold.Lib.Strings
import Warphold.Lib.Runs

/-!
# The upgrade lock and the format blob

A client that upgrades the repository first writes a backup of the format blob under its own name and
then the format blob with a lock in it. Committing removes the lock, rolling back puts the oldest
backup in place. Other clients load the format blob at intervals and hold back their operations once
they see the lock.

Times are nanoseconds since the zero time and durations are nanoseconds, which wrap around at 64 bits
as Go's do.
-/

namespace Warphold.Upgrade

def wrap64 (d : ℤ) : ℤ := (d + 2 ^ 63) % 2 ^ 64 - 2 ^ 63

structure UpgradeLockIntent where
  ownerID : Str
  creationTime : ℤ
  advanceNoticeDuration : ℤ
  ioDrainTimeout : ℤ
  statusPollInterval : ℤ
  message : Str
  maxPermittedClockDrift : ℤ
  deriving DecidableEq

inductive LockErr where
  | noOwner
  | noCreationTime
  | noDrainTimeout
  | pollInterval
  | noMessage
  | noClockDrift
  | negativeNotice
  | shortNotice
  | notOwner
  | noticeOnExisting
  | unsetNotice
  | earlierUpgrade
  | upToDate
  | noUpgrade
  deriving DecidableEq, Repr

namespace UpgradeLockIntent

variable (l : UpgradeLockIntent)

def totalDrainInterval : ℤ := wrap64 (l.maxPermittedClockDrift + wrap64 (2 * l.ioDrainTimeout))

def upgradeTime : ℤ :=
  if l.advanceNoticeDuration > l.totalDrainInterval then l.creationTime + l.advanceNoticeDuration
  else l.creationTime + l.totalDrainInterval

def isLocked (now : ℤ) : Bool :=
  l.advanceNoticeDuration < l.totalDrainInterval
    || !(now < l.creationTime + wrap64 (l.advanceNoticeDuration - l.totalDrainInterval))

def validate : Except LockErr Unit :=
  if l.ownerID = [] then .error .noOwner
  else if l.creationTime = 0 then .error .noCreationTime
  else if l.ioDrainTimeout ≤ 0 then .error .noDrainTimeout
  else if l.statusPollInterval > l.ioDrainTimeout then .error .pollInterval
  else if l.message = [] then .error .noMessage
  else if l.maxPermittedClockDrift ≤ 0 then .error .noClockDrift
  else if l.advanceNoticeDuration ≠ 0 then
    if l.advanceNoticeDuration < 0 then .error .negativeNotice
    else if l.advanceNoticeDuration ≤ l.totalDrainInterval then .error .shortNotice
    else .ok ()
  else .ok ()

def update (other : UpgradeLockIntent) : Except LockErr UpgradeLockIntent :=
  if l.ownerID ≠ other.ownerID then .error .notOwner
  else if l.advanceNoticeDuration = 0 then
    if other.advanceNoticeDuration ≠ 0 then .error .noticeOnExisting
    else .ok { l with advanceNoticeDuration := other.advanceNoticeDuration }
  else if other.advanceNoticeDuration = 0 then .error .unsetNotice
  else if other.upgradeTime < l.upgradeTime then .error .earlierUpgrade
  else .ok { l with advanceNoticeDuration := other.advanceNoticeDuration }

end UpgradeLockIntent

/-- The configuration, with all that upgrades leave alone in `rest`. -/
structure RepositoryConfig (ρ : Type) where
  version : ℤ
  upgradeLock : Option UpgradeLockIntent
  rest : ρ
  deriving DecidableEq

structure FormatBlob (ρ : Type) where
  config : RepositoryConfig ρ
  nonce : Str
  deriving DecidableEq

def maxFormatVersion : ℤ := 3

structure Manager (ρ : Type) where
  j : FormatBlob ρ
  repoConfig : RepositoryConfig ρ
  deriving DecidableEq

def Manager.loaded {ρ : Type} (b : FormatBlob ρ) : Manager ρ := ⟨b, b.config⟩

structure Backup (ρ : Type) where
  ownerID : Str
  blob : FormatBlob ρ
  timestamp : ℤ
  deriving DecidableEq

structure Storage (ρ : Type) where
  repository : FormatBlob ρ
  backups : List (Backup ρ)
  deriving DecidableEq

/-- A write to the storage. Those of other blobs change nothing here, but may fail. -/
inductive Write (ρ : Type) where
  | putRepository (b : FormatBlob ρ)
  | putBackup (b : Backup ρ)
  | deleteBackup (ownerID : Str)
  | putBlobCfg

section Operations

variable {ρ : Type}

def Storage.write (st : Storage ρ) : Write ρ → Storage ρ
  | .putRepository b => { st with repository := b }
  | .putBackup b => { st with backups := b :: st.backups.filter (·.ownerID ≠ b.ownerID) }
  | .deleteBackup ownerID => { st with backups := st.backups.filter (·.ownerID ≠ ownerID) }
  | .putBlobCfg => st

/-- What an operation does: its writes in order, each with the manager it leaves if the write fails,
and the manager in the end. -/
structure Attempt (ρ : Type) where
  writes : List (Write ρ × Manager ρ)
  final : Manager ρ

namespace Manager

variable (m : Manager ρ)

def updateRepoConfig (config : RepositoryConfig ρ) (nonce : Str) : Attempt ρ :=
  ⟨[(.putRepository ⟨config, nonce⟩, .loaded ⟨config, nonce⟩)], .loaded ⟨config, nonce⟩⟩

def setUpgradeLockIntent (l : UpgradeLockIntent) (nonce : Str) (time : ℤ) :
    Except LockErr (Attempt ρ) := do
  l.validate
  match m.repoConfig.upgradeLock with
  | none =>
    if m.repoConfig.version ≥ maxFormatVersion then .error .upToDate
    else
      let update := updateRepoConfig
        { m.repoConfig with upgradeLock := some l, version := maxFormatVersion } nonce
      .ok { update with writes := (.putBackup ⟨l.ownerID, m.j, time⟩, m) :: update.writes }
  | some old =>
    let l' ← old.update l
    .ok (updateRepoConfig { m.repoConfig with upgradeLock := some l' } nonce)

/-- `CommitUpgrade`; that the poison blob is not written is only logged. -/
def commitUpgrade (nonce : Str) : Except LockErr (Attempt ρ) :=
  if m.repoConfig.upgradeLock = none then .error .noUpgrade
  else .ok (updateRepoConfig { m.repoConfig with upgradeLock := none } nonce)

/-- The backup that is restored and the owners of those that are deleted, as the listing goes on. -/
def selectBackup : List (Backup ρ) → Option (Backup ρ) → List Str → Option (Backup ρ) × List Str
  | [], oldest, deleted => (oldest, deleted)
  | b :: bs, none, deleted => selectBackup bs (some b) deleted
  | b :: bs, some oldest, deleted =>
    if b.timestamp < oldest.timestamp then selectBackup bs (some b) (deleted ++ [oldest.ownerID])
    else selectBackup bs (some oldest) (deleted ++ [b.ownerID])

def rollbackUpgrade (listed : List (Backup ρ)) : Except LockErr (Attempt ρ) :=
  if m.repoConfig.upgradeLock = none then .error .noUpgrade
  else
    let (oldest, deleted) := selectBackup listed none []
    .ok ⟨deleted.map (fun ownerID => (.deleteBackup ownerID, m))
      ++ match oldest with
        | none => []
        | some b => [(.putRepository b.blob, m), (.deleteBackup b.ownerID, m)], m⟩

/-- `SetParameters`: the version is among the parameters and is not checked. -/
def setParameters (version : ℤ) (rest : ρ) (nonce : Str) : Attempt ρ :=
  let update := updateRepoConfig { m.repoConfig with version := version, rest := rest } nonce
  { update with writes := (.putBlobCfg, update.final) :: update.writes }

end Manager

/-- How a client comes by the format before an operation: what it has is still valid, or it reads its
disk cache, or the storage. -/
inductive Refresh where
  | valid
  | cached
  | stored
  deriving DecidableEq

/-- How an operation ends: with all its writes, or at a write that fails or does not happen since the
process dies. -/
inductive Fate where
  | complete
  | fails (done : ℕ)
  | dies (done : ℕ)
  deriving DecidableEq

structure Client (ρ : Type) where
  manager : Option (Manager ρ)
  cache : Option (FormatBlob ρ)
  deriving DecidableEq

/-- The storage, the clients, and the format that was in place before the lock, while there is one. -/
structure World (ρ : Type) where
  storage : Storage ρ
  clients : ℕ → Client ρ
  before : Option (FormatBlob ρ)

inductive UpgradeOp (ρ : Type) where
  | setLock (l : UpgradeLockIntent) (nonce : Str) (time : ℤ)
  | commit (nonce : Str)
  | rollback (listed : List (Backup ρ))
  | setParameters (version : ℤ) (rest : ρ) (nonce : Str)
  deriving DecidableEq

inductive UpgradeAction (ρ : Type) where
  | connect (c : ℕ) (refresh : Refresh)
  | run (c : ℕ) (refresh : Refresh) (op : UpgradeOp ρ) (fate : Fate)
  deriving DecidableEq

def Client.refresh (cl : Client ρ) (st : Storage ρ) : Refresh → Option (Client ρ)
  | .valid => if cl.manager.isSome then some cl else none
  | .cached => cl.cache.map fun b => { cl with manager := some (.loaded b) }
  | .stored => some ⟨some (.loaded st.repository), some st.repository⟩

def Manager.attempt (m : Manager ρ) : UpgradeOp ρ → Except LockErr (Attempt ρ)
  | .setLock l nonce time => m.setUpgradeLockIntent l nonce time
  | .commit nonce => m.commitUpgrade nonce
  | .rollback listed => m.rollbackUpgrade listed
  | .setParameters version rest nonce => .ok (m.setParameters version rest nonce)

def Storage.writeAll (st : Storage ρ) (writes : List (Write ρ × Manager ρ)) : Storage ρ :=
  writes.foldl (fun st w => st.write w.1) st

def Attempt.run (a : Attempt ρ) (st : Storage ρ) (cl : Client ρ) :
    Fate → Option (Storage ρ × Client ρ)
  | .complete => some (st.writeAll a.writes, ⟨some a.final, none⟩)
  | .fails done => a.writes[done]?.map fun w =>
    (st.writeAll (a.writes.take done), { cl with manager := some w.2 })
  | .dies done => a.writes[done]?.map fun _ =>
    (st.writeAll (a.writes.take done), { cl with manager := none })

/-- The format before the lock, after the format blob went from `old` to `new`. -/
def trackBefore (before : Option (FormatBlob ρ)) (old new : FormatBlob ρ) : Option (FormatBlob ρ) :=
  if new.config.upgradeLock = none then none
  else if old.config.upgradeLock = none then some old
  else before

namespace World

variable [DecidableEq ρ] (w : World ρ)

def listable : UpgradeOp ρ → Bool
  | .rollback listed => listed.Perm w.storage.backups
  | _ => true

def step : UpgradeAction ρ → Option (World ρ)
  | .connect c refresh => ((w.clients c).refresh w.storage refresh).map fun cl =>
    { w with clients := Function.update w.clients c cl }
  | .run c refresh op fate =>
    if w.listable op then
      ((w.clients c).refresh w.storage refresh).bind fun cl => cl.manager.bind fun m =>
        match m.attempt op with
        | .error _ => some { w with clients := Function.update w.clients c cl }
        | .ok a => (a.run w.storage cl fate).map fun (st, cl) =>
          ⟨st, Function.update w.clients c cl,
            trackBefore w.before w.storage.repository st.repository⟩
    else none

def Initial (w : World ρ) : Prop :=
  w.storage.repository.config.upgradeLock = none ∧ w.storage.backups = [] ∧ w.before = none

end World

end Operations

end Warphold.Upgrade
