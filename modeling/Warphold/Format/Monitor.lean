import Warphold.Format.Upgrade

/-!
# The monitor of the upgrade lock

Before an operation on the storage a client checks the upgrade lock in the format it has loaded. It
does so once for each time the format was loaded; the format is loaded again by whatever part of the
program asks for it after it has expired. Listing blobs is not checked at all.

There is one lock, which is stored once and stays. The owner of the lock and the client have clocks
that differ by no more than the lock permits; each format the client has comes with the reading of
its clock when it was read from the storage.
-/

namespace Warphold.Upgrade.Monitor

/-- The lock, the client's own `UpgradeOwnerID` and how long it takes a format to be valid. -/
structure Setting where
  lock : UpgradeLockIntent
  upgradeOwnerID : Str
  validDuration : ℤ

structure Loaded where
  locked : Bool
  time : ℤ
  deriving DecidableEq

structure State where
  ownerNow : ℤ
  clientNow : ℤ
  placed : Option ℤ
  cache : Option Loaded
  manager : Option Loaded
  lastCheckTime : Option ℤ
  /-- The owner's times of the operations let through while the lock was stored. -/
  passed : List ℤ
  deriving DecidableEq

inductive StorageOp where
  | getBlob
  | getMetadata
  | putBlob
  | deleteBlob
  | listBlobs
  deriving DecidableEq

def StorageOp.checked : StorageOp → Bool
  | .listBlobs => false
  | _ => true

inductive MonitorAction where
  | tick (owner client : ℤ)
  | place
  /-- Another process with the same cache directory loads the format, or removes it. -/
  | share
  | unshare
  | connect (ignoreCache : Bool)
  | reload
  | operate (op : StorageOp)
  deriving DecidableEq

variable (S : Setting)

/-- Whether `IsLocked` panics: the writers have drained and there is no lock. -/
def panics (now : ℤ) : Bool := !(now < S.lock.upgradeTime) && !S.lock.isLocked now

namespace State

variable (s : State)

def current : Loaded := ⟨s.placed.isSome, s.clientNow⟩

def refresh (ignoreCache : Bool) : State :=
  match s.cache with
  | some l =>
    if !ignoreCache && s.clientNow - l.time < S.validDuration then { s with manager := some l }
    else { s with cache := some s.current, manager := some s.current }
  | none => { s with cache := some s.current, manager := some s.current }

def maybeRefresh (l : Loaded) : State :=
  if s.clientNow < l.time + S.validDuration then s else s.refresh S false

def pass : State := if s.placed.isSome then { s with passed := s.ownerNow :: s.passed } else s

/-- The callback of `upgradeLockMonitor`, and the operation if it is let through. -/
def checked (l : Loaded) : State :=
  if s.lastCheckTime = some l.time then s.pass
  else
    let s := s.maybeRefresh S l
    if s.manager.any (·.locked) then
      if panics S s.clientNow then { s with manager := none }
      else if S.lock.isLocked s.clientNow ∧ S.upgradeOwnerID ≠ S.lock.ownerID then s
      else { s with lastCheckTime := some l.time }.pass
    else { s with lastCheckTime := some l.time }.pass

def step : MonitorAction → Option State
  | .tick owner client =>
    if s.ownerNow ≤ owner ∧ |client - owner| ≤ S.lock.maxPermittedClockDrift then
      some { s with ownerNow := owner, clientNow := client }
    else none
  | .place =>
    if s.placed = none ∧ S.lock.creationTime ≤ s.ownerNow then
      some { s with placed := some s.ownerNow }
    else none
  | .share => some { s with cache := some s.current }
  | .unshare => some { s with cache := none }
  | .connect ignoreCache => some { s.refresh S ignoreCache with lastCheckTime := none }
  | .reload => s.manager.map (s.maybeRefresh S ·)
  | .operate op => s.manager.map fun l => if op.checked then s.checked S l else s.pass

def Initial (s : State) : Prop :=
  |s.clientNow - s.ownerNow| ≤ S.lock.maxPermittedClockDrift ∧ s.placed = none ∧ s.cache = none
    ∧ s.manager = none ∧ s.lastCheckTime = none ∧ s.passed = []

end State

end Warphold.Upgrade.Monitor
