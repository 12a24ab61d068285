import Warphold.Fleet.Enroll
import Warphold.Gateway.Handler

/-!
# Device keys, their cache, and revocation

The gateway resolves an access key id through a cache in front of the `device_keys` table. A lookup
reads the cache, then the table, then writes the cache, holding the lock only for the first and the
last; `Invalidate` bumps a generation so that a lookup it overtook does not write. Revoking an agent
disables its keys, invalidates its cache entries, stamps the agent and schedules its reap. A recovery
kit reads the agent's keys and mints a read-only one.

Every statement is a step, and a step is a tick of `clock`; the times in the state are ticks.
-/

namespace Warphold.Fleet

open Gateway (StoreForErr)

structure DeviceKey where
  accessKeyID : Str
  agentID : Str
  sealedSecret : Str
  pre : Str
  readOnly : Bool
  createdAt : ℕ
  disabledAt : Option ℕ
  deriving DecidableEq

structure KeyEntry where
  agentID : Str
  pre : Str
  secret : Str
  readOnly : Bool
  expires : ℤ
  deriving DecidableEq

def cacheTTL : ℤ := 5 * 60 * 10 ^ 9

def cacheSize : ℕ := 4096

structure Query where
  accessKeyID : Str
  now : ℤ
  gen : ℕ
  startedAt : ℕ
  deriving DecidableEq

inductive Looking where
  | missed (q : Query)
  | loaded (q : Query) (e : KeyEntry)
  | failed (q : Query)
  deriving DecidableEq

/-- How far a revocation of an agent is, with the tick its keys were disabled at. -/
inductive Revoking where
  | disabled (agentID : Str) (at_ : ℕ)
  | invalidated (agentID : Str) (at_ : ℕ)
  | stamped (agentID : Str) (at_ : ℕ)
  deriving DecidableEq

inductive Minting where
  | disabling (agentID pre : Str) (ids : List Str)
  | minting (agentID pre : Str)
  deriving DecidableEq

structure Found where
  accessKeyID : Str
  entry : KeyEntry
  startedAt : ℕ
  deriving DecidableEq

structure Invalidation where
  agentID : Option Str
  at_ : ℕ
  deriving DecidableEq

structure Revocation where
  agentID : Str
  disabledAt : ℕ
  returnedAt : ℕ
  deriving DecidableEq

def Invalidation.Covers (v : Invalidation) (agentID : Str) : Prop := ∀ a ∈ v.agentID, a = agentID

/-- The store, the key cache, the requests in flight, and what has happened so far. -/
structure KeyService where
  store : Store
  keys : List DeviceKey
  gen : ℕ
  cache : List (Str × KeyEntry)
  looking : ℕ → Option Looking
  revoking : ℕ → Option Revoking
  minting : ℕ → Option Minting
  clock : ℕ
  found : List Found
  invalidations : List Invalidation
  revocations : List Revocation

/-- A failure of a statement ends its request; `ok` tells whether it fails. -/
inductive KeyAction where
  | lookup (i : ℕ) (accessKeyID : Str) (now : ℤ)
  | readStore (i : ℕ) (ok : Bool)
  | forget (i : ℕ)
  | writeCache (i : ℕ)
  | disableKeys (i : ℕ) (agentID : Str) (ok : Bool)
  | invalidateKeys (i : ℕ)
  | revokeAgent (i : ℕ) (ok : Bool)
  | scheduleReap (i : ℕ) (ok : Bool)
  | kitKeys (i : ℕ) (agentID pre : Str) (rotate : Bool)
  | kitDisable (i : ℕ) (ok : Bool)
  | kitInvalidate (i : ℕ)
  | kitCreate (i : ℕ) (accessKeyID sealedSecret : Str)
  | invalidateAll

/-- `storeForAgent`: agent, group, target; a revoked agent is refused before its group is read. -/
def storeForAgent (targetStore : ℤ → Except StoreForErr Unit) (st : Store) (agentID : Str) :
    Except StoreForErr Unit :=
  match st.agents.find? fun a => a.id = agentID with
  | none => .error .other
  | some a =>
    if a.revoked then .error .errAccessDenied
    else match st.group a.groupID with
      | none => .error .other
      | some g => targetStore g.targetID

namespace KeyService

def deviceKey (s : KeyService) (accessKeyID : Str) : Option DeviceKey :=
  s.keys.find? fun k => k.accessKeyID = accessKeyID && k.disabledAt.isNone

def disableWhere (s : KeyService) (p : DeviceKey → Bool) : KeyService :=
  { s with
    keys := s.keys.map fun k =>
      if p k && k.disabledAt.isNone then { k with disabledAt := some s.clock } else k }

def disableDeviceKeysForAgent (s : KeyService) (agentID : Str) : KeyService :=
  s.disableWhere fun k => k.agentID = agentID

def disableDeviceKey (s : KeyService) (accessKeyID : Str) : KeyService :=
  s.disableWhere fun k => k.accessKeyID = accessKeyID

/-- `CreateDeviceKey` of a kit's key; the id is the table's primary key. -/
def createReadOnlyKey (s : KeyService) (accessKeyID agentID sealedSecret pre : Str) :
    Option KeyService :=
  if s.keys.any fun k => k.accessKeyID = accessKeyID then none
  else some { s with
    keys := ⟨accessKeyID, agentID, sealedSecret, pre, true, s.clock, none⟩ :: s.keys }

def drop (s : KeyService) (accessKeyID : Str) : List (Str × KeyEntry) :=
  s.cache.filter fun c => c.1 ≠ accessKeyID

def cacheKey (s : KeyService) (accessKeyID : Str) (e : KeyEntry) : KeyService :=
  { s with cache := (accessKeyID, e) ::
      if s.cache.length ≥ cacheSize then [] else s.drop accessKeyID }

def invalidate (s : KeyService) (agentID : Str) : KeyService :=
  { s with
    gen := s.gen + 1
    cache := s.cache.filter fun c => c.2.agentID ≠ agentID
    invalidations := ⟨some agentID, s.clock⟩ :: s.invalidations }

def invalidateAll (s : KeyService) : KeyService :=
  { s with
    gen := s.gen + 1
    cache := []
    invalidations := ⟨none, s.clock⟩ :: s.invalidations }

def setLooking (s : KeyService) (i : ℕ) (l : Option Looking) : KeyService :=
  { s with looking := Function.update s.looking i l }

def setRevoking (s : KeyService) (i : ℕ) (r : Option Revoking) : KeyService :=
  { s with revoking := Function.update s.revoking i r }

def setMinting (s : KeyService) (i : ℕ) (m : Option Minting) : KeyService :=
  { s with minting := Function.update s.minting i m }

def addFound (s : KeyService) (f : Found) : KeyService := { s with found := f :: s.found }

def tick (s : KeyService) : KeyService := { s with clock := s.clock + 1 }

def entryOf (openSealed : Str → Option Str) (q : Query) (k : DeviceKey) : Option KeyEntry :=
  (openSealed k.sealedSecret).map fun secret =>
    ⟨k.agentID, k.pre, secret, k.readOnly, q.now + cacheTTL⟩

def stepLookup (openSealed : Str → Option Str) (s : KeyService) : KeyAction → Option KeyService
  | .lookup i accessKeyID now =>
    if s.looking i ≠ none then none
    else match (s.cache.lookup accessKeyID).filter fun e => now < e.expires with
      | some e => some (s.addFound ⟨accessKeyID, e, s.clock⟩)
      | none => some (s.setLooking i (some (.missed ⟨accessKeyID, now, s.gen, s.clock⟩)))
  | .readStore i ok =>
    match s.looking i with
    | some (.missed q) =>
      match if ok then (s.deviceKey q.accessKeyID).bind (entryOf openSealed q) else none with
      | some e => some (s.setLooking i (some (.loaded q e)))
      | none => some (s.setLooking i (some (.failed q)))
    | _ => none
  | .forget i =>
    match s.looking i with
    | some (.failed q) => some ({ s with cache := s.drop q.accessKeyID }.setLooking i none)
    | _ => none
  | .writeCache i =>
    match s.looking i with
    | some (.loaded q e) =>
      some (((if s.gen = q.gen then s.cacheKey q.accessKeyID e else s).addFound
        ⟨q.accessKeyID, e, q.startedAt⟩).setLooking i none)
    | _ => none
  | _ => none

def stepRevoke (s : KeyService) : KeyAction → Option KeyService
  | .disableKeys i agentID ok =>
    if s.revoking i ≠ none ∨ !(s.store.agents.any fun a => a.id = agentID) then none
    else if ok then
      some ((s.disableDeviceKeysForAgent agentID).setRevoking i (some (.disabled agentID s.clock)))
    else some s
  | .invalidateKeys i =>
    match s.revoking i with
    | some (.disabled agentID d) =>
      some ((s.invalidate agentID).setRevoking i (some (.invalidated agentID d)))
    | _ => none
  | .revokeAgent i ok =>
    match s.revoking i with
    | some (.invalidated agentID d) =>
      if ok then
        some ({ s with store := s.store.revokeAgent agentID }.setRevoking i
          (some (.stamped agentID d)))
      else some (s.setRevoking i none)
    | _ => none
  | .scheduleReap i ok =>
    match s.revoking i with
    | some (.stamped agentID d) =>
      if ok then
        some ({ s with revocations := ⟨agentID, d, s.clock⟩ :: s.revocations }.setRevoking i none)
      else some (s.setRevoking i none)
    | _ => none
  | _ => none

def stepKit (s : KeyService) : KeyAction → Option KeyService
  | .kitKeys i agentID pre rotate =>
    let active := s.keys.filter fun k => k.agentID = agentID && k.readOnly && k.disabledAt.isNone
    if s.minting i ≠ none then none
    else if rotate then
      some (s.setMinting i (some (.disabling agentID pre (active.map (·.accessKeyID)))))
    else if active = [] then some (s.setMinting i (some (.minting agentID pre)))
    else some s
  | .kitDisable i ok =>
    match s.minting i with
    | some (.disabling agentID pre (id :: ids)) =>
      if ok then some ((s.disableDeviceKey id).setMinting i (some (.disabling agentID pre ids)))
      else some (s.setMinting i none)
    | _ => none
  | .kitInvalidate i =>
    match s.minting i with
    | some (.disabling agentID pre []) =>
      some ((s.invalidate agentID).setMinting i (some (.minting agentID pre)))
    | _ => none
  | .kitCreate i accessKeyID sealedSecret =>
    match s.minting i with
    | some (.minting agentID pre) =>
      some (((s.createReadOnlyKey accessKeyID agentID sealedSecret pre).getD s).setMinting i none)
    | _ => none
  | _ => none

def step (openSealed : Str → Option Str) (s : KeyService) (a : KeyAction) : Option KeyService :=
  (match a with
    | .lookup .. | .readStore .. | .forget .. | .writeCache .. => stepLookup openSealed s a
    | .disableKeys .. | .invalidateKeys .. | .revokeAgent .. | .scheduleReap .. => stepRevoke s a
    | .kitKeys .. | .kitDisable .. | .kitInvalidate .. | .kitCreate .. => stepKit s a
    | .invalidateAll => some s.invalidateAll).map tick

end KeyService

end Warphold.Fleet
