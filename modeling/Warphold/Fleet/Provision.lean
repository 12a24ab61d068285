import Warphold.Lib.Strings
import Warphold.Lib.Runs

/-!
# Provisioning and its unwinding

Enrolling inserts the agent's row, mints its keys, initializes its repository and stores its bundle.
Cleaning up after a failure is in three places: the provisioner takes back what it minted if
initializing fails, but returns at once from the failures before that; the handler's deferred function
revokes the bundle's keys if there is a bundle, deletes the agent with its gateway keys in one
transaction, and removes the hosted directory.

Meanwhile other requests and jobs insert rows that refer to the agent, and the database refuses to
delete a row that is referred to. Each call on the database, the provider or the disk is one step.
Agent ids are random and do not repeat.
-/

namespace Warphold.Fleet

inductive TargetKind where
  | filesystem
  | b2
  | hostedDisk
  | hostedCloud
  deriving DecidableEq, Repr

def TargetKind.hosted : TargetKind → Bool
  | .hostedDisk | .hostedCloud => true
  | _ => false

/-- The tables, other than `device_keys`, with rows that refer to an agent. -/
inductive RefTable where
  | commands
  | jobs
  | kitAcks
  | repoStats
  | reports
  deriving DecidableEq, Repr

structure GatewayKey where
  accessKeyID : Str
  agentID : Str
  disabled : Bool
  deriving DecidableEq

/-- How far an enroll request is; `keys` are the B2 keys of the bundle in the making. -/
inductive Provisioning where
  | created (id : Str) (kind : TargetKind)
  | writer (id key : Str)
  | keyed (id : Str)
  | minted (id : Str) (kind : TargetKind) (keys : List Str)
  | rollback (id : Str) (kind : TargetKind) (keys : List Str)
  | provisioned (id : Str) (kind : TargetKind) (keys : List Str)
  | sealing (id : Str) (kind : TargetKind) (keys : List Str)
  | revoking (id : Str) (kind : TargetKind) (keys : List Str)
  | unwinding (id : Str) (kind : TargetKind)
  | removing (id : Str) (kind : TargetKind)
  deriving DecidableEq

/-- `agents` are the ids of the rows, with whether the bundle is stored; `failed` are the agents whose
enroll request has answered with an error. -/
structure Provisions where
  agents : List (Str × Bool)
  refs : List (RefTable × Str)
  deviceKeys : List GatewayKey
  cache : List (Str × Str)
  looking : List (Str × Str)
  b2Keys : List (Str × Str)
  dirs : List Str
  used : List Str
  enrolling : ℕ → Option Provisioning
  failed : List Str

inductive Stmt where
  | ok
  | failed
  | lost
  deriving DecidableEq, Repr

inductive ProvisionAction where
  | createAgent (i : ℕ) (id : Str) (kind : TargetKind)
  | makeDir (i : ℕ) (ok : Bool)
  | createWriter (i : ℕ) (key : Option Str)
  | createReader (i : ℕ) (key : Option Str)
  | createDeviceKey (i : ℕ) (accessKeyID : Str) (stmt : Stmt)
  | openBackend (i : ℕ) (ok : Bool)
  | initRepository (i : ℕ) (ok : Bool)
  | rollback (i : ℕ) (disabled removed : Bool)
  | encodeToken (i : ℕ) (ok : Bool)
  | sealBundle (i : ℕ) (ok : Bool)
  | setAgentBundle (i : ℕ) (stmt : Stmt)
  | revokeBundle (i : ℕ)
  | deleteAgent (i : ℕ) (ok : Bool)
  | removeRepository (i : ℕ) (ok : Bool)
  | addRow (table : RefTable) (id : Str)
  | mintKit (id accessKeyID : Str)
  | disableKeys (id : Str)
  | lookup (accessKeyID : Str)
  | cacheKey (entry : Str × Str)
  | forget (entry : Str × Str)

namespace Provisions

def hasAgent (s : Provisions) (id : Str) : Bool := s.agents.any fun a => a.1 = id

def deviceKey (s : Provisions) (accessKeyID : Str) : Option GatewayKey :=
  s.deviceKeys.find? fun k => k.accessKeyID = accessKeyID && !k.disabled

def accepts (s : Provisions) (accessKeyID id : Str) : Bool :=
  s.cache.any (fun e => e.1 = accessKeyID && e.2 = id)
    || (s.deviceKey accessKeyID).any fun k => k.agentID = id

def go (s : Provisions) (i : ℕ) (p : Provisioning) : Provisions :=
  { s with enrolling := Function.update s.enrolling i (some p) }

def fail (s : Provisions) (i : ℕ) (id : Str) : Provisions :=
  { s with enrolling := Function.update s.enrolling i none, failed := id :: s.failed }

def insertDeviceKey (s : Provisions) (accessKeyID id : Str) : Provisions :=
  { s with deviceKeys := ⟨accessKeyID, id, false⟩ :: s.deviceKeys }

def canInsertKey (s : Provisions) (accessKeyID id : Str) : Bool :=
  s.hasAgent id && !(s.deviceKeys.any fun k => k.accessKeyID = accessKeyID)

def disableDeviceKeys (s : Provisions) (id : Str) : Provisions :=
  { s with deviceKeys := s.deviceKeys.map fun k =>
      if k.agentID = id then { k with disabled := true } else k }

def deleteB2Keys (s : Provisions) (keys : List Str) : Provisions :=
  { s with b2Keys := s.b2Keys.filter fun k => !keys.contains k.1 }

def removeDir (s : Provisions) (kind : TargetKind) (id : Str) : Provisions :=
  if kind = .hostedDisk then { s with dirs := s.dirs.filter (· ≠ id) } else s

def setBundle (s : Provisions) (id : Str) : Provisions :=
  { s with agents := s.agents.map fun a => if a.1 = id then (a.1, true) else a }

def deleteAgent (s : Provisions) (id : Str) : Provisions :=
  if s.refs.any fun r => r.2 = id then s
  else { s with
    deviceKeys := s.deviceKeys.filter fun k => k.agentID ≠ id
    agents := s.agents.filter fun a => a.1 ≠ id }

/-- `Provision` up to the repository: what is minted on each kind of target. -/
def stepMint (s : Provisions) : ProvisionAction → Option Provisions
  | .createAgent i id kind =>
    if s.enrolling i ≠ none ∨ id ∈ s.used then none
    else some ({ s with agents := (id, false) :: s.agents, used := id :: s.used }.go i
      (.created id kind))
  | .makeDir i ok =>
    match s.enrolling i with
    | some (.created id .filesystem) =>
      some (s.go i (if ok then .minted id .filesystem [] else .unwinding id .filesystem))
    | _ => none
  | .createWriter i key =>
    match s.enrolling i with
    | some (.created id .b2) =>
      match key with
      | none => some (s.go i (.unwinding id .b2))
      | some w => some ({ s with b2Keys := (w, id) :: s.b2Keys }.go i (.writer id w))
    | _ => none
  | .createReader i key =>
    match s.enrolling i with
    | some (.writer id w) =>
      match key with
      | none => some ((s.deleteB2Keys [w]).go i (.unwinding id .b2))
      | some r => some ({ s with b2Keys := (r, id) :: s.b2Keys }.go i (.minted id .b2 [w, r]))
    | _ => none
  | .createDeviceKey i accessKeyID stmt =>
    match s.enrolling i with
    | some (.created id kind) =>
      if !kind.hosted then none
      else if !s.canInsertKey accessKeyID id then some (s.go i (.unwinding id kind))
      else some (match stmt with
        | .ok => (s.insertDeviceKey accessKeyID id).go i
            (if kind = .hostedCloud then .keyed id else .minted id kind [])
        | .failed => s.go i (.unwinding id kind)
        | .lost => (s.insertDeviceKey accessKeyID id).go i (.unwinding id kind))
    | _ => none
  | .openBackend i ok =>
    match s.enrolling i with
    | some (.keyed id) =>
      -- an early return: the key that was minted is not taken back
      some (s.go i (if ok then .minted id .hostedCloud [] else .unwinding id .hostedCloud))
    | _ => none
  | _ => none

def stepStore (s : Provisions) : ProvisionAction → Option Provisions
  | .initRepository i ok =>
    match s.enrolling i with
    | some (.minted id kind keys) =>
      -- the directory is there however far initializing got
      some ((if kind = .hostedDisk then { s with dirs := id :: s.dirs } else s).go i
        (if ok then .provisioned id kind keys else .rollback id kind keys))
    | _ => none
  | .encodeToken i ok =>
    match s.enrolling i with
    | some (.provisioned id kind keys) =>
      some (s.go i (if ok then .sealing id kind keys else .rollback id kind keys))
    | _ => none
  | .rollback i disabled removed =>
    match s.enrolling i with
    | some (.rollback id kind keys) =>
      let s := s.deleteB2Keys keys
      let s := if kind.hosted && disabled then s.disableDeviceKeys id else s
      some ((if removed then s.removeDir kind id else s).go i (.unwinding id kind))
    | _ => none
  | .sealBundle i ok =>
    match s.enrolling i with
    | some (.sealing id kind keys) =>
      if ok then none else some (s.go i (.revoking id kind keys))
    | _ => none
  | .setAgentBundle i stmt =>
    match s.enrolling i with
    | some (.sealing id kind keys) =>
      some (match stmt with
        | .ok =>
          if s.hasAgent id then
            { s.setBundle id with enrolling := Function.update s.enrolling i none }
          else s.go i (.revoking id kind keys)
        | .failed => s.go i (.revoking id kind keys)
        | .lost => (s.setBundle id).go i (.revoking id kind keys))
    | _ => none
  | _ => none

def stepUnwind (s : Provisions) : ProvisionAction → Option Provisions
  | .revokeBundle i =>
    match s.enrolling i with
    | some (.revoking id kind keys) => some ((s.deleteB2Keys keys).go i (.unwinding id kind))
    | _ => none
  | .deleteAgent i ok =>
    match s.enrolling i with
    | some (.unwinding id kind) =>
      some ((if ok then s.deleteAgent id else s).go i (.removing id kind))
    | _ => none
  | .removeRepository i ok =>
    match s.enrolling i with
    | some (.removing id kind) => some ((if ok then s.removeDir kind id else s).fail i id)
    | _ => none
  | _ => none

def stepOther (s : Provisions) : ProvisionAction → Option Provisions
  | .addRow table id => if s.hasAgent id then some { s with refs := (table, id) :: s.refs } else none
  | .mintKit id accessKeyID =>
    -- a kit is made of the agent's bundle
    if (id, true) ∈ s.agents ∧ s.canInsertKey accessKeyID id then
      some (s.insertDeviceKey accessKeyID id)
    else none
  | .disableKeys id => some (s.disableDeviceKeys id)
  | .lookup accessKeyID =>
    (s.deviceKey accessKeyID).map fun k =>
      { s with looking := (k.accessKeyID, k.agentID) :: s.looking }
  | .cacheKey entry =>
    if entry ∈ s.looking then
      some { s with cache := entry :: s.cache, looking := s.looking.erase entry }
    else none
  | .forget entry =>
    some { s with cache := s.cache.filter (· ≠ entry), looking := s.looking.erase entry }
  | _ => none

def step (s : Provisions) (a : ProvisionAction) : Option Provisions :=
  match a with
  | .createAgent .. | .makeDir .. | .createWriter .. | .createReader .. | .createDeviceKey ..
  | .openBackend .. => stepMint s a
  | .initRepository .. | .encodeToken .. | .rollback .. | .sealBundle .. | .setAgentBundle .. =>
    stepStore s a
  | .revokeBundle .. | .deleteAgent .. | .removeRepository .. => stepUnwind s a
  | _ => stepOther s a

end Provisions

end Warphold.Fleet
