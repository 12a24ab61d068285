import Warphold.Fleet.Seal
import Warphold.Lib.Runs

/-!
# Passphrase rotation

`RotatePassphrase` re-seals every sealed value under a new key, in the order that is to make a crash
survivable: check the passphrase, write the new key to the pending file, re-seal in one transaction,
rename the pending file over the live one. `recoverPendingKey` finishes or discards at the next start
what a crash left behind.

The steps of any number of rotations interleave as the sealing lock lets them. A commit may report an
error whether or not it took effect, a rename may fail, and the process may crash at any point.
-/

namespace Warphold.Fleet

section Reseal
variable (c : Crypto) (old new : Key)

structure SealedDb where
  agents : List (Str × Str)
  targets : List (ℤ × Str × Str)
  deviceKeys : List (Str × Str)
  settings : List (Str × Str)
  deriving DecidableEq

structure ResealCounts where
  agents : ℕ
  targets : ℕ
  deviceKeys : ℕ
  settings : ℕ
  deriving DecidableEq, Repr

def sealSaltSetting : Str := str "seal_salt"

def sealedSetting (key : Str) : Bool := Strings.hasPrefix (Strings.toLower key) (str "sealed_")

abbrev Draw := StateT (List Str) Option

/-- One ciphertext opened with the old key and sealed with the new one; an absent one is skipped. -/
def resealValue (sealed : Str) : Draw Str := fun nonces =>
  if sealed = [] then some ([], nonces)
  else match c.openSealed old sealed, nonces with
    | some plain, nonce :: rest => some (c.sealPlain new nonce plain, rest)
    | _, _ => none

def resealBlobs (rows : List (Str × Str)) : Draw (List (Str × Str)) :=
  rows.mapM fun row => do return (row.1, ← resealValue c old new row.2)

def resealTargets (rows : List (ℤ × Str × Str)) : Draw (List (ℤ × Str × Str)) :=
  rows.mapM fun row => do
    return (row.1, ← resealValue c old new row.2.1, ← resealValue c old new row.2.2)

def resealSetting (row : Str × Str) : Draw (Str × Str) := do
  if sealedSetting row.1 then
    let raw ← (Hex.decodeString row.2 : Option Str)
    return (row.1, Hex.encodeToString (← resealValue c old new raw))
  else return row

def resealSettings (rows : List (Str × Str)) : Draw (List (Str × Str)) :=
  rows.mapM (resealSetting c old new)

def setting (rows : List (Str × Str)) (key : Str) : Option Str := rows.lookup key

def setSetting (rows : List (Str × Str)) (key value : Str) : List (Str × Str) :=
  (key, value) :: rows.filter fun row => row.1 ≠ key

def SealedDb.salt (db : SealedDb) : Str := (setting db.settings sealSaltSetting).getD []

def reseal (newSalt : Str) (db : SealedDb) : Draw (SealedDb × ResealCounts) := do
  let agents ← resealBlobs c old new db.agents
  let targets ← resealTargets c old new db.targets
  let deviceKeys ← resealBlobs c old new db.deviceKeys
  let settings ← resealSettings c old new db.settings
  return ({ agents, targets, deviceKeys, settings := setSetting settings sealSaltSetting newSalt },
    { agents := db.agents.countP (·.2 ≠ [])
      targets := db.targets.countP fun row => row.2.1 ≠ [] || row.2.2 ≠ []
      deviceKeys := db.deviceKeys.countP (·.2 ≠ [])
      settings := db.settings.countP fun row => sealedSetting row.1 && row.2 ≠ [] })

def SealedDb.sealedValues (db : SealedDb) : List Str :=
  (db.agents.map (·.2) ++ db.targets.flatMap (fun row => [row.2.1, row.2.2])
    ++ db.deviceKeys.map (·.2)
    ++ (db.settings.filter (sealedSetting ·.1)).filterMap fun row => Hex.decodeString row.2).filter
      (· ≠ [])

end Reseal

inductive Phase where
  | derived
  | locked (old : Key)
  | written (old : Key)
  | committed
  deriving DecidableEq

/-- A rotation in flight: the key derived from the passphrase it was given, and what it rotates to. -/
structure Rotation where
  derived : Key
  newKey : Key
  newSalt : Str
  dryRun : Bool
  phase : Phase

/-- The key files, the store, and the process: its key when it runs, the rotations in flight and the
holder of the sealing lock. -/
structure Server where
  live : Str
  pending : Option Str
  db : SealedDb
  mem : Option Key
  rot : ℕ → Option Rotation
  lock : Option ℕ

inductive Commit where
  | ok
  | failed (applied : Bool)
  deriving DecidableEq

structure StartFaults where
  readPending : Bool
  readDb : Bool
  rename : Bool
  remove : Bool
  /-- The live key file cannot be read, or the store cannot be opened. -/
  load : Bool

inductive Action where
  | begin (i : ℕ) (current next newSalt : Str) (dryRun : Bool)
  | acquire (i : ℕ)
  | writePending (i : ℕ) (ok : Bool)
  | reseal (i : ℕ) (nonces : List Str) (commit : Commit)
  | rename (i : ℕ) (ok : Bool)
  | crash
  | restart (f : StartFaults)

def minPassphraseLen : ℕ := 12

namespace Server

def setRot (s : Server) (i : ℕ) (r : Option Rotation) : Server :=
  { s with rot := Function.update s.rot i r }

def finish (s : Server) (i : ℕ) : Server := { s.setRot i none with lock := none }

/-- `recoverPendingKey`: the live file, the pending file, and whether the start may go on. -/
def recoverPendingKey (f : StartFaults) (s : Server) : Str × Option Str × Bool :=
  match s.pending with
  | none => (s.live, none, true)
  | some b =>
    match if f.readPending then none else KeyFile.readPending b with
    | none => (s.live, some b, false)
    | some (_, salt) =>
      if f.readDb || s.db.salt = [] then (s.live, some b, false)
      else if s.db.salt = Hex.encodeToString salt then
        if f.rename then (s.live, some b, false) else (b, none, true)
      else if f.remove then (s.live, some b, false) else (s.live, none, true)

/-- `load`: the process comes up with the live key if the recovery succeeds. -/
def load (f : StartFaults) (s : Server) : Server :=
  let (live, pending, ok) := recoverPendingKey f s
  { s with live := live, pending := pending, mem := if ok && !f.load then KeyFile.readKey live else none }

/-- `RotatePassphrase` up to the lock: the salt is read and both keys are derived. -/
def begin (c : Crypto) (s : Server) (i : ℕ) (current next newSalt : Str) (dryRun : Bool) : Server :=
  if next.length < minPassphraseLen then s
  else match Hex.decodeString s.db.salt with
    | none => s
    | some salt =>
      if salt = [] then s
      else s.setRot i (some ⟨c.derive current salt, c.derive next newSalt, newSalt, dryRun, .derived⟩)

def acquire (s : Server) (i : ℕ) (r : Rotation) (old : Key) : Server :=
  if r.derived ≠ old then s.setRot i none
  else { s.setRot i (some { r with phase := .locked old }) with lock := some i }

def writePending (s : Server) (i : ℕ) (r : Rotation) (old : Key) (ok : Bool) : Server :=
  let written := s.setRot i (some { r with phase := .written old })
  if r.dryRun then written
  else if ok then { written with pending := some (KeyFile.pendingContent r.newKey r.newSalt) }
  else s.finish i

def commitReseal (c : Crypto) (s : Server) (i : ℕ) (r : Rotation) (old : Key) (nonces : List Str)
    (commit : Commit) : Server :=
  match reseal c old r.newKey (Hex.encodeToString r.newSalt) s.db nonces with
  | none => s.finish i
  | some ((db, _), _) =>
    if r.dryRun then s.finish i
    else match commit with
      | .ok => { s.setRot i (some { r with phase := .committed }) with db := db }
      | .failed true => { s.finish i with db := db }
      | .failed false => s.finish i

def rename (s : Server) (i : ℕ) (r : Rotation) (ok : Bool) : Server :=
  let done := { s.finish i with mem := some r.newKey }
  match s.pending with
  | some b => if ok then { done with live := b, pending := none } else done
  | none => done

def step (c : Crypto) (s : Server) : Action → Option Server
  | .begin i current next newSalt dryRun =>
    if s.mem.isSome ∧ s.rot i = none ∧ newSalt.length = 16 then
      some (s.begin c i current next newSalt dryRun)
    else none
  | .acquire i =>
    match s.rot i, s.mem with
    | some r, some old =>
      if r.phase = .derived ∧ s.lock = none then some (s.acquire i r old) else none
    | _, _ => none
  | .writePending i ok =>
    match s.rot i with
    | some r =>
      match r.phase with
      | .locked old => some (s.writePending i r old ok)
      | _ => none
    | none => none
  | .reseal i nonces commit =>
    match s.rot i with
    | some r =>
      match r.phase with
      | .written old => some (s.commitReseal c i r old nonces commit)
      | _ => none
    | none => none
  | .rename i ok =>
    match s.rot i with
    | some r => if r.phase = .committed then some (s.rename i r ok) else none
    | none => none
  | .crash =>
    if s.mem.isSome then some { s with mem := none, rot := fun _ => none, lock := none } else none
  | .restart f => if s.mem = none then some (s.load f) else none

end Server

end Warphold.Fleet
