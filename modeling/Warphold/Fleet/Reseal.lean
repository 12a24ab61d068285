import Warphold.Fleet.Rotate

/-!
# Resealing the store

`Reseal` works through the tables with sealed columns in one transaction: it opens every value that is
not empty with the old key and seals it with the new one, and sets the new salt. A dry run does the
same and rolls back. Here the rows have all their columns, a column may be NULL, and any statement of
the transaction may fail.
-/

namespace Warphold.Fleet.Reseal

structure BlobRow where
  id : Str
  sealedValue : Str
  rest : Str
  deriving DecidableEq

structure TargetRow where
  id : ℤ
  sealedAdminKey : Option Str
  sealedMirrorKey : Option Str
  rest : Str
  deriving DecidableEq

structure Db where
  agents : List BlobRow
  targets : List TargetRow
  deviceKeys : List BlobRow
  settings : List (Str × Str)
  others : Str
  deriving DecidableEq

def sealedSettingPrefix : Str := str "sealed_"

inductive TxFault where
  | statement
  | commit
  deriving DecidableEq

section Work

variable (c : Crypto) (old new : Key)

def resealBlob (row : BlobRow) : Draw BlobRow := do
  if row.sealedValue = [] then return row
  else return { row with sealedValue := ← resealValue c old new row.sealedValue }

def absent (v : Option Str) : Bool := v.getD [] = []

def nullBlob (v : Str) : Option Str := if v = [] then none else some v

def resealTarget (row : TargetRow) : Draw TargetRow := do
  if absent row.sealedAdminKey && absent row.sealedMirrorKey then return row
  else
    let admin ← resealValue c old new (row.sealedAdminKey.getD [])
    let mirror ← resealValue c old new (row.sealedMirrorKey.getD [])
    return { row with sealedAdminKey := nullBlob admin, sealedMirrorKey := nullBlob mirror }

/-- One row of `resealSettings`; the query selects without looking at case. -/
def resealSettingRow (row : Str × Str) : Draw (Str × Str) := do
  if sealedSetting row.1 then
    let raw ← (Hex.decodeString row.2 : Option Str)
    if raw = [] then return row
    else return (row.1, Hex.encodeToString (← resealValue c old new raw))
  else return row

def work (newSalt : Str) (db : Db) : Draw (Db × ResealCounts) := do
  let agents ← db.agents.mapM (resealBlob c old new)
  let targets ← db.targets.mapM (resealTarget c old new)
  let deviceKeys ← db.deviceKeys.mapM (resealBlob c old new)
  let settings ← db.settings.mapM (resealSettingRow c old new)
  return ({ db with
      agents, targets, deviceKeys, settings := setSetting settings sealSaltSetting newSalt },
    { agents := db.agents.countP (·.sealedValue ≠ [])
      targets := db.targets.countP fun row =>
        !(absent row.sealedAdminKey && absent row.sealedMirrorKey)
      deviceKeys := db.deviceKeys.countP (·.sealedValue ≠ [])
      settings := db.settings.countP fun row =>
        sealedSetting row.1 && (Hex.decodeString row.2).getD [] ≠ [] })

def reseal (newSalt : Str) (dryRun : Bool) (fault : Option TxFault) (nonces : List Str) (db : Db) :
    Db × Option ResealCounts :=
  if (Hex.decodeString newSalt).getD [] = [] then (db, none)
  else match (work c old new newSalt db).run nonces with
    | none => (db, none)
    | some ((db', counts), _) =>
      if fault = some .statement then (db, none)
      else if dryRun then (db, some counts)
      else if fault = some .commit then (db, none)
      else (db', some counts)

end Work

end Warphold.Fleet.Reseal
