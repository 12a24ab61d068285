import Warphold.Fleet.Login

/-!
# The admins of a fleet

The tables whose rows refer to admins, with their foreign keys enforced: sessions go with their admin,
acknowledgements of recovery kits refuse to. A request reaches the database in one statement.
-/

namespace Warphold.Fleet

/-- The database as far as admins are concerned: admins, sessions (with their admins), devices, and who
acknowledged a device's kit. -/
structure AdminDb where
  admins : List (ℕ × Str)
  sessions : List (ℕ × ℕ)
  agents : List Str
  kitAcks : List (Str × ℕ)
  deriving DecidableEq

inductive AdminAction where
  | createAdmin (email : Str)
  | createSession (adminID : ℕ)
  | insertAgent (id : Str)
  | deleteAgent (id : Str)
  | setKitAck (agentID : Str) (adminID : ℕ)
  | deleteAdmin (caller id : ℕ)

inductive DeleteAdminResult where
  | deleted
  | ownAccount
  | lastAdmin
  | notFound
  | failed
  deriving DecidableEq

namespace AdminDb

def isAdmin (db : AdminDb) (id : ℕ) : Bool := db.admins.any fun a => a.1 = id

def handleAdminDelete (db : AdminDb) (caller id : ℕ) : AdminDb × DeleteAdminResult :=
  if id = caller then (db, .ownAccount)
  else if db.isAdmin id ∧ 1 < db.admins.length then
    -- the statement fails as a whole if a row that does not cascade refers to the admin
    if db.kitAcks.any fun k => k.2 = id then (db, .failed)
    else ({ db with
      admins := db.admins.filter fun a => a.1 ≠ id
      sessions := db.sessions.filter fun s => s.2 ≠ id }, .deleted)
  else if db.isAdmin id then (db, .lastAdmin)
  else (db, .notFound)

def step (db : AdminDb) : AdminAction → Option AdminDb
  | .createAdmin email =>
    if db.admins.any fun a => a.2 = email then none
    else some { db with admins := (nextID (db.admins.map (·.1)), email) :: db.admins }
  | .createSession adminID =>
    if db.isAdmin adminID then
      some { db with sessions := (nextID (db.sessions.map (·.1)), adminID) :: db.sessions }
    else none
  | .insertAgent id => if id ∈ db.agents then none else some { db with agents := id :: db.agents }
  | .deleteAgent id =>
    if db.kitAcks.any fun k => k.1 = id then none
    else some { db with agents := db.agents.filter (· ≠ id) }
  | .setKitAck agentID adminID =>
    if agentID ∈ db.agents ∧ db.isAdmin adminID then
      some { db with kitAcks := (agentID, adminID) :: db.kitAcks.filter fun k => k.1 ≠ agentID }
    else none
  | .deleteAdmin caller id => some (db.handleAdminDelete caller id).1

def start (db : AdminDb) : Prop := ∃ email, db = ⟨[(1, email)], [], [], []⟩

end AdminDb

end Warphold.Fleet
