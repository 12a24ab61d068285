import Warphold.Lib.Strings
import Warphold.Lib.Runs

/-!
# Logins, password changes and admins

A login reads an admin's password hash, verifies the password against it, which is slow, and then
inserts a session. A password change looks its session up, reads the hash, verifies the current
password, stores the new hash and revokes the admin's other sessions. Each statement on the store is
one step, so requests interleave between them. Row ids are given out as the database does: one more
than the greatest in the table, so the id of a deleted row may be given out again.

A step is a tick of `clock`. An admin's row bears the tick it was inserted at, its account, and the
tick its password was stored at, its version; a session bears the tick it was inserted at and the
account and version its login verified. The code has none of these.
-/

namespace Warphold.Fleet

structure Admin where
  id : ℕ
  email : Str
  pwHash : Str
  account : ℕ
  version : ℕ
  deriving DecidableEq

structure SessionRow where
  id : ℕ
  tokenHash : Str
  adminID : ℕ
  expiresAt : ℤ
  revoked : Bool
  serial : ℕ
  account : ℕ
  version : ℕ
  deriving DecidableEq

structure Passwords where
  hash : (password salt : Str) → Str
  verify : (password hash : Str) → Bool

inductive LoggingIn where
  | read (row : Option Admin)
  | verified (row : Admin)
  deriving DecidableEq

inductive Changing where
  | authorized (sess : SessionRow)
  | loaded (sess : SessionRow) (row : Admin)
  | verified (sess : SessionRow) (pwHash : Str)
  | stored (sess : SessionRow) (account version : ℕ)
  deriving DecidableEq

structure Changed where
  account : ℕ
  session : ℕ
  version : ℕ
  deriving DecidableEq

structure Logins where
  admins : List Admin
  sessions : List SessionRow
  logging : ℕ → Option LoggingIn
  changing : ℕ → Option Changing
  changed : List Changed
  clock : ℕ

/-- `ok` tells whether a statement that can fail does; a failure ends its request. -/
inductive LoginAction where
  | loginRead (i : ℕ) (email : Str)
  | loginVerify (i : ℕ) (password : Str)
  | loginCreate (i : ℕ) (tokenHash : Str) (now : ℤ) (ok : Bool)
  | changeAuthorize (i : ℕ) (tokenHash : Str) (now : ℤ)
  | changeLoad (i : ℕ) (ok : Bool)
  | changeVerify (i : ℕ) (current new salt : Str)
  | changeStore (i : ℕ) (ok : Bool)
  | changeRevoke (i : ℕ) (ok : Bool)
  | createAdmin (email password salt : Str)
  | deleteAdmin (id : ℕ)
  | logout (id : ℕ)

def sessionTTL : ℤ := 12 * 3600 * 10 ^ 9

def minPasswordLen : ℕ := 8

def nextID (ids : List ℕ) : ℕ := ids.foldl max 0 + 1

namespace Logins

variable (P : Passwords)

def adminByEmail (s : Logins) (email : Str) : Option Admin := s.admins.find? fun a => a.email = email

def adminByID (s : Logins) (id : ℕ) : Option Admin := s.admins.find? fun a => a.id = id

/-- `currentSession`: the session behind a cookie, by the hash of its token. -/
def currentSession (s : Logins) (tokenHash : Str) (now : ℤ) : Option SessionRow :=
  (s.sessions.find? fun r => r.tokenHash = tokenHash).filter fun r => !r.revoked && now < r.expiresAt

def insertAdmin (s : Logins) (email pwHash : Str) : Option Logins :=
  if s.admins.any fun a => a.email = email then none
  else some { s with
    admins := ⟨nextID (s.admins.map (·.id)), email, pwHash, s.clock, s.clock⟩ :: s.admins }

def updateAdminPassword (s : Logins) (id : ℕ) (pwHash : Str) : Logins :=
  { s with
    admins := s.admins.map fun a =>
      if a.id = id then { a with pwHash := pwHash, version := s.clock } else a }

/-- `DeleteAdmin`, which spares the last admin; the admin's sessions go with the row. -/
def removeAdmin (s : Logins) (id : ℕ) : Logins :=
  if 1 < s.admins.length then
    { s with
      admins := s.admins.filter fun a => a.id ≠ id
      sessions := s.sessions.filter fun r => r.adminID ≠ id }
  else s

/-- `CreateSession`: the token is unique, and the admin's row has to be there. -/
def insertSession (s : Logins) (tokenHash : Str) (row : Admin) (expiresAt : ℤ) : Option Logins :=
  if (s.sessions.any fun r => r.tokenHash = tokenHash) || !(s.admins.any fun a => a.id = row.id) then
    none
  else some { s with
    sessions := ⟨nextID (s.sessions.map (·.id)), tokenHash, row.id, expiresAt, false, s.clock,
      row.account, row.version⟩ :: s.sessions }

def revokeWhere (s : Logins) (p : SessionRow → Bool) : Logins :=
  { s with sessions := s.sessions.map fun r => if p r then { r with revoked := true } else r }

def revokeSessionsForAdminExcept (s : Logins) (adminID exceptID : ℕ) : Logins :=
  s.revokeWhere fun r => r.adminID = adminID && r.id ≠ exceptID

def setLogging (s : Logins) (i : ℕ) (l : Option LoggingIn) : Logins :=
  { s with logging := Function.update s.logging i l }

def setChanging (s : Logins) (i : ℕ) (c : Option Changing) : Logins :=
  { s with changing := Function.update s.changing i c }

def tick (s : Logins) : Logins := { s with clock := s.clock + 1 }

def stepLogin (s : Logins) : LoginAction → Option Logins
  | .loginRead i email =>
    if s.logging i ≠ none then none
    else some (s.setLogging i (some (.read (s.adminByEmail email))))
  | .loginVerify i password =>
    match s.logging i with
    | some (.read (some row)) =>
      if P.verify password row.pwHash then some (s.setLogging i (some (.verified row)))
      else some (s.setLogging i none)
    | some (.read none) => some (s.setLogging i none)
    | _ => none
  | .loginCreate i tokenHash now ok =>
    match s.logging i with
    | some (.verified row) =>
      some (((if ok then s.insertSession tokenHash row (now + sessionTTL) else none).getD s).setLogging
        i none)
    | _ => none
  | _ => none

def stepChange (s : Logins) : LoginAction → Option Logins
  | .changeAuthorize i tokenHash now =>
    if s.changing i ≠ none then none
    else some (s.setChanging i ((s.currentSession tokenHash now).map .authorized))
  | .changeLoad i ok =>
    match s.changing i with
    | some (.authorized sess) =>
      some (s.setChanging i
        ((if ok then s.adminByID sess.adminID else none).map fun row => .loaded sess row))
    | _ => none
  | .changeVerify i current new salt =>
    match s.changing i with
    | some (.loaded sess row) =>
      if minPasswordLen ≤ new.length ∧ P.verify current row.pwHash then
        some (s.setChanging i (some (.verified sess (P.hash new salt))))
      else some (s.setChanging i none)
    | _ => none
  | .changeStore i ok =>
    match s.changing i with
    | some (.verified sess pwHash) =>
      -- an UPDATE that changes no row is an error
      match if ok then s.adminByID sess.adminID else none with
      | some row =>
        some ((s.updateAdminPassword sess.adminID pwHash).setChanging i
          (some (.stored sess row.account s.clock)))
      | none => some (s.setChanging i none)
    | _ => none
  | .changeRevoke i ok =>
    match s.changing i with
    | some (.stored sess account version) =>
      if ok then
        some ({ s.revokeSessionsForAdminExcept sess.adminID sess.id with
          changed := ⟨account, sess.serial, version⟩ :: s.changed }.setChanging i none)
      else some (s.setChanging i none)
    | _ => none
  | _ => none

def step (s : Logins) (a : LoginAction) : Option Logins :=
  (match a with
    | .loginRead .. | .loginVerify .. | .loginCreate .. => stepLogin P s a
    | .createAdmin email password salt =>
      if minPasswordLen ≤ password.length then
        some ((s.insertAdmin email (P.hash password salt)).getD s)
      else some s
    | .deleteAdmin id => some (s.removeAdmin id)
    | .logout id => some (s.revokeWhere fun r => r.id = id)
    | _ => stepChange P s a).map tick

end Logins

end Warphold.Fleet
