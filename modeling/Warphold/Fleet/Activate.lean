import Warphold.Fleet.Seal
import Warphold.Lib.Runs

/-!
# Activation

Activating looks for the key file and the database, and if neither is there creates the database with
the first admin and the salt, writes the key file last, and loads both. A failure on the way removes
what is there. The lock that serializes activations is one of the process; the state directory is
shared by all, and each call on it is one step here. A server that is not activated loads what it finds
once the key file is there.

A name of the directory refers to a file, and a process that opened a file goes on with it when the
name is removed or given to another.
-/

namespace Warphold.Fleet

structure ActivationReq where
  passphrase : Str
  email : Str
  password : Str
  deriving DecidableEq

structure FleetDb where
  admins : List Str
  salt : Option Str
  deriving DecidableEq

/-- How far a process is with an activation, with removing what is left of one, or with loading the
state of another process. -/
inductive Activating where
  | starting (req : ActivationReq)
  | keyAbsent (req : ActivationReq)
  | checked (req : ActivationReq)
  | salted (req : ActivationReq) (salt : Str)
  | opened (req : ActivationReq) (salt : Str) (file : ℕ)
  | adminCreated (req : ActivationReq) (salt : Str) (file : ℕ)
  | settingsSet (req : ActivationReq) (salt : Str)
  | keyWritten (req : ActivationReq) (salt : Str)
  | keyRead (req : ActivationReq) (salt : Str)
  | removingKey
  | removingDb
  | reloadKey
  | reloadDb
  deriving DecidableEq

/-- `writing` are the processes that are past the check of their activation; the code has no record
of them, nor of the activations that returned success. -/
structure StateDir where
  keyFile : Option Key
  db : Option ℕ
  files : ℕ → FleetDb
  nextFile : ℕ
  acting : ℕ → Option Activating
  activated : ℕ → Bool
  writing : List ℕ
  succeeded : List ActivationReq

/-- `i` is the process; `ok` tells whether a call that can fail does. -/
inductive ActivateAction where
  | activate (i : ℕ) (req : ActivationReq)
  | statKey (i : ℕ)
  | statDb (i : ℕ)
  | validate (i : ℕ) (salt : Str) (ok : Bool)
  | openDb (i : ℕ) (ok : Bool)
  | createAdmin (i : ℕ) (ok : Bool)
  | setSettings (i : ℕ) (ok : Bool)
  | writeKey (i : ℕ) (ok : Bool)
  | readKey (i : ℕ) (ok : Bool)
  | loadDb (i : ℕ) (ok : Bool)
  | removeKey (i : ℕ) (ok : Bool)
  | removeDb (i : ℕ) (ok : Bool)
  | reload (i : ℕ)
  | crash (i : ℕ)

/-- The check of `Activate` on its arguments, the address in its one spelling. -/
def ActivationReq.valid (req : ActivationReq) : Bool :=
  8 ≤ req.passphrase.length && 8 ≤ req.password.length && req.email.contains 64

namespace StateDir

variable (c : Crypto)

def go (s : StateDir) (i : ℕ) (a : Activating) : StateDir :=
  { s with acting := Function.update s.acting i (some a) }

def leave (s : StateDir) (i : ℕ) : StateDir :=
  { s with acting := Function.update s.acting i none, writing := s.writing.filter (· ≠ i) }

def openStore (s : StateDir) : StateDir × ℕ :=
  match s.db with
  | some f => (s, f)
  | none =>
    ({ s with
      db := some s.nextFile
      files := Function.update s.files s.nextFile ⟨[], none⟩
      nextFile := s.nextFile + 1 }, s.nextFile)

def setFile (s : StateDir) (f : ℕ) (d : FleetDb) : StateDir :=
  { s with files := Function.update s.files f d }

def stepCheck (s : StateDir) : ActivateAction → Option StateDir
  | .activate i req =>
    if s.acting i ≠ none then none else some (if s.activated i then s else s.go i (.starting req))
  | .statKey i =>
    match s.acting i with
    | some (.starting req) =>
      some (if s.keyFile.isSome then s.leave i else s.go i (.keyAbsent req))
    | _ => none
  | .statDb i =>
    match s.acting i with
    | some (.keyAbsent req) =>
      some (if s.db.isSome then s.leave i
        else { s with writing := i :: s.writing }.go i (.checked req))
    | _ => none
  | .validate i salt ok =>
    match s.acting i with
    | some (.checked req) =>
      some (if ok && req.valid then s.go i (.salted req salt) else s.leave i)
    | _ => none
  | _ => none

def stepFill (s : StateDir) : ActivateAction → Option StateDir
  | .openDb i ok =>
    match s.acting i with
    | some (.salted req salt) =>
      let r := s.openStore
      some (if ok then r.1.go i (.opened req salt r.2) else r.1.go i .removingKey)
    | _ => none
  | .createAdmin i ok =>
    match s.acting i with
    | some (.opened req salt f) =>
      -- the address is unique
      some (if ok && !(s.files f).admins.contains req.email then
        (s.setFile f { s.files f with admins := req.email :: (s.files f).admins }).go i
          (.adminCreated req salt f)
      else s.go i .removingKey)
    | _ => none
  | .setSettings i ok =>
    match s.acting i with
    | some (.adminCreated req salt f) =>
      some (if ok then (s.setFile f { s.files f with salt := some salt }).go i (.settingsSet req salt)
        else s.go i .removingKey)
    | _ => none
  | _ => none

/-- `writeActivation` from the key file on, `removePartialState`, and `reload`. -/
def stepKey (s : StateDir) : ActivateAction → Option StateDir
  | .writeKey i ok =>
    match s.acting i with
    | some (.settingsSet req salt) =>
      some (if ok then
        { s with keyFile := some (c.derive req.passphrase salt) }.go i (.keyWritten req salt)
      else s.go i .removingKey)
    | _ => none
  | .readKey i ok =>
    match s.acting i with
    | some (.keyWritten req salt) =>
      some (if ok && s.keyFile.isSome then s.go i (.keyRead req salt) else s.go i .removingKey)
    | some .reloadKey => some (if ok && s.keyFile.isSome then s.go i .reloadDb else s.leave i)
    | _ => none
  | .loadDb i ok =>
    match s.acting i with
    | some (.keyRead req _) =>
      let r := s.openStore
      some (if ok then
        { r.1 with
          activated := Function.update r.1.activated i true
          succeeded := req :: r.1.succeeded }.leave i
      else r.1.go i .removingKey)
    | some .reloadDb =>
      let r := s.openStore
      some ((if ok then { r.1 with activated := Function.update r.1.activated i true } else r.1).leave
        i)
    | _ => none
  | .removeKey i ok =>
    match s.acting i with
    | some .removingKey => some ((if ok then { s with keyFile := none } else s).go i .removingDb)
    | _ => none
  | .removeDb i ok =>
    match s.acting i with
    | some .removingDb => some ((if ok then { s with db := none } else s).leave i)
    | _ => none
  | .reload i =>
    if s.acting i ≠ none ∨ s.activated i then none
    else some (if s.keyFile.isSome then s.go i .reloadKey else s)
  | _ => none

def step (s : StateDir) (a : ActivateAction) : Option StateDir :=
  match a with
  | .activate .. | .statKey .. | .statDb .. | .validate .. => stepCheck s a
  | .openDb .. | .createAdmin .. | .setSettings .. => stepFill s a
  | .crash i => some { s.leave i with activated := Function.update s.activated i false }
  | _ => stepKey c s a

end StateDir

end Warphold.Fleet
