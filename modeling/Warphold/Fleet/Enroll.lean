import Warphold.Lib.Strings
import Warphold.Lib.Runs

/-!
# Enrollment and group changes

Enrolling spends a use of a token, reads the token's group and the group's target, inserts the agent
row, and provisions a repository on the target it read; it is not one transaction. Each statement on
the store is one step, so the steps of enrollments interleave with `UpdateGroup`, which refuses to
retarget a group with devices, and with `DeleteGroup`, which refuses to delete one with devices or
with live tokens.
-/

namespace Warphold.Fleet

structure Group where
  name : Str
  targetID : ℤ
  templateID : ℤ
  deleted : Bool
  deriving DecidableEq

structure Token where
  id : ℤ
  groupID : ℤ
  expiresAt : ℤ
  maxUses : ℕ
  uses : ℕ
  revoked : Bool
  deriving DecidableEq

/-- An agent's row. `repo` is the target its repository was provisioned on, once there is one. -/
structure Agent where
  id : Str
  groupID : ℤ
  revoked : Bool
  retired : Bool
  repo : Option ℤ
  deriving DecidableEq

structure Store where
  groups : ℤ → Option Group
  tokens : List Token
  agents : List Agent

inductive GroupErr where
  | errNotFound
  | errGroupInUse
  deriving DecidableEq, Repr

def Token.live (t : Token) (now : ℤ) : Bool :=
  !t.revoked && now < t.expiresAt && (t.maxUses = 0 || t.uses < t.maxUses)

namespace Store

def group (s : Store) (id : ℤ) : Option Group := (s.groups id).filter fun g => !g.deleted

def groupHasAgents (s : Store) (id : ℤ) : Bool := s.agents.any fun a => a.groupID = id && !a.retired

def createGroup (s : Store) (id : ℤ) (name : Str) (targetID templateID : ℤ) : Store :=
  { s with groups := Function.update s.groups id (some ⟨name, targetID, templateID, false⟩) }

def updateGroup (s : Store) (id : ℤ) (name : Option Str) (targetID templateID : Option ℤ) :
    Store × Option GroupErr :=
  match s.group id with
  | none => (s, some .errNotFound)
  | some g =>
    if targetID.getD g.targetID = g.targetID ∨ !s.groupHasAgents id then
      ({ s with groups := Function.update s.groups id (some { g with
          name := name.getD g.name
          targetID := targetID.getD g.targetID
          templateID := templateID.getD g.templateID }) }, none)
    else (s, some .errGroupInUse)

/-- `DeleteGroup`'s first statement: tokens that no longer authorize anything go. -/
def deleteStaleTokens (s : Store) (id now : ℤ) : Store :=
  { s with tokens := s.tokens.filter fun t => t.groupID ≠ id || t.live now }

def stampDeleted (s : Store) (id now : ℤ) : Store × Option GroupErr :=
  match s.group id with
  | none => (s, some .errNotFound)
  | some g =>
    if s.groupHasAgents id || s.tokens.any fun t => t.groupID = id && t.live now then
      (s, some .errGroupInUse)
    else ({ s with groups := Function.update s.groups id (some { g with deleted := true }) }, none)

def createToken (s : Store) (t : Token) : Store := { s with tokens := t :: s.tokens }

def revokeToken (s : Store) (id : ℤ) : Store :=
  { s with tokens := s.tokens.map fun t => if t.id = id then { t with revoked := true } else t }

def consumeToken (s : Store) (id now : ℤ) : Store × Bool :=
  ({ s with tokens := s.tokens.map fun t =>
      if t.id = id && t.live now then { t with uses := t.uses + 1 } else t },
    s.tokens.any fun t => t.id = id && t.live now)

def createAgent (s : Store) (id : Str) (groupID : ℤ) : Option Store :=
  if s.agents.any fun a => a.id = id then none
  else some { s with agents := ⟨id, groupID, false, false, none⟩ :: s.agents }

def modifyAgent (s : Store) (id : Str) (f : Agent → Agent) : Store :=
  { s with agents := s.agents.map fun a => if a.id = id then f a else a }

def revokeAgent (s : Store) (id : Str) : Store := s.modifyAgent id fun a => { a with revoked := true }

def retireAgent (s : Store) (id : Str) : Store :=
  s.modifyAgent id fun a => if a.revoked then { a with retired := true } else a

def deleteAgent (s : Store) (id : Str) : Store :=
  { s with agents := s.agents.filter fun a => a.id ≠ id }

end Store

inductive Enrolling where
  | consumed (groupID : ℤ)
  | readGroup (groupID targetID : ℤ)
  | readTarget (groupID targetID : ℤ)
  | created (agentID : Str) (targetID : ℤ)
  | provisioned (agentID : Str)
  | failed (agentID : Str)
  deriving DecidableEq

structure Enrollments where
  store : Store
  enrolling : ℕ → Option Enrolling

/-- The statements of the enroll handler and of the admin handlers. A failure ends the request that
has it; `ok` tells whether a statement that can fail for other reasons does. -/
inductive EnrollAction where
  | consume (i : ℕ) (tokenID now : ℤ)
  | readGroup (i : ℕ)
  | readTarget (i : ℕ) (ok : Bool)
  | createAgent (i : ℕ) (id : Str) (ok : Bool)
  | provision (i : ℕ) (ok : Bool)
  | setBundle (i : ℕ) (ok : Bool)
  | cleanup (i : ℕ) (ok : Bool)
  | createGroup (id : ℤ) (name : Str) (targetID templateID : ℤ)
  | updateGroup (id : ℤ) (name : Option Str) (targetID templateID : Option ℤ)
  | deleteStaleTokens (id now : ℤ)
  | stampDeleted (id now : ℤ)
  | createToken (t : Token)
  | revokeToken (id : ℤ)
  | revokeAgent (id : Str)
  | retireAgent (id : Str)

namespace Enrollments

def setEnrolling (s : Enrollments) (i : ℕ) (e : Option Enrolling) : Enrollments :=
  { s with enrolling := Function.update s.enrolling i e }

def setStore (s : Enrollments) (st : Store) : Enrollments := { s with store := st }

def tokenGroup (s : Enrollments) (tokenID : ℤ) : Option ℤ :=
  (s.store.tokens.find? fun t => t.id = tokenID).map (·.groupID)

def step (s : Enrollments) : EnrollAction → Option Enrollments
  | .consume i tokenID now =>
    if s.enrolling i ≠ none then none
    else match s.tokenGroup tokenID, s.store.consumeToken tokenID now with
      | some g, (st, true) => some ((s.setStore st).setEnrolling i (some (.consumed g)))
      | _, _ => some s
  | .readGroup i =>
    match s.enrolling i with
    | some (.consumed g) =>
      some (s.setEnrolling i ((s.store.group g).map fun row => .readGroup g row.targetID))
    | _ => none
  | .readTarget i ok =>
    match s.enrolling i with
    | some (.readGroup g t) =>
      some (s.setEnrolling i (if ok then some (.readTarget g t) else none))
    | _ => none
  | .createAgent i id ok =>
    match s.enrolling i with
    | some (.readTarget g t) =>
      match if ok then s.store.createAgent id g else none with
      | some st => some ((s.setStore st).setEnrolling i (some (.created id t)))
      | none => some (s.setEnrolling i none)
    | _ => none
  | .provision i ok =>
    match s.enrolling i with
    | some (.created id t) =>
      if ok then
        some ((s.setStore (s.store.modifyAgent id fun a => { a with repo := some t })).setEnrolling i
          (some (.provisioned id)))
      else some (s.setEnrolling i (some (.failed id)))
    | _ => none
  | .setBundle i ok =>
    match s.enrolling i with
    | some (.provisioned id) => some (s.setEnrolling i (if ok then none else some (.failed id)))
    | _ => none
  | .cleanup i ok =>
    match s.enrolling i with
    | some (.failed id) =>
      some ((if ok then s.setStore (s.store.deleteAgent id) else s).setEnrolling i none)
    | _ => none
  | .createGroup id name targetID templateID =>
    if s.store.groups id = none then
      some (s.setStore (s.store.createGroup id name targetID templateID))
    else none
  | .updateGroup id name targetID templateID =>
    some (s.setStore (s.store.updateGroup id name targetID templateID).1)
  | .deleteStaleTokens id now => some (s.setStore (s.store.deleteStaleTokens id now))
  | .stampDeleted id now => some (s.setStore (s.store.stampDeleted id now).1)
  | .createToken t => some (s.setStore (s.store.createToken t))
  | .revokeToken id => some (s.setStore (s.store.revokeToken id))
  | .revokeAgent id => some (s.setStore (s.store.revokeAgent id))
  | .retireAgent id => some (s.setStore (s.store.retireAgent id))

end Enrollments

end Warphold.Fleet
