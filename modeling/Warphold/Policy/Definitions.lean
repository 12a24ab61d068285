import Warphold.Policy.Tree

/-!
# Where settings are defined

Merging a chain of policies also says which policy each setting is from. The folder actions are not
inherited: they are copied from the first policy of the chain when the loop over it has ended.

The zero value of a definition names the global policy, which the defaults are attributed to as well.
-/

namespace Warphold.Policies

variable {σ α ν τ : Type} [DecidableEq τ]

structure FolderActions (α : Type) where
  beforeFolder : Option α := none
  afterFolder : Option α := none
deriving DecidableEq

structure Defined (σ α ν τ : Type) extends Policy ν τ where
  target : σ
  folderActions : FolderActions α := {}

structure Merged (σ α ν τ : Type) where
  policy : Policy ν τ := {}
  definition : Setting → σ
  folderActions : FolderActions α := {}

def Merged.merge (m : Merged σ α ν τ) (p : Defined σ α ν τ) : Merged σ α ν τ where
  policy := m.policy.merge p.toPolicy
  definition k :=
    if (m.policy.setting k).isNone && (p.setting k).isSome then p.target else m.definition k
  folderActions := m.folderActions

def mergeDefinedInto (default : Defined σ α ν τ) (own : FolderActions α) (m : Merged σ α ν τ) :
    List (Defined σ α ν τ) → Merged σ α ν τ
  | [] => { m.merge default with folderActions := own }
  | p :: rest =>
    if p.noParent then m.merge p else mergeDefinedInto default own (m.merge p) rest

def mergeDefined (default : Defined σ α ν τ) (policies : List (Defined σ α ν τ)) : Merged σ α ν τ :=
  mergeDefinedInto default ((policies.head?.map (·.folderActions)).getD {})
    { definition := fun _ => default.target } policies

end Warphold.Policies
