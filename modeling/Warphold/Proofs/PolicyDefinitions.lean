import Warphold.Policy.Definitions

/-!
# What a merged policy says of its settings

The merge is a fold over the policies it uses (`mergeDefinedInto_eq`), and a fold takes each setting
and its definition from the first policy that sets it (`foldl_merge`).
-/

namespace Warphold.Policies

open List

variable {σ α ν τ : Type}

/-- The policies up to and including the first that has no parent. -/
def applied : List (Defined σ α ν τ) → List (Defined σ α ν τ)
  | [] => []
  | p :: rest => if p.noParent then [p] else p :: applied rest

def used (default : Defined σ α ν τ) (ps : List (Defined σ α ν τ)) : List (Defined σ α ν τ) :=
  applied ps ++ if ps.any (·.noParent) then [] else [default]

def decides (ps : List (Defined σ α ν τ)) (k : Setting) : Option (Defined σ α ν τ) :=
  ps.find? fun p => (p.setting k).isSome

/-- Each setting and its definition are from the most specific policy that sets it, the defaults being
the last, and the folder actions from the first. -/
structure AsDefined (default : Defined σ α ν τ) (ps : List (Defined σ α ν τ))
    (m : Merged σ α ν τ) : Prop where
  setting : ∀ k, m.policy.setting k = (decides (applied ps ++ [default]) k).bind (·.setting k)
  definition : ∀ k,
    m.definition k = ((decides (applied ps ++ [default]) k).map (·.target)).getD default.target
  folders : m.folderActions = (ps.head?.map (·.folderActions)).getD {}

lemma decides_append (ps : List (Defined σ α ν τ)) (default : Defined σ α ν τ) (k : Setting) :
    decides (ps ++ [default]) k
      = (decides ps k).or (if (default.setting k).isSome then some default else none) := by
  rw [decides, find?_append]
  congr 1
  cases h : (default.setting k).isSome <;> simp [h]

variable [DecidableEq τ]

lemma foldl_merge (k : Setting) : ∀ (l : List (Defined σ α ν τ)) (m : Merged σ α ν τ),
    (l.foldl Merged.merge m).policy.setting k
        = (m.policy.setting k).or ((decides l k).bind (·.setting k))
      ∧ (l.foldl Merged.merge m).definition k
        = if (m.policy.setting k).isSome then m.definition k
          else ((decides l k).map (·.target)).getD (m.definition k)
  | [], m => by simp [decides]
  | p :: l, m => by
    obtain ⟨hs, hd⟩ := foldl_merge k l (m.merge p)
    rw [foldl_cons, hs, hd]
    rcases hm : m.policy.setting k with _ | v <;> rcases hp : p.setting k with _ | w <;>
      simp [decides, Merged.merge, Policy.merge, hm, hp]

lemma mergeDefinedInto_eq (default : Defined σ α ν τ) (own : FolderActions α) :
    ∀ (ps : List (Defined σ α ν τ)) (m : Merged σ α ν τ),
      mergeDefinedInto default own m ps = { (used default ps).foldl Merged.merge m with
        folderActions := if ps.any (·.noParent) then m.folderActions else own }
  | [], m => by simp [mergeDefinedInto, used, applied]
  | p :: ps, m => by
    rcases hp : p.noParent with _ | _
    · simp [mergeDefinedInto, used, applied, hp, mergeDefinedInto_eq default own ps, Merged.merge]
    · simp [mergeDefinedInto, used, applied, hp, Merged.merge]

/-- The source's own policy refuses its parents and has a folder action. -/
def refusing : Defined Nat Nat Nat Nat :=
  { noParent := true, target := 1, folderActions := { beforeFolder := some 7 } }

end Warphold.Policies
