import Warphold.Lib.Strings

/-!
# Effective policies and policy trees

A policy sets some of its settings; what it leaves unset comes from the policy of the directory above,
and so on up to the user's, the host's and the global policy and the defaults. The effective policy of
a path is computed by merging this list. For a snapshot source, a tree of policies is built once and
followed from directory to directory.

Most settings are merged alike: the first policy that sets one decides. The lists of `Collected`
accumulate until a policy says that its parents' are not to be added; they are kept sorted and without
duplicates, and are sets here. The folder actions, which are not inherited, are left out. A path is the
list of its names, innermost first.
-/

namespace Warphold.Policies

inductive Setting where
  | keepLatest | keepHourly | keepDaily | keepWeekly | keepMonthly | keepAnnual
  | ignoreIdenticalSnapshots
  | ignoreRules | noParentIgnoreRules | dotIgnoreFiles | noParentDotIgnoreFiles
  | ignoreCacheDirectories | maxFileSize | oneFileSystem
  | ignoreFileErrors | ignoreDirectoryErrors | ignoreUnknownTypes
  | intervalSeconds | cron | manual | runMissed
  | maxParallelSnapshots | maxParallelFileReads | parallelUploadAboveSize
  | compressorName | minSize | maxSize
  | metadataCompressorName | splitterAlgorithm
  | beforeSnapshotRoot | afterSnapshotRoot
  | enableVolumeShadowCopy
  | dirSnapshotted | dirIgnored | entrySnapshotted | entryIgnored | entryCacheHit | entryCacheMiss
deriving DecidableEq

inductive Collected where
  | onlyCompress
  | neverCompress
  | timesOfDay
deriving DecidableEq

structure Collection (τ : Type) where
  items : Finset τ := ∅
  noParent : Bool := false

structure Policy (ν τ : Type) where
  setting : Setting → Option ν := fun _ => none
  collected : Collected → Collection τ := fun _ => {}
  noParent : Bool := false

variable {ν τ : Type} [DecidableEq τ]

section Merge

def Collection.merge (target src : Collection τ) : Collection τ :=
  if target.noParent then target
  else ⟨target.items ∪ src.items, src.noParent⟩

def Policy.merge (p src : Policy ν τ) : Policy ν τ where
  setting k := (p.setting k).or (src.setting k)
  collected c := (p.collected c).merge (src.collected c)
  noParent := p.noParent

/-- The policies are merged from the most specific on, until one has no parent. -/
def mergeInto (default : Policy ν τ) (merged : Policy ν τ) : List (Policy ν τ) → Policy ν τ
  | [] => merged.merge default
  | p :: rest => if p.noParent then merged.merge p else mergeInto default (merged.merge p) rest

def mergePolicies (default : Policy ν τ) (policies : List (Policy ν τ)) : Policy ν τ :=
  mergeInto default {} policies

end Merge

abbrev Path := List Str

structure Stored (ν τ : Type) where
  paths : List (Path × Policy ν τ)
  user : Option (Policy ν τ)
  host : Option (Policy ν τ)
  global : Option (Policy ν τ)
  default : Policy ν τ

section Effective

variable (st : Stored ν τ)

def Stored.ofPaths : Path → List (Policy ν τ)
  | [] => (st.paths.lookup []).toList
  | c :: p => (st.paths.lookup (c :: p)).toList ++ Stored.ofPaths p

def Stored.getPolicyHierarchy (p : Path) : List (Policy ν τ) :=
  let policies := st.ofPaths p ++ st.user.toList ++ st.host.toList ++ st.global.toList
  -- an artificial empty policy for the source
  if (st.paths.lookup p).isNone then {} :: policies else policies

def Stored.getEffectivePolicy (p : Path) : Policy ν τ := mergePolicies st.default (st.getPolicyHierarchy p)

end Effective

section Tree

inductive Tree (ν τ : Type) where
  | node (effective : Policy ν τ) (inherited : Bool) (children : List (Str × Tree ν τ))

def Tree.effectivePolicy : Tree ν τ → Policy ν τ
  | .node effective _ _ => effective

def Tree.child (name : Str) : Tree ν τ → Tree ν τ
  | .node effective inherited children =>
    match children.lookup name with
    | some ch => ch
    | none =>
      if children.isEmpty && inherited then .node effective inherited children
      else .node effective true []

def Tree.descend (t : Tree ν τ) : Path → Tree ν τ
  | [] => t
  | c :: r => (t.descend r).child c

def nextName (path key : Path) : Option Str :=
  if path <:+ key then (key.take (key.length - path.length)).getLast? else none

/-- The policies below `path`, by the name of the entry of `path` they are for or below. -/
def childrenWithPrefix (defined : List (Path × Policy ν τ)) (path : Path) :
    List (Str × List (Path × Policy ν τ)) :=
  ((defined.filterMap fun kv => nextName path kv.1).dedup).map fun c =>
    (c, defined.filter fun kv => nextName path kv.1 = some c)

def buildTreeNode : Nat → List (Path × Policy ν τ) → Path → Policy ν τ → Tree ν τ
  | 0, defined, path, default =>
    .node ((defined.lookup path).getD default) (defined.lookup path).isNone []
  | n + 1, defined, path, default =>
    let effective := (defined.lookup path).getD default
    .node effective (defined.lookup path).isNone
      ((childrenWithPrefix defined path).map fun cd =>
        (cd.1, buildTreeNode n cd.2 (cd.1 :: path) effective))

variable (st : Stored ν τ)

def Stored.nested (source : Path) : List (Path × Policy ν τ) :=
  st.paths.filterMap fun kv =>
    if source <:+ kv.1 ∧ kv.1 ≠ source then some (kv.1.take (kv.1.length - source.length), kv.2) else none

def Stored.applicablePoliciesForSource (source : Path) : List (Path × Policy ν τ) :=
  ([], st.getEffectivePolicy source) :: st.nested source

def maxDepth (defined : List (Path × Policy ν τ)) : Nat := (defined.map fun kv => kv.1.length).foldr max 0

def Stored.treeForSource (source : Path) : Tree ν τ :=
  let defined := st.applicablePoliciesForSource source
  buildTreeNode (maxDepth defined) defined [] st.default

end Tree

end Warphold.Policies
