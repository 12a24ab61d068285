import Warphold.Content.IndexV2

/-!
# Building an index in shards

Both builders hash the content IDs into as many shards as the entries need and leave out those without
entries. The map-based builder makes a map of each shard and sorts it in buckets; the other takes the
entries off its tree from the least on and appends each to its shard.
-/

namespace Warphold.Content

def numShards (length maxShardSize : ℕ) : ℕ := (length + maxShardSize - 1) / maxShardSize

def shardOf (n : ℕ) (c : ID) : ℕ := Builder.fnv32a c.string % n

/-- What building shards of one version comes to; a shard size of zero is refused. -/
def buildShards {ε : Type} (build : List Info → Except ε Str) (maxShardSize : ℕ)
    (sorted : List (List Info)) : Option (Except ε (List Str)) :=
  if maxShardSize = 0 then none else some (sorted.mapM build)

namespace Builder

def part (n k : ℕ) (b : Builder) : Builder where
  entries := b.entries.filter fun e => shardOf n e.1 = k
  nodupKeys := b.nodupKeys.sublist List.filter_sublist

def shards (maxShardSize : ℕ) (b : Builder) : List Builder :=
  let n := numShards b.entries.length maxShardSize
  if n ≤ 1 then if b.entries = [] then [] else [b]
  else ((List.range n).map fun k => b.part n k).filter fun s => s.entries ≠ []

def sortedShards (maxShardSize : ℕ) (b : Builder) : List (List Info) :=
  (b.shards maxShardSize).map sortedContents

end Builder

structure DrainTree extends LLRB where
  len : Tree → ℕ
  deleteMin : Tree → Option (Info × Tree)
  len_eq_zero : ∀ t, len t = 0 ↔ ∀ k, get t k = none
  deleteMin_isSome : ∀ t, 0 < len t → (deleteMin t).isSome
  get_contentID : ∀ t k i, get t k = some i → i.contentID = k.contentID
  get_congr : ∀ t k k', k.contentID = k'.contentID → get t k = get t k'
  len_deleteMin : ∀ t i t', deleteMin t = some (i, t') → len t = len t' + 1
  get_deleteMin : ∀ t i t', deleteMin t = some (i, t') → get t i = some i
  deleteMin_least : ∀ t i t', deleteMin t = some (i, t') →
    ∀ k j, get t k = some j → j.contentID.less i.contentID ≠ true
  get_after : ∀ t i t', deleteMin t = some (i, t') → ∀ k, get t' k =
    if !i.contentID.less k.contentID && !k.contentID.less i.contentID then none else get t k

namespace OneUseBuilder

variable (T : DrainTree)

def sortedContents (t : T.Tree) : List Info :=
  match _h : T.deleteMin t with
  | none => []
  | some (i, t') => i :: sortedContents t'
termination_by T.len t
decreasing_by
  rw [T.len_deleteMin t i t' _h]
  omega

def distribute (n : ℕ) (is : List Info) : List (List Info) :=
  is.foldl (fun r i => r.modify (shardOf n i.contentID) (· ++ [i])) (List.replicate n [])

def sortedShards (maxShardSize : ℕ) (t : T.Tree) : List (List Info) :=
  let n := numShards (T.len t) maxShardSize
  if n ≤ 1 then if T.len t = 0 then [] else [sortedContents T t]
  else (distribute n (sortedContents T t)).filter (· ≠ [])

end OneUseBuilder

end Warphold.Content
