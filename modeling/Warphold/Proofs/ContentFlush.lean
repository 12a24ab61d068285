import Warphold.Proofs.ContentIndex
import Warphold.Lib.Runs

/-!
# Flushing the index

The shards of the unflushed index are built one by one, and looking in them after the indexes in use
finds what the index has, as it was stored.
-/

namespace Warphold.Content

open List Option

lemma Builder.mem_shard {b : Builder} {n : ℕ} {ndx : List Info} (h : ndx ∈ b.shard n) :
    ndx ≠ [] ∧ ndx ⊆ b.infos := by
  unfold Builder.shard at h
  simp only [] at h
  split_ifs at h with hn hnil
  · cases h
  · rw [mem_singleton] at h
    subst h
    exact ⟨fun hnone => hnil (map_eq_nil_iff.1 hnone), Subset.refl _⟩
  · obtain ⟨hmem, hne⟩ := mem_filter.1 h
    obtain ⟨k, -, rfl⟩ := mem_map.1 hmem
    exact ⟨of_decide_eq_true hne, map_subset _ (filter_subset_self _)⟩

lemma eq_of_mapM_build {v : IndexVersion} {overhead : ℕ} : ∀ {l : List (List Info)}
    {shards : List Index}, l.mapM (v.build overhead) = some shards →
    shards = l.map (·.map (v.stored overhead))
  | [], _, h => (some.inj h).symm
  | ndx :: l, shards, h => by
    rw [mapM_cons] at h
    obtain ⟨x, hx, h⟩ := bind_eq_some_iff.1 h
    obtain ⟨xs, hxs, h⟩ := bind_eq_some_iff.1 h
    unfold IndexVersion.build at hx
    split_ifs at hx
    rw [← some.inj h, ← some.inj hx, eq_of_mapM_build hxs, map_cons]

lemma getInfo_flushed {v : IndexVersion} {overhead n : ℕ} {b : Builder} (h : b.Keyed)
    (m : List Index) (c : ID) :
    Merged.getInfo (m ++ (b.shard n).map (·.map (v.stored overhead))) c
      = match b.lookup c with
        | none => Merged.getInfo m c
        | some i => newer (Merged.getInfo m c) (v.stored overhead i) := by
  have : ((b.shard n).map (·.map (v.stored overhead))).filterMap (fun ndx => Index.getInfo ndx c)
      = ((b.lookup c).map (v.stored overhead)).toList := by
    rw [filterMap_map, toList_map, ← h.getInfo_shard n, map_filterMap]
    refine filterMap_congr fun ndx _ => ?_
    exact Index.getInfo_map (v.contentID_stored overhead) ndx c
  rw [Merged.getInfo_append, this]
  cases b.lookup c <;> rfl

end Warphold.Content
