import Warphold.Content.Manager

/-!
# Entries in builders and indexes

A builder and a list of indexes resolve a content's entries alike: what is added takes over if it is
greater. The entry of a builder is found in exactly one of its shards.
-/

namespace Warphold.Content

open List AList

namespace Builder

variable {b : Builder} {c : ID} {i : Info}

/-- Every entry stands under its own content's ID. -/
def Keyed (b : Builder) : Prop := ∀ c i, b.lookup c = some i → i.contentID = c

lemma lookup_add (b : Builder) (i : Info) (c : ID) :
    (b.add i).lookup c = if c = i.contentID then newer (b.lookup c) i else b.lookup c := by
  unfold add newer
  by_cases hc : c = i.contentID
  · subst hc
    rw [if_pos rfl]
    cases hb : b.lookup i.contentID with
    | none => exact lookup_insert b
    | some old =>
      simp only []
      split_ifs
      · exact lookup_insert b
      · exact hb
  · rw [if_neg hc]
    cases b.lookup i.contentID with
    | none => exact lookup_insert_ne hc
    | some old =>
      simp only []
      split_ifs
      · exact lookup_insert_ne hc
      · rfl

lemma lookup_addAll (c : ID) : ∀ (is : List Info) (b : Builder),
    (b.addAll is).lookup c = (is.filter (·.contentID = c)).foldl newer (b.lookup c)
  | [], _ => rfl
  | i :: is, b => by
    rw [addAll, foldl_cons]
    refine (lookup_addAll c is (b.add i)).trans ?_
    rw [lookup_add, filter_cons]
    by_cases hc : i.contentID = c
    · simp [hc]
    · simp [hc, Ne.symm hc]

lemma mem_infos : i ∈ b.infos ↔ ∃ c, b.lookup c = some i := by
  unfold infos
  rw [mem_map]
  constructor
  · rintro ⟨⟨c, i'⟩, hmem, rfl⟩
    exact ⟨c, mem_lookup_iff.2 hmem⟩
  · rintro ⟨c, hc⟩
    exact ⟨⟨c, i⟩, mem_lookup_iff.1 hc, rfl⟩

lemma filter_entries (c : ID) : ∀ l : List (Sigma fun _ : ID => Info),
    (l.filter (·.1 = c)).map (·.2) = l.lookupAll c
  | [] => rfl
  | ⟨k, v⟩ :: l => by
    by_cases hk : k = c
    · subst hk
      simp [filter_entries k l]
    · have hne : c ≠ (⟨k, v⟩ : Sigma fun _ : ID => Info).1 := Ne.symm hk
      rw [lookupAll_cons_ne _ _ hne]
      simp [hk, filter_entries c l]

lemma Keyed.filter_infos (h : b.Keyed) (c : ID) :
    b.infos.filter (·.contentID = c) = (b.lookup c).toList := by
  rw [AList.lookup, ← lookupAll_eq_dlookup c b.nodupKeys, ← filter_entries, infos,
    filter_map]
  congr 1
  refine filter_congr fun e he => ?_
  have := h e.1 e.2 (AList.mem_lookup_iff.2 he)
  simp [this]

lemma Keyed.find?_infos (h : b.Keyed) (c : ID) :
    b.infos.find? (·.contentID = c) = b.lookup c := by
  rw [← head?_filter, h.filter_infos c]
  cases b.lookup c <;> rfl

lemma Keyed.insert (h : b.Keyed) : Keyed (insert i.contentID i b) := by
  intro c i' hi'
  by_cases hc : c = i.contentID
  · subst hc
    rw [lookup_insert, Option.some.injEq] at hi'
    rw [hi']
  · rw [lookup_insert_ne hc] at hi'
    exact h c i' hi'

lemma Keyed.erase (h : b.Keyed) (c : ID) : Keyed (erase c b) := by
  intro c' i hi
  by_cases hc : c' = c
  · subst hc
    rw [lookup_erase] at hi
    cases hi
  · rw [lookup_erase_ne hc] at hi
    exact h c' i hi

lemma Keyed.empty : Keyed ∅ := nofun

end Builder

section Shards

lemma Index.getInfo_map {f : Info → Info} (hf : ∀ i, (f i).contentID = i.contentID) (ndx : Index)
    (c : ID) : Index.getInfo (ndx.map f) c = (ndx.getInfo c).map f := by
  unfold Index.getInfo
  rw [find?_map]
  congr 2
  funext i
  simp [hf i]

lemma Merged.getInfo_append (m m' : List Index) (c : ID) :
    Merged.getInfo (m ++ m') c
      = (m'.filterMap fun ndx => ndx.getInfo c).foldl newer (Merged.getInfo m c) := by
  unfold Merged.getInfo
  rw [filterMap_append, foldl_append]

lemma filterMap_ite_eq {α : Type} {j : ℕ} (o : Option α) : ∀ {l : List ℕ}, l.Nodup → j ∈ l →
    l.filterMap (fun k => if j = k then o else none) = o.toList
  | k :: l, hl, hk => by
    obtain ⟨hnot, hl⟩ := nodup_cons.1 hl
    rcases mem_cons.1 hk with rfl | hk
    · have hnone : l.filterMap (fun k => if j = k then o else none) = [] := by
        rw [filterMap_eq_nil_iff]
        intro k hk
        exact if_neg fun heq : j = k => hnot (heq ▸ hk)
      rw [filterMap_cons, if_pos rfl, hnone]
      cases o <;> rfl
    · rw [filterMap_cons, if_neg fun heq : j = k => hnot (heq ▸ hk)]
      exact filterMap_ite_eq o hl hk

lemma Builder.Keyed.getInfo_part {b : Builder} (h : b.Keyed) (f : ID → ℕ) (k : ℕ) (c : ID) :
    Index.getInfo ((b.entries.filter fun e => f e.1 = k).map (·.2)) c
      = if f c = k then b.lookup c else none := by
  have hkey : ∀ e ∈ b.entries, e.2.contentID = e.1 := fun e he =>
    h e.1 e.2 (mem_lookup_iff.2 he)
  unfold Index.getInfo
  split_ifs with hc
  · rw [← h.find?_infos c, infos, find?_map, find?_map, find?_filter]
    congr 1
    refine find?_congr fun e he => ?_
    simp only [Function.comp_apply, hkey e he, decide_eq_true_eq]
    by_cases he : e.1 = c <;> simp [he, hc]
  · rw [find?_eq_none]
    intro i hi
    obtain ⟨e, he, rfl⟩ := mem_map.1 hi
    obtain ⟨he, hk⟩ := mem_filter.1 he
    simp only [hkey e he, decide_eq_true_eq] at hk ⊢
    rintro rfl
    exact hc hk

lemma Builder.Keyed.getInfo_shard {b : Builder} (h : b.Keyed) (n : ℕ) (c : ID) :
    ((b.shard n).filterMap fun ndx => Index.getInfo ndx c) = (b.lookup c).toList := by
  unfold Builder.shard
  simp only []
  split_ifs with hn hnil
  · rw [AList.lookup, hnil]
    rfl
  · rw [← h.find?_infos c]
    unfold Index.getInfo
    cases hf : b.infos.find? (·.contentID = c) <;> simp [hf]
  · rw [filterMap_filter, filterMap_map]
    refine Eq.trans (filterMap_congr fun k _ => ?_) (filterMap_ite_eq (b.lookup c)
      (nodup_range (n := (b.entries.length + n - 1) / n)) (j := fnv32a c.string % _)
      (mem_range.2 (Nat.mod_lt _ (by omega))))
    rw [← h.getInfo_part (fun c => fnv32a c.string % ((b.entries.length + n - 1) / n))]
    simp only [Function.comp_apply]
    split_ifs with hne
    · rfl
    · simp only [decide_eq_true_eq, ne_eq, not_not] at hne
      rw [hne]
      rfl

end Shards

lemma IndexVersion.contentID_stored (v : IndexVersion) (overhead : ℕ) (i : Info) :
    (v.stored overhead i).contentID = i.contentID := by
  cases v <;> rfl

end Warphold.Content
