import Warphold.Content.Sharding
import Warphold.Proofs.IndexFormat

/-!
# The shards of the two builders

Both builders sort: what they give of the same entries are lists in the order of the IDs with the same
members, so they are the same lists, in every shard. The shards take the entries apart, but by a hash,
so one may have more entries than asked for.
-/

namespace Warphold.Content

open List Builder OneUseBuilder Option IndexV2

open IndexV2 (PrefixOk)

section Ascending

def Ascending (is : List Info) : Prop :=
  is.Pairwise fun i j => i.contentID.less j.contentID = true

lemma Ascending.nodup {is : List Info} (h : Ascending is) : is.Nodup :=
  h.imp fun {i j} hij heq => by
    rw [heq, ID.less_irrefl] at hij
    exact Bool.false_ne_true hij

lemma Ascending.ext {is js : List Info} (hi : Ascending is) (hj : Ascending js)
    (h : ∀ i, i ∈ is ↔ i ∈ js) : is = js :=
  ((perm_ext_iff_of_nodup hi.nodup hj.nodup).mpr h).eq_of_pairwise
    (fun _ _ _ _ h₁ h₂ => absurd h₂ (ID.less_asymm h₁)) hi hj

end Ascending

namespace OneUseBuilder

variable {T : DrainTree} {t t' : T.Tree} {m : Info}

lemma sortedContents_none (h : T.deleteMin t = none) : sortedContents T t = [] := by
  rw [sortedContents]
  split
  · rfl
  · next heq => rw [h] at heq; cases heq

lemma sortedContents_some (h : T.deleteMin t = some (m, t')) :
    sortedContents T t = m :: sortedContents T t' := by
  rw [sortedContents]
  split
  · next heq => rw [h] at heq; cases heq
  · next heq =>
    obtain ⟨rfl, rfl⟩ := Prod.mk.inj (some.inj (heq.symm.trans h))
    rfl

lemma get_after_iff (h : T.deleteMin t = some (m, t')) (i : Info) :
    T.get t' i = some i ↔ T.get t i = some i ∧ i ≠ m := by
  rw [T.get_after t m t' h]
  split_ifs with hsame
  · simp only [Bool.and_eq_true, Bool.not_eq_true'] at hsame
    have hid : i.contentID = m.contentID :=
      ID.eq_of_not_less (by simp [hsame.2]) (by simp [hsame.1])
    refine ⟨nofun, fun ⟨hget, hne⟩ => absurd ?_ hne⟩
    rw [T.get_congr t i m hid, T.get_deleteMin t m t' h] at hget
    exact (some.inj hget).symm
  · refine ⟨fun hget => ⟨hget, ?_⟩, And.left⟩
    rintro rfl
    simp [ID.less_irrefl] at hsame

lemma sortedContents_spec : ∀ (n : ℕ) (t : T.Tree), T.len t = n →
    Ascending (sortedContents T t) ∧ (∀ i, i ∈ sortedContents T t ↔ T.get t i = some i) ∧
      (sortedContents T t).length = n
  | 0, t, hn => by
    have hnone : T.deleteMin t = none := by
      cases h : T.deleteMin t with
      | none => rfl
      | some r => rw [T.len_deleteMin t r.1 r.2 h] at hn; omega
    rw [sortedContents_none hnone]
    refine ⟨Pairwise.nil, fun i => ?_, rfl⟩
    rw [(T.len_eq_zero t).mp hn i]
    simp
  | n + 1, t, hn => by
    obtain ⟨⟨m, t'⟩, h⟩ := isSome_iff_exists.mp (T.deleteMin_isSome t (by omega))
    obtain ⟨hasc, hmem, hlen⟩ := sortedContents_spec n t' (by
      have := T.len_deleteMin t m t' h
      omega)
    rw [sortedContents_some h]
    refine ⟨pairwise_cons.mpr ⟨fun j hj => ?_, hasc⟩, fun i => ?_, by
      rw [length_cons, hlen]⟩
    · obtain ⟨hget, hne⟩ := (get_after_iff h j).mp ((hmem j).mp hj)
      refine ID.less_of_ne_of_not_less (fun hid => hne ?_) (T.deleteMin_least t m t' h j j hget)
      rw [T.get_congr t j m hid.symm, T.get_deleteMin t m t' h] at hget
      exact (some.inj hget).symm
    · rw [mem_cons, hmem, get_after_iff h]
      constructor
      · rintro (rfl | ⟨hget, -⟩)
        · exact T.get_deleteMin t i t' h
        · exact hget
      · intro hget
        by_cases hi : i = m
        · exact .inl hi
        · exact .inr ⟨hget, hi⟩

lemma distribute_eq {n : ℕ} (is : List Info) : distribute n is =
    (range n).map fun k => is.filter fun i => shardOf n i.contentID = k := by
  induction is using reverseRecOn with
  | nil =>
    rw [distribute, foldl_nil]
    exact (map_const' ..).symm ▸ by simp
  | append_singleton is i ih =>
    rw [distribute, foldl_concat]
    change (distribute n is).modify _ _ = _
    rw [ih]
    refine ext_getElem (by simp) fun k hk hk' => ?_
    simp only [getElem_modify, getElem_map, getElem_range, filter_append]
    split_ifs with hki
    · simp [hki]
    · simp [hki]

end OneUseBuilder

namespace Builder

variable {b : Builder} {n : ℕ}

lemma Keyed.mem_infos_iff (hk : b.Keyed) (i : Info) :
    i ∈ b.infos ↔ b.lookup i.contentID = some i := by
  rw [mem_infos]
  constructor
  · rintro ⟨c, hc⟩
    rwa [hk c i hc]
  · exact fun h => ⟨_, h⟩

lemma mem_part (k : ℕ) (e : Sigma fun _ : ID => Info) :
    e ∈ (b.part n k).entries ↔ e ∈ b.entries ∧ shardOf n e.1 = k := by
  rw [part, mem_filter, decide_eq_true_eq]

lemma Keyed.part (hk : b.Keyed) (k : ℕ) : (b.part n k).Keyed := fun c i h =>
  hk c i (AList.mem_lookup_iff.mpr ((mem_part k _).mp (AList.mem_lookup_iff.mp h)).1)

lemma Keyed.mem_infos_part (hk : b.Keyed) (k : ℕ) (i : Info) :
    i ∈ (b.part n k).infos ↔ i ∈ b.infos ∧ shardOf n i.contentID = k := by
  rw [(hk.part k).mem_infos_iff, hk.mem_infos_iff]
  exact AList.mem_lookup_iff.trans ((mem_part k _).trans
    (and_congr_left' AList.mem_lookup_iff.symm))

variable (hk : b.Keyed) (hp : ∀ i ∈ b.infos, PrefixOk i.contentID)
include hk hp

lemma Keyed.ascending : Ascending b.sortedContents := sortedContents_ascending hk hp

lemma Keyed.sortedContents_part (k : ℕ) :
    (b.part n k).sortedContents = b.sortedContents.filter fun i => shardOf n i.contentID = k := by
  have hsub : ∀ i ∈ (b.part n k).infos, PrefixOk i.contentID := fun i hi =>
    hp i ((hk.mem_infos_part k i).mp hi).1
  refine ((hk.part k).ascending hsub).ext ((hk.ascending hp).sublist filter_sublist) fun i => ?_
  rw [mem_sortedContents hsub, hk.mem_infos_part, mem_filter,
    mem_sortedContents hp, decide_eq_true_eq]

lemma Keyed.sortedContents_perm : b.sortedContents.Perm b.infos :=
  (perm_ext_iff_of_nodup (hk.ascending hp).nodup
    ((nodup_infos hk).of_map _)).mpr (mem_sortedContents hp)

lemma Keyed.sortedShards_eq (size : ℕ) : b.sortedShards size =
      if numShards b.entries.length size ≤ 1 then
        if b.entries = [] then [] else [b.sortedContents]
      else ((range (numShards b.entries.length size)).map fun k => b.sortedContents.filter
        fun i => shardOf (numShards b.entries.length size) i.contentID = k).filter (· ≠ []) := by
  rw [sortedShards, shards]
  split_ifs
  · rfl
  · rfl
  · generalize numShards b.entries.length size = m
    induction range m with
    | nil => rfl
    | cons k ks ih =>
      have hpart := hk.sortedContents_part hp (n := m) k
      have hnil : (b.part m k).entries ≠ [] ↔ (b.part m k).sortedContents ≠ [] := by
        have hperm := (hk.part k (n := m)).sortedContents_perm fun i hi =>
          hp i ((hk.mem_infos_part k i).mp hi).1
        rw [not_iff_not, ← length_eq_zero_iff, ← length_eq_zero_iff, hperm.length_eq,
          infos, length_map]
      rw [map_cons, map_cons, filter_cons, filter_cons, ← hpart]
      by_cases h : (b.part m k).entries ≠ []
      · rw [if_pos (decide_eq_true h), if_pos (decide_eq_true (hnil.mp h)), map_cons, ih]
      · rw [if_neg (by simpa using h), if_neg (by simpa using fun hc => h (hnil.mpr hc)), ih]

end Builder

section Agree

variable (T : DrainTree) (is : List Info)

lemma keyed_resolved : (addAll ∅ is).Keyed := by
  intro c i h
  rw [lookup_addAll_empty] at h
  exact of_decide_eq_true (mem_filter.mp (resolve_stands h).1).2

lemma mem_resolved {i : Info} (h : i ∈ (addAll ∅ is).infos) : i ∈ is := by
  obtain ⟨c, hc⟩ := mem_infos.mp h
  rw [lookup_addAll_empty] at hc
  exact (mem_filter.mp (resolve_stands hc).1).1

lemma sortedContents_agree (hp : ∀ i ∈ is, PrefixOk i.contentID) :
    sortedContents T (addAll T.toLLRB T.new is)
      = (addAll ∅ is).sortedContents := by
  have hk := keyed_resolved is
  have hp' : ∀ i ∈ (addAll ∅ is).infos, PrefixOk i.contentID := fun i hi =>
    hp i (mem_resolved is hi)
  obtain ⟨hasc, hmem, -⟩ := sortedContents_spec _
    (addAll T.toLLRB T.new is) rfl
  refine hasc.ext (hk.ascending hp') fun i => ?_
  rw [hmem, get_addAll, mem_sortedContents hp', hk.mem_infos_iff,
    lookup_addAll_empty]

lemma sortedShards_agree (hp : ∀ i ∈ is, PrefixOk i.contentID) (size : ℕ) :
    sortedShards T size (addAll T.toLLRB T.new is)
      = (Builder.addAll ∅ is).sortedShards size := by
  have hk := keyed_resolved is
  have hp' : ∀ i ∈ (Builder.addAll ∅ is).infos, PrefixOk i.contentID := fun i hi =>
    hp i (mem_resolved is hi)
  have hlen : T.len (addAll T.toLLRB T.new is)
      = (addAll ∅ is).entries.length := by
    rw [← (sortedContents_spec _ _ rfl).2.2, sortedContents_agree T is hp,
      (hk.sortedContents_perm hp').length_eq, infos, length_map]
  rw [hk.sortedShards_eq hp', OneUseBuilder.sortedShards, hlen, sortedContents_agree T is hp,
    OneUseBuilder.distribute_eq]
  simp only [length_eq_zero_iff]

end Agree

section Partition

variable {b : Builder} {size : ℕ}

lemma shardOf_lt {n : ℕ} (hn : 0 < n) (c : ID) : shardOf n c < n := Nat.mod_lt _ hn

lemma flatten_filter_ne_nil : ∀ ls : List (List Info),
    (ls.filter (· ≠ [])).flatten = ls.flatten
  | [] => rfl
  | [] :: ls => by
    rw [filter_cons_of_neg (by simp), flatten_filter_ne_nil ls, flatten_cons,
      nil_append]
  | (i :: l) :: ls => by
    rw [filter_cons_of_pos (by simp), flatten_cons, flatten_cons,
      flatten_filter_ne_nil ls]

lemma flatten_classes_perm {is : List Info} (hnd : is.Nodup) {f : Info → ℕ} {n : ℕ}
    (hf : ∀ i ∈ is, f i < n) :
    ((range n).map fun k => is.filter fun i => f i = k).flatten.Perm is := by
  refine (perm_ext_iff_of_nodup (nodup_flatten.mpr ⟨?_, ?_⟩) hnd).mpr fun i => ?_
  · intro l hl
    obtain ⟨k, -, rfl⟩ := mem_map.mp hl
    exact hnd.sublist filter_sublist
  · refine pairwise_map.mpr (nodup_range.imp fun {k l} hkl => ?_)
    intro i hi hi'
    have hk := of_decide_eq_true (mem_filter.mp hi).2
    have hl := of_decide_eq_true (mem_filter.mp hi').2
    exact hkl (hk.symm.trans hl)
  · rw [mem_flatten]
    constructor
    · rintro ⟨l, hl, hi⟩
      obtain ⟨k, -, rfl⟩ := mem_map.mp hl
      exact (mem_filter.mp hi).1
    · intro hi
      exact ⟨_, mem_map.mpr ⟨f i, mem_range.mpr (hf i hi), rfl⟩,
        mem_filter.mpr ⟨hi, decide_eq_true rfl⟩⟩

variable (hk : b.Keyed) (hp : ∀ i ∈ b.infos, PrefixOk i.contentID)
include hk hp

lemma Builder.Keyed.flatten_sortedShards : (b.sortedShards size).flatten.Perm b.infos := by
  have hperm := hk.sortedContents_perm hp
  rw [hk.sortedShards_eq hp]
  split_ifs with hone hnil
  · rw [infos, hnil]
    exact Perm.refl _
  · rw [flatten_cons, flatten_nil, append_nil]
    exact hperm
  · rw [flatten_filter_ne_nil]
    exact (flatten_classes_perm (hk.ascending hp).nodup
      fun i _ => shardOf_lt (by omega) i.contentID).trans hperm

lemma Builder.Keyed.sortedShards_bounded_iff (hsize : 0 < size) :
    (∀ s ∈ b.sortedShards size, s.length ≤ size) ↔
    ∀ k, (b.infos.filter fun i =>
      shardOf (numShards b.entries.length size) i.contentID = k).length ≤ size := by
  have hperm := hk.sortedContents_perm hp
  have hlen : b.sortedContents.length = b.entries.length := by
    rw [hperm.length_eq, infos, length_map]
  rw [hk.sortedShards_eq hp]
  by_cases hone : numShards b.entries.length size ≤ 1
  · have hsmall : b.entries.length ≤ size := by
      rw [numShards] at hone
      have := Nat.lt_mul_of_div_lt (Nat.lt_succ_of_le hone) hsize
      omega
    rw [if_pos hone]
    refine iff_of_true (fun s hs => ?_) fun k => ?_
    · split_ifs at hs
      · exact absurd hs not_mem_nil
      · rw [mem_singleton.mp hs]
        omega
    · refine le_trans (length_filter_le _ _) ?_
      rw [infos, length_map]
      exact hsmall
  · rw [if_neg hone]
    generalize hn : numShards b.entries.length size = n at hone ⊢
    have hclass : ∀ k, (b.sortedContents.filter fun i => shardOf n i.contentID = k).length
        = (b.infos.filter fun i => shardOf n i.contentID = k).length := fun k =>
      (hperm.filter _).length_eq
    constructor
    · intro h k
      by_cases hnil : (b.sortedContents.filter fun i => shardOf n i.contentID = k) = []
      · rw [← hclass, hnil]
        exact Nat.zero_le _
      · obtain ⟨i, hi⟩ := exists_mem_of_ne_nil _ hnil
        have hk : shardOf n i.contentID = k := of_decide_eq_true (mem_filter.mp hi).2
        rw [← hclass]
        refine h _ (mem_filter.mpr ⟨mem_map.mpr ⟨k, ?_, rfl⟩, decide_eq_true hnil⟩)
        rw [mem_range, ← hk]
        exact shardOf_lt (by omega) _
    · intro h s hs
      obtain ⟨k, -, rfl⟩ := mem_map.mp (mem_filter.mp hs).1
      rw [hclass]
      exact h k

end Partition

section Tree

lemma same_iff (a b : ID) : (!a.less b && !b.less a) = true ↔ a = b := by
  rw [Bool.and_eq_true, Bool.not_eq_true', Bool.not_eq_true']
  constructor
  · rintro ⟨h₁, h₂⟩
    exact ID.eq_of_not_less (by simp [h₁]) (by simp [h₂])
  · rintro rfl
    exact ⟨ID.less_irrefl a, ID.less_irrefl a⟩

lemma Ascending.find?_eq_some_iff {l : List Info} (h : Ascending l) {c : ID} {j : Info} :
    (l.find? fun i => i.contentID = c) = some j ↔ j ∈ l ∧ j.contentID = c := by
  constructor
  · intro hj
    have hid := find?_some hj
    exact ⟨mem_of_find?_eq_some hj, of_decide_eq_true hid⟩
  · induction l with
    | nil => exact fun hj => absurd hj.1 not_mem_nil
    | cons m l ih =>
      obtain ⟨hlt, htail⟩ := pairwise_cons.mp h
      rintro ⟨hmem, hj⟩
      rcases mem_cons.mp hmem with rfl | hmem
      · rw [find?_cons, hj, decide_eq_true rfl]
      · rw [find?_cons_of_neg, ih htail ⟨hmem, hj⟩]
        intro hm
        have hless := hlt j hmem
        rw [of_decide_eq_true hm, hj, ID.less_irrefl] at hless
        exact Bool.false_ne_true hless

def insertSorted (l : List Info) (i : Info) : List Info :=
  l.filter (·.contentID.less i.contentID) ++
    i :: l.filter (fun j => i.contentID.less j.contentID)

lemma Ascending.insertSorted {l : List Info} (h : Ascending l) (i : Info) :
    Ascending (insertSorted l i) := by
  refine pairwise_append.mpr ⟨h.sublist filter_sublist, pairwise_cons.mpr
    ⟨fun j hj => (mem_filter.mp hj).2, h.sublist filter_sublist⟩, ?_⟩
  intro a ha j hj
  rcases mem_cons.mp hj with rfl | hj
  · exact (mem_filter.mp ha).2
  · exact ID.less_trans (mem_filter.mp ha).2 (mem_filter.mp hj).2

lemma mem_insertSorted {l : List Info} {i j : Info} :
    j ∈ insertSorted l i ↔ j = i ∨ j ∈ l ∧ j.contentID ≠ i.contentID := by
  rw [insertSorted, mem_append, mem_cons, mem_filter, mem_filter]
  constructor
  · rintro (⟨hmem, hless⟩ | rfl | ⟨hmem, hless⟩)
    · exact .inr ⟨hmem, fun heq => by simp [heq, ID.less_irrefl] at hless⟩
    · exact .inl rfl
    · exact .inr ⟨hmem, fun heq => by simp [heq, ID.less_irrefl] at hless⟩
  · rintro (rfl | ⟨hmem, hne⟩)
    · exact .inr (.inl rfl)
    · by_cases hless : j.contentID.less i.contentID = true
      · exact .inl ⟨hmem, hless⟩
      · exact .inr (.inr ⟨hmem, ID.less_of_ne_of_not_less hne.symm hless⟩)

end Tree

def DrainTree.ofSorted : DrainTree where
  Tree := { l : List Info // Ascending l }
  new := ⟨[], List.Pairwise.nil⟩
  get t k := t.1.find? fun i => i.contentID = k.contentID
  replaceOrInsert t i := ⟨insertSorted t.1 i, t.2.insertSorted i⟩
  get_new _ := rfl
  get_replaceOrInsert t i k := by
    refine Option.ext fun j => ?_
    rw [(t.2.insertSorted i).find?_eq_some_iff, mem_insertSorted]
    split_ifs with h
    · have hik := (same_iff _ _).mp h
      rw [Option.some.injEq]
      constructor
      · rintro ⟨rfl | ⟨-, hne⟩, hj⟩
        · rfl
        · exact absurd (hj.trans hik.symm) hne
      · rintro rfl
        exact ⟨.inl rfl, hik⟩
    · have hik : i.contentID ≠ k.contentID := fun heq => h ((same_iff _ _).mpr heq)
      rw [t.2.find?_eq_some_iff]
      constructor
      · rintro ⟨rfl | ⟨hmem, -⟩, hj⟩
        · exact absurd hj hik
        · exact ⟨hmem, hj⟩
      · rintro ⟨hmem, hj⟩
        exact ⟨.inr ⟨hmem, fun heq => hik (heq.symm.trans hj)⟩, hj⟩
  len t := t.1.length
  deleteMin t := match t with
    | ⟨[], _⟩ => none
    | ⟨i :: l, h⟩ => some (i, ⟨l, (List.pairwise_cons.mp h).2⟩)
  len_eq_zero t := by
    rw [List.length_eq_zero_iff]
    constructor
    · rintro h k
      rw [h]
      rfl
    · intro h
      rcases t with ⟨_ | ⟨i, l⟩, ht⟩
      · rfl
      · simpa using h i
  deleteMin_isSome t h := by
    rcases t with ⟨_ | ⟨i, l⟩, ht⟩
    · exact absurd h (by simp)
    · rfl
  get_contentID t k i h := by simpa using List.find?_some h
  get_congr t k k' h := by simp only [h]
  len_deleteMin t i t' h := by
    rcases t with ⟨_ | ⟨j, l⟩, ht⟩
    · cases h
    · cases h; rfl
  get_deleteMin t i t' h := by
    rcases t with ⟨_ | ⟨j, l⟩, ht⟩
    · cases h
    · cases h; simp
  deleteMin_least t i t' h k j hj := by
    rcases t with ⟨_ | ⟨m, l⟩, ht⟩
    · cases h
    · cases h
      rcases List.mem_cons.mp (List.mem_of_find?_eq_some hj) with rfl | hmem
      · simp [ID.less_irrefl]
      · exact ID.less_asymm ((List.pairwise_cons.mp ht).1 j hmem)
  get_after t i t' h k := by
    rcases t with ⟨_ | ⟨m, l⟩, ht⟩
    · cases h
    · cases h
      refine Option.ext fun j => ?_
      rw [Ascending.find?_eq_some_iff (List.pairwise_cons.mp ht).2]
      split_ifs with hsame
      · have hik := (same_iff _ _).mp hsame
        refine iff_of_false (fun hj => ?_) nofun
        have hless := (List.pairwise_cons.mp ht).1 j hj.1
        rw [hik, ← hj.2, ID.less_irrefl] at hless
        exact Bool.false_ne_true hless
      · rw [ht.find?_eq_some_iff, List.mem_cons]
        refine ⟨fun hj => ⟨.inr hj.1, hj.2⟩, fun hj => ⟨hj.1.resolve_left ?_, hj.2⟩⟩
        rintro rfl
        exact hsame ((same_iff _ _).mpr hj.2)

end Warphold.Content
