import Warphold.Gateway.Local

/-!
# Listing every device

Without a prefix, `List` goes through the device directories in the order of their names
(`Tree.objects`), while its pages are cut by the order of the keys (`Local.list_all`).
-/

namespace Strings

open List Strings

lemma lt_iff {a b : Str} : lt a b = true ↔ compare a b = .lt := by
  unfold lt
  rcases compare a b with _ | _ | _ <;> simp

lemma lt_trans {a b c : Str} (h : lt a b = true) (h' : lt b c = true) : lt a c = true :=
  lt_iff.2 (Std.TransCmp.lt_trans (lt_iff.1 h) (lt_iff.1 h'))

lemma lt_irrefl (a : Str) : lt a a = false := by
  have h : compare a a = .eq := Std.ReflCmp.compare_self
  unfold lt
  rw [h]
  rfl

lemma lt_asymm {a b : Str} (h : lt a b = true) : lt b a = false := by
  by_contra hb
  have := lt_trans h (by simpa using hb)
  rw [lt_irrefl] at this
  exact Bool.noConfusion this

lemma eq_of_not_lt {a b : Str} (h : lt a b = false) (h' : lt b a = false) : a = b := by
  have hba : compare b a = (compare a b).swap := Std.OrientedCmp.eq_swap
  unfold lt at h h'
  rw [hba] at h'
  rcases hc : compare a b with _ | _ | _ <;> rw [hc] at h h'
  · exact Bool.noConfusion h
  · exact Std.LawfulEqCmp.eq_of_compare hc
  · exact Bool.noConfusion h'

lemma nil_lt {a : Str} (h : a ≠ []) : lt [] a = true := by
  cases a with
  | nil => exact absurd rfl h
  | cons b a => rfl

lemma compare_cons (a b : UInt8) (x y : Str) :
    compare (a :: x) (b :: y) = (compare a b).then (compare x y) := by
  simp only [List.compare_eq_compareLex, List.compareLex_cons_cons]

lemma lt_append_left (d x y : Str) : lt (d ++ x) (d ++ y) = lt x y := by
  induction d with
  | nil => rfl
  | cons b d ih =>
    have h : compare b b = .eq := Std.ReflCmp.compare_self
    unfold lt at ih ⊢
    rw [cons_append, cons_append, compare_cons, h]
    exact ih

lemma lt_append {d e : Str} (h : lt d e = true) (hde : ¬ d <+: e) (x y : Str) :
    lt (d ++ x) (e ++ y) = true := by
  induction d generalizing e with
  | nil => exact absurd nil_prefix hde
  | cons b d ih =>
    cases e with
    | nil => exact Bool.noConfusion (lt_asymm (nil_lt (cons_ne_nil b d)) ▸ h)
    | cons c e =>
      rw [lt_iff, compare_cons] at h
      rw [lt_iff, cons_append, cons_append, compare_cons]
      rcases hbc : compare b c with _ | _ | _ <;> rw [hbc] at h
      · rfl
      · obtain rfl := Std.LawfulEqCmp.eq_of_compare hbc
        exact lt_iff.1 (ih (lt_iff.2 h) fun hp => hde (cons_prefix_cons.2 ⟨rfl, hp⟩))
      · exact absurd h Ordering.noConfusion

end Strings

namespace Warphold.Gateway

open List Strings

def entryInfo (d : Str) : Str × Entry → Option ObjectInfo
  | (n, .file o) => some ⟨d ++ [47] ++ n, o.bytes.length, [], o.modTime⟩
  | (_, .irregular _) => none

namespace Tree

open List Strings

/-- The objects of a device, in the order of their names. -/
def deviceObjects (t : Tree) (d : Str) : List ObjectInfo :=
  (t[d]?.getD ∅).toList.filterMap (entryInfo d)

/-- The objects of every device, in the order the listing meets them. -/
def objects (t : Tree) : List ObjectInfo :=
  (t.keys.filter fun d => d ≠ tmpDir && Strings.hasPrefix d []).flatMap t.deviceObjects

end Tree

namespace Local

open List Strings
variable {now : ℤ} {after : Str} {max : ℕ}

lemma hasPrefix_append_left (d n p : Str) :
    hasPrefix (d ++ n) (d ++ p) = hasPrefix n p := by
  rw [Bool.eq_iff_iff, hasPrefix_iff, hasPrefix_iff, prefix_append_right_inj]

lemma listEnts_page (d name : Str) : ∀ (ents : List (Str × Entry)) {objs : List ObjectInfo},
    objs.length ≤ max →
      let all := objs ++ (ents.filterMap (entryInfo d)).filter fun o =>
        hasPrefix o.key (d ++ [47] ++ name) && lt after o.key
      listEnts (.healthy now) d name after max ents objs
        = .ok (if max < all.length then .inl (all.take max) else .inr all)
  | [], objs, hmax => by simp [listEnts, Nat.not_lt.2 hmax]
  | (n, .irregular _) :: ents, objs, hmax => by
    simp only [listEnts, entryInfo]
    exact listEnts_page d name ents hmax
  | (n, .file o) :: ents, objs, hmax => by
    have hp := hasPrefix_append_left (d ++ [47]) n name
    simp only [listEnts]
    rw [filterMap_cons_some (show entryInfo d (n, .file o) = some _ from rfl), filter_cons,
      ← Bool.not_and, ← hp]
    rcases hlt : hasPrefix (d ++ [47] ++ n) (d ++ [47] ++ name)
        && lt after (d ++ [47] ++ n) with _ | _
    · simp only [Bool.not_false, ↓reduceIte, Bool.false_eq_true]
      exact listEnts_page d name ents hmax
    · have hinfo : (Faults.healthy now).entryInfo n = false := rfl
      simp only [Bool.not_true, Bool.false_eq_true, ↓reduceIte, hinfo, length_append,
        length_singleton]
      by_cases hfull : max < objs.length + 1
      · have hlen : objs.length = max := by omega
        rw [if_pos hfull, if_pos (by simp only [length_cons]; omega), take_append_of_le_length
          hlen.ge, take_append_of_le_length hlen.ge]
      · rw [if_neg hfull]
        have hmax' : (objs ++ [(⟨d ++ [47] ++ n, o.bytes.length, [], o.modTime⟩ : ObjectInfo)]).length
            ≤ max := by
          simp only [length_append, length_singleton]
          omega
        have ih := listEnts_page d name ents hmax'
        simp only [append_assoc objs, singleton_append, length_append] at ih
        exact ih

lemma key_entryInfo {d : Str} {e : Str × Entry} {o : ObjectInfo} (h : entryInfo d e = some o) :
    o.key = d ++ [47] ++ e.1 := by
  rcases e with ⟨n, _ | _⟩
  · cases h
    rfl
  · cases h

lemma listEnts_all (d : Str) (ents : List (Str × Entry)) {objs : List ObjectInfo}
    (hmax : objs.length ≤ max) :
      let all := objs ++ (ents.filterMap (entryInfo d)).filter fun o => lt after o.key
      listEnts (.healthy now) d [] after max ents objs
        = .ok (if max < all.length then .inl (all.take max) else .inr all) := by
  have hall : ((ents.filterMap (entryInfo d)).filter fun o =>
      hasPrefix o.key (d ++ [47] ++ []) && lt after o.key)
        = (ents.filterMap (entryInfo d)).filter fun o => lt after o.key := by
    refine filter_congr fun o ho => ?_
    obtain ⟨e, -, he⟩ := mem_filterMap.1 ho
    have hp : hasPrefix o.key (d ++ [47] ++ []) = true := by
      rw [key_entryInfo he, hasPrefix_append_left]
      exact hasPrefix_iff.2 nil_prefix
    rw [hp, Bool.true_and]
  have hpage : listEnts (.healthy now) d [] after max ents objs = _ :=
    listEnts_page d [] ents hmax
  rwa [hall] at hpage

lemma listLoop_all (t : Tree) : ∀ (dirs : List Str) {objs : List ObjectInfo}, objs.length ≤ max →
    ∀ {r : List ObjectInfo × Bool}, listLoop (.healthy now) t [] after max dirs objs = .ok r →
      let all := objs ++ (dirs.flatMap t.deviceObjects).filter fun o => lt after o.key
      r = (all.take max, decide (max < all.length))
  | [], objs, hmax, r, h => by
    cases h
    simp [take_of_length_le hmax, Nat.not_lt.2 hmax]
  | d :: dirs, objs, hmax, r, h => by
    simp only [listLoop] at h
    split_ifs at h
    rcases hd : t[d]? with _ | ents <;> rw [hd] at h
    · have hnone : t.deviceObjects d = [] := by
        unfold Tree.deviceObjects
        rw [hd]
        rfl
      simp only [flatMap_cons, hnone, nil_append]
      exact listLoop_all t dirs hmax h
    · have hsome : t.deviceObjects d = ents.toList.filterMap (entryInfo d) := by
        unfold Tree.deviceObjects
        rw [hd]
        rfl
      simp only [listEnts_all d _ hmax] at h
      simp only [flatMap_cons, hsome, filter_append, ← append_assoc]
      generalize hall : objs ++ (ents.toList.filterMap (entryInfo d)).filter
        (fun o => lt after o.key) = all at h ⊢
      by_cases hfull : max < all.length
      · rw [if_pos hfull] at h
        cases h
        rw [take_append_of_le_length hfull.le, length_append,
          decide_eq_true (show max < all.length + _ by omega)]
      · rw [if_neg hfull] at h
        exact listLoop_all t dirs (Nat.not_lt.1 hfull) h

lemma list_all {t : Tree} {page : List ObjectInfo} {truncated : Bool}
    (h : list (.healthy now) t [] after 1000 = .ok (page, truncated)) :
    let rest := t.objects.filter fun o => lt after o.key
    page = rest.take maxKeys ∧ truncated = decide (maxKeys < rest.length) := by
  have hloop : listLoop (.healthy now) t [] after maxKeys
      (t.keys.filter fun d => d ≠ tmpDir && hasPrefix d []) [] = .ok (page, truncated) := h
  have := listLoop_all t _ (Nat.zero_le maxKeys) hloop
  simp only [nil_append, Prod.mk.injEq] at this
  exact this

end Local

/-- The names of the device directories: none holds a slash, and none is a prefix of another. -/
structure Tree.Devices (t : Tree) : Prop where
  named : ∀ d ∈ t, d ≠ tmpDir → 47 ∉ d ∧ d ≠ []
  free : ∀ d ∈ t, ∀ e ∈ t, d ≠ tmpDir → e ≠ tmpDir → d <+: e → d = e

def deviceOf (key : Str) : Str := (Strings.cut key 47).1

lemma deviceOf_append {d : Str} (hd : 47 ∉ d) (n : Str) : deviceOf (d ++ [47] ++ n) = d := by
  rw [deviceOf, append_assoc, singleton_append, cut_append hd]

variable {t : Tree}

lemma mem_deviceObjects {d : Str} {o : ObjectInfo} :
    o ∈ t.deviceObjects d ↔ ∃ n obj, t.entry d n = some (.file obj)
      ∧ o = ⟨d ++ [47] ++ n, obj.bytes.length, [], obj.modTime⟩ := by
  unfold Tree.deviceObjects Tree.entry
  rw [mem_filterMap]
  constructor
  · rintro ⟨⟨n, e⟩, hmem, hinfo⟩
    rcases hd : t[d]? with _ | ents <;> rw [hd] at hmem
    · simp at hmem
    · cases e with
      | irregular b => cases hinfo
      | file obj =>
        refine ⟨n, obj, ?_, (Option.some.inj hinfo).symm⟩
        exact Std.ExtTreeMap.mem_toList_iff_getElem?_eq_some.1 hmem
  · rintro ⟨n, obj, hentry, rfl⟩
    rcases hd : t[d]? with _ | ents <;> rw [hd] at hentry
    · cases hentry
    · exact ⟨(n, .file obj), Std.ExtTreeMap.mem_toList_iff_getElem?_eq_some.2 hentry, rfl⟩

lemma mem_of_entry {d n : Str} {e : Entry} (h : t.entry d n = some e) : d ∈ t := by
  rw [Std.ExtTreeMap.mem_iff_isSome_getElem?]
  unfold Tree.entry at h
  rcases ht : t[d]? with _ | ents <;> rw [ht] at h
  · cases h
  · rfl

lemma mem_objects {o : ObjectInfo} :
    o ∈ t.objects ↔ ∃ d n obj, d ≠ tmpDir ∧ t.entry d n = some (.file obj)
      ∧ o = ⟨d ++ [47] ++ n, obj.bytes.length, [], obj.modTime⟩ := by
  unfold Tree.objects
  simp only [mem_flatMap, mem_filter, Std.ExtTreeMap.mem_keys, mem_deviceObjects,
    Bool.and_eq_true, decide_eq_true_eq]
  constructor
  · rintro ⟨d, ⟨-, hd, -⟩, n, obj, hentry, rfl⟩
    exact ⟨d, n, obj, hd, hentry, rfl⟩
  · rintro ⟨d, n, obj, hd, hentry, rfl⟩
    exact ⟨d, ⟨mem_of_entry hentry, hd, hasPrefix_iff.2 nil_prefix⟩, n, obj, hentry,
      rfl⟩

lemma mem_page {α : Type} (key : α → Str) {rest : List α} {n : ℕ} (hn : n ≠ 0)
    (hsorted : rest.Pairwise fun a b => lt (key a) (key b) = true) {a : α} (ha : a ∈ rest) :
    a ∈ rest.take n ∨ n < rest.length ∧
      ∃ last, (rest.take n).getLast? = some last ∧ lt (key last) (key a) = true := by
  rw [← take_append_drop n rest, mem_append] at ha
  rcases ha with ha | ha
  · exact Or.inl ha
  have hlong : n < rest.length := by
    by_contra hshort
    rw [drop_eq_nil_of_le (Nat.not_lt.1 hshort)] at ha
    exact absurd ha not_mem_nil
  have hne : rest.take n ≠ [] := by
    rw [ne_eq, take_eq_nil_iff, not_or]
    exact ⟨hn, ne_nil_of_length_pos (by omega)⟩
  refine Or.inr ⟨hlong, _, getLast?_eq_some_getLast hne, ?_⟩
  rw [← take_append_drop n rest, pairwise_append] at hsorted
  exact hsorted.2.2 _ (getLast_mem hne) a ha

lemma Tree.pairwise_deviceObjects (t : Tree) (d : Str) :
    (t.deviceObjects d).Pairwise fun o p => lt o.key p.key = true := by
  unfold Tree.deviceObjects
  rw [pairwise_filterMap]
  have hkeys : ((t[d]?.getD ∅).toList.map Prod.fst).Pairwise fun a b => compare a b = .lt := by
    rw [Std.ExtTreeMap.map_fst_toList_eq_keys]
    exact Std.ExtTreeMap.ordered_keys
  refine (pairwise_map.1 hkeys).imp ?_
  rintro ⟨n, _ | _⟩ ⟨n', _ | _⟩ hn o ho p hp <;> cases ho <;> cases hp
  show lt (d ++ [47] ++ n) (d ++ [47] ++ n') = true
  rw [lt_append_left]
  exact lt_iff.2 hn

lemma Tree.Devices.pairwise_objects (h : t.Devices) :
    t.objects.Pairwise fun o p => lt o.key p.key = true := by
  unfold Tree.objects
  rw [pairwise_flatMap]
  constructor
  · exact fun d _ => t.pairwise_deviceObjects d
  · have hdirs := (Std.ExtTreeMap.ordered_keys (t := t)).filter
      (fun d => d ≠ tmpDir && hasPrefix d [])
    refine hdirs.imp_of_mem fun {d e} hd he hde o ho p hp => ?_
    rw [mem_filter, Std.ExtTreeMap.mem_keys, Bool.and_eq_true, decide_eq_true_eq] at hd he
    obtain ⟨n, obj, -, rfl⟩ := mem_deviceObjects.1 ho
    obtain ⟨n', obj', -, rfl⟩ := mem_deviceObjects.1 hp
    have hlt := lt_iff.2 hde
    show lt (d ++ [47] ++ n) (e ++ [47] ++ n') = true
    rw [append_assoc, append_assoc]
    refine lt_append hlt (fun hpre => ?_) _ _
    rw [h.free d hd.1 e he.1 hd.2.1 he.2.1 hpre, lt_irrefl] at hlt
    exact Bool.noConfusion hlt

end Warphold.Gateway
