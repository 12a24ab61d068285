import Warphold.Policy.Tree
import Warphold.Lib.Lists

/-!
# What a policy tree yields

Following the tree to a path gives the policy stored for the nearest directory on the way that has
one below the source, as it is stored (`descend_effective`).
-/

namespace Warphold.Policies

open List Stored

variable {ν τ : Type}

section Merge

variable [DecidableEq τ]

lemma collection_merge_assoc (x y z : Collection τ) : (x.merge y).merge z = x.merge (y.merge z) := by
  unfold Collection.merge
  cases hx : x.noParent <;> cases hy : y.noParent <;> simp [hx, hy, Finset.union_assoc]

lemma collection_merge_empty (x : Collection τ) : x.merge {} = x := by
  rcases x with ⟨items, _ | _⟩ <;> simp [Collection.merge]

lemma merge_assoc (x y z : Policy ν τ) : (x.merge y).merge z = x.merge (y.merge z) := by
  simp [Policy.merge, Option.or_assoc, collection_merge_assoc]

lemma merge_empty (x : Policy ν τ) : x.merge {} = x := by
  simp [Policy.merge, collection_merge_empty]

lemma empty_merge (x : Policy ν τ) : Policy.merge {} x = { x with noParent := false } := by
  simp [Policy.merge, Collection.merge]

lemma mergeInto_merge (default : Policy ν τ) (x : Policy ν τ) : ∀ (ps : List (Policy ν τ)) (y : Policy ν τ),
    mergeInto default (x.merge y) ps = x.merge (mergeInto default y ps)
  | [], y => merge_assoc x y default
  | p :: ps, y => by
    unfold mergeInto
    split_ifs
    · exact merge_assoc x y p
    · rw [merge_assoc, mergeInto_merge default x ps]

end Merge

section Effective

variable (st : Stored ν τ)

/-- The policy of the nearest directory on the way to `r` that has one, below the source. -/
def Stored.nearest (source : Path) : Path → Option (Path × Policy ν τ)
  | [] => none
  | c :: r =>
    match st.paths.lookup (c :: (r ++ source)) with
    | some p => some (c :: r, p)
    | none => Stored.nearest source r

variable {st} {source : Path}

lemma nearest_ne_nil : ∀ {r r' : Path} {p : Policy ν τ}, st.nearest source r = some (r', p) →
    ∃ c r₁, r' = c :: r₁
  | [], _, _, h => by cases h
  | c :: r, r', p, h => by
    unfold nearest at h
    split at h
    · cases h
      exact ⟨c, r, rfl⟩
    · exact nearest_ne_nil h

lemma ofPaths_of_nearest : ∀ {r r₁ : Path} {c : Str} {p : Policy ν τ},
    st.nearest source r = some (c :: r₁, p) →
    st.ofPaths (r ++ source) = p :: st.ofPaths (r₁ ++ source)
  | [], _, _, _, h => by cases h
  | d :: r, r₁, c, p, h => by
    unfold nearest at h
    rw [cons_append, ofPaths]
    rcases hl : st.paths.lookup (d :: (r ++ source)) with _ | q
    · rw [hl] at h
      simpa using ofPaths_of_nearest h
    · rw [hl] at h
      cases h
      rfl

lemma ofPaths_of_nearest_none : ∀ {r : Path}, st.nearest source r = none →
    st.ofPaths (r ++ source) = st.ofPaths source
  | [], _ => rfl
  | d :: r, h => by
    unfold nearest at h
    rw [cons_append, ofPaths]
    rcases hl : st.paths.lookup (d :: (r ++ source)) with _ | q
    · rw [hl] at h
      simpa using ofPaths_of_nearest_none h
    · rw [hl] at h
      cases h

variable [DecidableEq τ]

def Stored.general (st : Stored ν τ) : List (Policy ν τ) := st.user.toList ++ st.host.toList ++ st.global.toList

lemma getEffectivePolicy_eq (st : Stored ν τ) (p : Path) :
    st.getEffectivePolicy p = mergeInto st.default {} (st.ofPaths p ++ st.general) := by
  unfold getEffectivePolicy getPolicyHierarchy mergePolicies general
  simp only [append_assoc]
  split_ifs
  · rw [mergeInto, if_neg (by simp), merge_empty]
  · rfl

lemma effective_of_nearest_none {r : Path} (h : st.nearest source r = none) :
    st.getEffectivePolicy (r ++ source) = st.getEffectivePolicy source := by
  rw [getEffectivePolicy_eq, getEffectivePolicy_eq, ofPaths_of_nearest_none h]

lemma effective_of_nearest {r r₁ : Path} {c : Str} {p : Policy ν τ}
    (h : st.nearest source r = some (c :: r₁, p)) :
    st.getEffectivePolicy (r ++ source) = if p.noParent then { p with noParent := false }
      else Policy.merge { p with noParent := false } (st.getEffectivePolicy (r₁ ++ source)) := by
  rw [getEffectivePolicy_eq, getEffectivePolicy_eq, ofPaths_of_nearest h, cons_append, mergeInto,
    empty_merge]
  split_ifs
  · rfl
  · rw [← mergeInto_merge, merge_empty]

end Effective

section Lookup

variable {α β : Type}

lemma lookup_filter_of_key [BEq α] [LawfulBEq α] {p : α × β → Bool} {k : α} (hp : ∀ v, p (k, v) = true) :
    ∀ l : List (α × β), (l.filter p).lookup k = l.lookup k
  | [] => rfl
  | (k', v) :: l => by
    have ih := lookup_filter_of_key hp l
    by_cases hk : k = k'
    · subst hk
      rw [filter_cons_of_pos (hp v)]
      simp
    · have hb : (k == k') = false := by simpa using hk
      by_cases hpv : p (k', v) = true
      · rw [filter_cons_of_pos hpv, lookup_cons, lookup_cons, hb, ih]
      · rw [filter_cons_of_neg hpv, lookup_cons, hb, ih]

lemma lookup_map_key [BEq α] [LawfulBEq α] (f : α → β) (k : α) : ∀ l : List α,
    (l.map fun x => (x, f x)).lookup k = if k ∈ l then some (f k) else none
  | [] => by simp
  | x :: l => by
    rw [map_cons, lookup_cons]
    by_cases hx : k = x
    · subst hx
      simp
    · have hb : (k == x) = false := by simpa using hx
      rw [hb]
      simp only [lookup_map_key f k l, mem_cons, hx, false_or]

end Lookup

section Build

variable {all defined : List (Path × Policy ν τ)} {path : Path} {c : Str}

lemma nextName_of_suffix {key : Path} (h : c :: path <:+ key) : nextName path key = some c := by
  obtain ⟨r, rfl⟩ := h
  have hs : path <:+ r ++ c :: path := ⟨r ++ [c], by simp⟩
  have hlen : (r ++ c :: path).length - path.length = (r ++ [c]).length := by
    simp only [length_append, length_cons, length_nil]
    omega
  unfold nextName
  rw [if_pos hs, hlen, show r ++ c :: path = (r ++ [c]) ++ path by simp, take_left]
  simp

/-- The node for `path`: built from all policies at or below it, or an inherited node above none. -/
inductive Represents (all : List (Path × Policy ν τ)) (path : Path) (effective : Policy ν τ) :
    Tree ν τ → Prop where
  | built {n : Nat} {defined : List (Path × Policy ν τ)} {default : Policy ν τ} :
    (defined.lookup path).getD default = effective →
    (∀ key, path <:+ key → defined.lookup key = all.lookup key) →
    (∀ kv ∈ defined, kv.1.length ≤ path.length + n) →
    Represents all path effective (buildTreeNode n defined path default)
  | bare : (∀ key, path <:+ key → key ≠ path → all.lookup key = none) →
    Represents all path effective (.node effective true [])

variable {effective : Policy ν τ}

lemma bare_child (h : ∀ key, c :: path <:+ key → all.lookup key = none) :
    Represents all (c :: path) ((all.lookup (c :: path)).getD effective) (.node effective true []) := by
  rw [h (c :: path) (suffix_refl _)]
  exact .bare fun key hkey _ => h key hkey

lemma child_of_lookup_none {inherited : Bool}
    {children : List (Str × Tree ν τ)} (h : children.lookup c = none) :
    Tree.child c (.node effective inherited children) = .node effective true [] := by
  simp only [Tree.child, h]
  split_ifs with hc
  · simp only [Bool.and_eq_true, List.isEmpty_iff] at hc
    rw [hc.1, hc.2]
  · rfl

lemma ne_of_suffix_cons {key : Path} (h : c :: path <:+ key) : path <:+ key ∧ path.length < key.length := by
  refine ⟨(suffix_cons c path).trans h, ?_⟩
  have := h.length_le
  simp only [length_cons] at this
  omega

lemma Represents.child {t : Tree ν τ} (h : Represents all path effective t)
    (c : Str) : Represents all (c :: path) ((all.lookup (c :: path)).getD effective) (t.child c) := by
  cases h with
  | bare hnone =>
    rw [child_of_lookup_none rfl]
    refine bare_child fun key hkey => ?_
    obtain ⟨hs, hlt⟩ := ne_of_suffix_cons hkey
    exact hnone key hs (fun hc => by simp [hc] at hlt)
  | @built n defined default heff hagree hlen =>
    -- a policy at or below the child is among those the node was built from
    have hmem : ∀ key, c :: path <:+ key → ∀ p, all.lookup key = some p → (key, p) ∈ defined := by
      intro key hkey p hp
      rw [← hagree key (ne_of_suffix_cons hkey).1] at hp
      exact Lists.mem_of_lookup hp
    rcases n with _ | n
    · have hnone : ∀ key, c :: path <:+ key → all.lookup key = none := by
        intro key hkey
        rcases hp : all.lookup key with _ | p
        · rfl
        · have := hlen _ (hmem key hkey p hp)
          have := (ne_of_suffix_cons hkey).2
          simp only at *
          omega
      unfold buildTreeNode
      rw [child_of_lookup_none rfl, heff]
      exact bare_child hnone
    · unfold buildTreeNode childrenWithPrefix
      dsimp only
      rw [map_map, heff]
      have hlookup := lookup_map_key (fun d => buildTreeNode n
        (defined.filter fun kv => nextName path kv.1 = some d) (d :: path) effective) c
        (defined.filterMap fun kv => nextName path kv.1).dedup
      by_cases hc : c ∈ (defined.filterMap fun kv => nextName path kv.1).dedup
      · rw [if_pos hc] at hlookup
        simp only [Function.comp_def, Tree.child, hlookup]
        have hfilter : ∀ key, c :: path <:+ key →
            (defined.filter fun kv => nextName path kv.1 = some c).lookup key = all.lookup key := by
          intro key hkey
          rw [lookup_filter_of_key fun v => by simp [nextName_of_suffix hkey],
            hagree key (ne_of_suffix_cons hkey).1]
        refine .built (by rw [hfilter _ (suffix_refl _)]) hfilter fun kv hkv => ?_
        have := hlen kv (mem_filter.mp hkv).1
        simp only [length_cons]
        omega
      · rw [if_neg hc] at hlookup
        have hnone : ∀ key, c :: path <:+ key → all.lookup key = none := by
          intro key hkey
          rcases hp : all.lookup key with _ | p
          · rfl
          · refine absurd (mem_dedup.mpr (mem_filterMap.mpr ⟨(key, p), hmem key hkey p hp, ?_⟩)) hc
            exact nextName_of_suffix hkey
        simp only [Function.comp_def]
        rw [child_of_lookup_none hlookup]
        exact bare_child hnone

lemma Represents.effectivePolicy {t : Tree ν τ}
    (h : Represents all path effective t) : t.effectivePolicy = effective := by
  cases h with
  | bare => rfl
  | @built n defined default heff _ _ =>
    cases n <;> simpa [buildTreeNode, Tree.effectivePolicy] using heff

end Build

section Source

variable {st : Stored ν τ} {source : Path}

lemma lookup_nested {r : Path} (hr : r ≠ []) : ∀ l : List (Path × Policy ν τ),
    (l.filterMap fun kv => if source <:+ kv.1 ∧ kv.1 ≠ source then
      some (kv.1.take (kv.1.length - source.length), kv.2) else none).lookup r = l.lookup (r ++ source)
  | [] => rfl
  | (k, p) :: l => by
    have ih := lookup_nested hr l
    rw [filterMap_cons, lookup_cons]
    by_cases hk : source <:+ k ∧ k ≠ source
    · obtain ⟨q, rfl⟩ := hk.1
      have htake : (q ++ source).take ((q ++ source).length - source.length) = q := by simp
      have hbeq : (r ++ source == q ++ source) = (r == q) := by
        rw [Bool.eq_iff_iff]
        simp
      simp only [if_pos hk, htake, lookup_cons, hbeq, ih]
    · have hne : (r ++ source == k) = false := by
        rw [beq_eq_false_iff_ne]
        rintro rfl
        exact hk ⟨suffix_append r source, by simpa using hr⟩
      simp only [if_neg hk, hne, ih]

lemma length_le_maxDepth : ∀ (l : List (Path × Policy ν τ)), ∀ kv ∈ l, kv.1.length ≤ maxDepth l
  | [], kv, h => by cases h
  | x :: l, kv, h => by
    have hmax : maxDepth (x :: l) = max x.1.length (maxDepth l) := rfl
    rw [hmax]
    rcases mem_cons.mp h with rfl | h
    · exact le_max_left _ _
    · exact (length_le_maxDepth l kv h).trans (le_max_right _ _)

variable [DecidableEq τ]

lemma lookup_applicable {r : Path} (hr : r ≠ []) :
    (st.applicablePoliciesForSource source).lookup r = st.paths.lookup (r ++ source) := by
  have hb : (r == []) = false := by simpa using hr
  unfold applicablePoliciesForSource
  rw [lookup_cons, hb]
  exact lookup_nested hr st.paths

def Stored.yielded (st : Stored ν τ) (source r : Path) : Policy ν τ :=
  match st.nearest source r with
  | some (_, p) => p
  | none => st.getEffectivePolicy source

lemma yielded_cons (c : Str) (r : Path) :
    st.yielded source (c :: r) = (st.paths.lookup (c :: r ++ source)).getD (st.yielded source r) := by
  unfold yielded
  rw [nearest, cons_append]
  rcases st.paths.lookup (c :: (r ++ source)) with _ | p <;> rfl

lemma descend_represents (r : Path) : Represents (st.applicablePoliciesForSource source) r
    (st.yielded source r) ((st.treeForSource source).descend r) := by
  induction r with
  | nil =>
    refine .built (by simp [applicablePoliciesForSource, yielded, nearest])
      (fun _ _ => rfl) fun kv hkv => ?_
    have := length_le_maxDepth _ kv hkv
    simpa using this
  | cons c r ih =>
    have hchild := ih.child c
    rwa [lookup_applicable (by simp), ← yielded_cons] at hchild

lemma descend_effective (r : Path) :
    ((st.treeForSource source).descend r).effectivePolicy = st.yielded source r :=
  (descend_represents r).effectivePolicy

/-- All inheritable settings are the same. -/
def SameSettings (p q : Policy ν τ) : Prop :=
  (∀ k, p.setting k = q.setting k) ∧ ∀ c, (p.collected c).items = (q.collected c).items

/-- Everything `above` sets is set in `p`, and every list of `above` is part of that of `p` unless the
parents' is not to be added. -/
def Complete (p above : Policy ν τ) : Prop :=
  (∀ k, p.setting k = none → above.setting k = none) ∧
    ∀ c, (p.collected c).noParent = true ∨ (above.collected c).items ⊆ (p.collected c).items

lemma or_eq_left_iff {x y : Option ν} : x = x.or y ↔ (x = none → y = none) := by
  cases x with
  | none => simp [eq_comm]
  | some v => simp

lemma sameSettings_merge_iff {p above : Policy ν τ} :
    SameSettings p (Policy.merge { p with noParent := false } above) ↔ Complete p above := by
  refine and_congr (forall_congr' fun k => or_eq_left_iff) (forall_congr' fun c => ?_)
  unfold Policy.merge Collection.merge
  dsimp only
  split_ifs with h
  · simp [h]
  · rw [eq_comm, Finset.union_eq_left]
    simp [h]

/-- A global compressor, and a policy of the directory `d` in the source that only sets a size. -/
def nestedPolicy : Stored Nat Nat where
  paths := [([str "d", str "s"], { setting := fun k => if k = .maxFileSize then some 5 else none })]
  user := none
  host := none
  global := some { setting := fun k => if k = .compressorName then some 7 else none }
  default := {}

end Source

end Warphold.Policies
