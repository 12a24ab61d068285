import Mathlib

/-!
# Binary heaps in an array

`container/heap`: the children of place `i` are at `2 * i + 1` and `2 * i + 2`. `Push` appends and
moves the last element up, `Pop` exchanges the first and the last and moves the first down among the
others.

The order is a comparison `less` that holds only of elements in order and fails only of elements in
the other order. It may answer either way for elements that are equal in the order.
-/

namespace Heap

open Array

variable {α : Type*} (less : α → α → Bool)

def lessAt (a : Array α) (i j : ℕ) : Bool :=
  match a[i]?, a[j]? with
  | some x, some y => less x y
  | _, _ => false

def swapAt (a : Array α) (i j : ℕ) : Array α :=
  if h : i < a.size ∧ j < a.size then a.swap i j h.1 h.2 else a

def parent (j : ℕ) : ℕ := (j - 1) / 2

def up (a : Array α) (j : ℕ) : Array α :=
  if _h : 0 < j ∧ lessAt less a j (parent j) then up (swapAt a (parent j) j) (parent j) else a
termination_by j
decreasing_by
  unfold parent
  omega

/-- The child that `down` compares with: the right one only if it is less. -/
def child (n : ℕ) (a : Array α) (i : ℕ) : ℕ :=
  if 2 * i + 2 < n && lessAt less a (2 * i + 2) (2 * i + 1) then 2 * i + 2 else 2 * i + 1

lemma child_spec (n : ℕ) (a : Array α) (i : ℕ) (h : 2 * i + 1 < n) :
    i < child less n a i ∧ child less n a i < n ∧ parent (child less n a i) = i := by
  unfold child parent
  split_ifs with hc
  · simp only [Bool.and_eq_true, decide_eq_true_eq] at hc
    omega
  · omega

def down (n : ℕ) (a : Array α) (i : ℕ) : Array α :=
  if _h : 2 * i + 1 < n then
    if lessAt less a (child less n a i) i then
      down n (swapAt a i (child less n a i)) (child less n a i)
    else a
  else a
termination_by n - i
decreasing_by
  have := child_spec less n a i ‹_›
  omega

def push (a : Array α) (x : α) : Array α := up less (a.push x) a.size

def pop (a : Array α) : Option (α × Array α) :=
  let b := down less (a.size - 1) (swapAt a 0 (a.size - 1)) 0
  b.back?.map (·, b.pop)

section Places

variable {a : Array α} {i j k : ℕ}

lemma size_swapAt (a : Array α) (i j : ℕ) : (swapAt a i j).size = a.size := by
  unfold swapAt
  split_ifs
  · exact size_swap ..
  · rfl

lemma swapAt_perm (a : Array α) (i j : ℕ) : (swapAt a i j).toList.Perm a.toList := by
  unfold swapAt
  split_ifs with h
  · exact (swap_perm h.1 h.2).toList
  · exact List.Perm.refl _

lemma getElem?_swapAt (hi : i < a.size) (hj : j < a.size) (k : ℕ) :
    (swapAt a i j)[k]? = if k = j then a[i]? else if k = i then a[j]? else a[k]? := by
  unfold swapAt
  rw [dif_pos ⟨hi, hj⟩, getElem?_swap]
  by_cases hkj : k = j
  · simp [hkj, hi]
  · by_cases hki : k = i
    · have hij : i ≠ j := hki ▸ hkj
      simp [hki, hj, hij, Ne.symm hij]
    · simp [hkj, hki, Ne.symm hkj, Ne.symm hki]

end Places

section Order

variable (le : α → α → Prop)

/-- The elements at places `i` and `j`, when both are there, are in order. -/
def Rel (a : Array α) (i j : ℕ) : Prop := ∀ x ∈ a[i]?, ∀ y ∈ a[j]?, le x y

def Ordered (n : ℕ) (a : Array α) : Prop := ∀ k, 0 < k → k < n → Rel le a (parent k) k

/-- In order but between `j` and its parent, whose place the children of `j` could take. -/
structure UpOrdered (n : ℕ) (a : Array α) (j : ℕ) : Prop where
  other : ∀ k, 0 < k → k < n → k ≠ j → Rel le a (parent k) k
  skip : 0 < j → ∀ k, 0 < k → k < n → parent k = j → Rel le a (parent j) k

/-- In order but between `i` and its children, which could take the place of `i`. -/
structure DownOrdered (n : ℕ) (a : Array α) (i : ℕ) : Prop where
  other : ∀ k, 0 < k → k < n → parent k ≠ i → Rel le a (parent k) k
  skip : 0 < i → ∀ k, 0 < k → k < n → parent k = i → Rel le a (parent i) k

variable {less le} {a b : Array α} {n i j k : ℕ}

lemma Rel.congr {i' j' : ℕ} (h : Rel le a i j) (hi : b[i']? = a[i]?) (hj : b[j']? = a[j]?) :
    Rel le b i' j' := by
  unfold Rel
  rw [hi, hj]
  exact h

lemma Rel.trans [IsTrans α le] (h₁ : Rel le a i j) (h₂ : Rel le a j k) (hj : j < a.size) :
    Rel le a i k := fun x hx y hy =>
  IsTrans.trans x a[j] y (h₁ x hx _ (by simp [hj])) (h₂ _ (by simp [hj]) y hy)

/-- The test decides the order. -/
structure Decides (less : α → α → Bool) (le : α → α → Prop) : Prop where
  of_true : ∀ x y, less x y = true → le x y
  of_false : ∀ x y, less x y = false → le y x

lemma rel_of_lessAt (hd : Decides less le) (h : lessAt less a i j = true) :
    Rel le a i j := by
  intro x hx y hy
  simp only [lessAt, Option.mem_def.1 hx, Option.mem_def.1 hy] at h
  exact hd.of_true x y h

lemma rel_of_not_lessAt (hd : Decides less le) (h : lessAt less a i j ≠ true) : Rel le a j i := by
  intro y hy x hx
  simp only [lessAt, Option.mem_def.1 hx, Option.mem_def.1 hy] at h
  exact hd.of_false x y (by simpa using h)

lemma parent_lt (h : 0 < k) : parent k < k := by
  unfold parent
  omega

lemma UpOrdered.move [IsTrans α le] (h : UpOrdered le n a j) (hn : n ≤ a.size) (hj : 0 < j)
    (hjn : j < n) (hr : Rel le a j (parent j)) :
    UpOrdered le n (swapAt a (parent j) j) (parent j) := by
  have hp := parent_lt hj
  have hg := getElem?_swapAt (a := a) (i := parent j) (j := j) (by omega) (by omega)
  refine ⟨fun k hk hkn hkp => ?_, fun hp0 k hk hkn hkp => ?_⟩
  · have hpk := parent_lt hk
    by_cases hkj : k = j
    · subst hkj
      exact hr.congr (by rw [hg, if_neg (by omega), if_pos rfl]) (by rw [hg, if_pos rfl])
    · have hgk : (swapAt a (parent j) j)[k]? = a[k]? := by rw [hg, if_neg hkj, if_neg hkp]
      by_cases h₁ : parent k = j
      · exact (h.skip hj k hk hkn h₁).congr (by rw [hg, if_pos h₁]) hgk
      · by_cases h₂ : parent k = parent j
        · have hjk : Rel le a j k := hr.trans (h₂ ▸ h.other k hk hkn hkj) (by omega)
          exact hjk.congr (by rw [hg, if_neg h₁, if_pos h₂]) hgk
        · exact (h.other k hk hkn hkj).congr (by rw [hg, if_neg h₁, if_neg h₂]) hgk
  · have hpp := parent_lt hp0
    have hpar : Rel le a (parent (parent j)) (parent j) := h.other _ hp0 (by omega) (by omega)
    have hg0 : (swapAt a (parent j) j)[parent (parent j)]? = a[parent (parent j)]? := by
      rw [hg, if_neg (by omega), if_neg (by omega)]
    by_cases hkj : k = j
    · exact hpar.congr hg0 (by rw [hg, if_pos hkj])
    · have hk' : Rel le a (parent j) k := hkp ▸ h.other k hk hkn hkj
      have hlt := parent_lt hk
      exact (hpar.trans hk' (by omega)).congr hg0 (by rw [hg, if_neg hkj, if_neg (by omega)])

lemma up_ordered [IsTrans α le] (hd : Decides less le) (hj : j < a.size)
    (h : UpOrdered le a.size a j) : Ordered le a.size (up less a j) := by
  fun_induction up less a j with
  | case1 a j hc ih =>
    have hlt := parent_lt hc.1
    have hm := h.move le_rfl hc.1 hj (rel_of_lessAt hd hc.2)
    rw [← size_swapAt a (parent j) j] at hm hj ⊢
    exact ih (by omega) hm
  | case2 a j hc =>
    intro k hk hkn
    by_cases hkj : k = j
    · subst hkj
      exact rel_of_not_lessAt hd fun hl => hc ⟨hk, hl⟩
    · exact h.other k hk hkn hkj

lemma up_perm (a : Array α) (j : ℕ) : (up less a j).toList.Perm a.toList := by
  fun_induction up less a j with
  | case1 a j _ ih => exact ih.trans (swapAt_perm a _ _)
  | case2 => exact List.Perm.refl _

lemma DownOrdered.move (h : DownOrdered le n a i) (hn : n ≤ a.size) (hj : 0 < j) (hjn : j < n)
    (hji : parent j = i) (hmin : ∀ k, 0 < k → k < n → parent k = i → Rel le a j k)
    (hr : Rel le a j i) : DownOrdered le n (swapAt a i j) j := by
  have hij : i < j := hji ▸ parent_lt hj
  have hg := getElem?_swapAt (a := a) (i := i) (j := j) (by omega) (by omega)
  refine ⟨fun k hk hkn hkp => ?_, fun _ k hk hkn hkp => ?_⟩
  · have hlt := parent_lt hk
    by_cases hkj : k = j
    · subst hkj
      exact hr.congr (by rw [hg, if_neg (by omega), if_pos hji]) (by rw [hg, if_pos rfl])
    · by_cases h₁ : parent k = i
      · exact (hmin k hk hkn h₁).congr (by rw [hg, if_neg hkp, if_pos h₁])
          (by rw [hg, if_neg hkj, if_neg (by omega)])
      · have hgp : (swapAt a i j)[parent k]? = a[parent k]? := by rw [hg, if_neg hkp, if_neg h₁]
        by_cases h₂ : k = i
        · subst h₂
          exact (h.skip hk j hj hjn hji).congr hgp (by rw [hg, if_neg hkj, if_pos rfl])
        · exact (h.other k hk hkn h₁).congr hgp (by rw [hg, if_neg hkj, if_neg h₂])
  · have hlt := parent_lt hk
    have hjk : Rel le a j k := hkp ▸ h.other k hk hkn (by omega)
    exact hjk.congr (by rw [hg, hji, if_neg (by omega), if_pos rfl])
      (by rw [hg, if_neg (by omega), if_neg (by omega)])

lemma child_rel [Std.Refl le] (hd : Decides less le) (hk : 0 < k) (hkn : k < n) (hki : parent k = i) :
    Rel le a (child less n a i) k := by
  have hcase : k = 2 * i + 1 ∨ k = 2 * i + 2 := by
    unfold parent at hki
    omega
  have hrefl : Rel le a k k := by
    intro x hx y hy
    obtain rfl : x = y := Option.some.inj (hx.symm.trans hy)
    exact Std.Refl.refl x
  unfold child
  split_ifs with hc
  · simp only [Bool.and_eq_true, decide_eq_true_eq] at hc
    obtain rfl | rfl := hcase
    · exact rel_of_lessAt hd hc.2
    · exact hrefl
  · obtain rfl | rfl := hcase
    · exact hrefl
    · exact rel_of_not_lessAt hd fun hl => hc (by simp [hkn, hl])

lemma down_ordered [Std.Refl le] [IsTrans α le] (hd : Decides less le) (hn : n ≤ a.size) (h : DownOrdered le n a i) :
    Ordered le n (down less n a i) := by
  fun_induction down less n a i with
  | case1 a i hi hl ih =>
    obtain ⟨hlt, hcn, hpar⟩ := child_spec less n a i hi
    refine ih (by rwa [size_swapAt]) (h.move hn (by omega) hcn hpar ?_ (rel_of_lessAt hd hl))
    exact fun k hk hkn hki => child_rel hd hk hkn hki
  | case2 a i hi hl =>
    obtain ⟨hlt, hcn, hpar⟩ := child_spec less n a i hi
    intro k hk hkn
    by_cases hki : parent k = i
    · rw [hki]
      exact (rel_of_not_lessAt hd hl).trans (child_rel hd hk hkn hki) (by omega)
    · exact h.other k hk hkn hki
  | case3 a i hi =>
    intro k hk hkn
    refine h.other k hk hkn fun hki => hi ?_
    unfold parent at hki
    omega

lemma down_perm (n : ℕ) (a : Array α) (i : ℕ) : (down less n a i).toList.Perm a.toList := by
  fun_induction down less n a i with
  | case1 a i _ _ ih => exact ih.trans (swapAt_perm a _ _)
  | case2 => exact List.Perm.refl _
  | case3 => exact List.Perm.refl _

lemma getElem?_down (hn : n ≤ a.size) (hk : n ≤ k) : (down less n a i)[k]? = a[k]? := by
  fun_induction down less n a i with
  | case1 a i hi _ ih =>
    obtain ⟨hlt, hcn, -⟩ := child_spec less n a i hi
    rw [ih (by rwa [size_swapAt]), getElem?_swapAt (by omega) (by omega), if_neg (by omega),
      if_neg (by omega)]
  | case2 => rfl
  | case3 => rfl

lemma Ordered.root [Std.Refl le] [IsTrans α le] (h : Ordered le n a) (hn : n ≤ a.size) :
    ∀ k < n, Rel le a 0 k := by
  intro k
  induction k using Nat.strong_induction_on with
  | _ k ih =>
    intro hk
    by_cases h0 : k = 0
    · subst h0
      intro x hx y hy
      obtain rfl : x = y := Option.some.inj (hx.symm.trans hy)
      exact Std.Refl.refl x
    · have hlt := parent_lt (Nat.pos_of_ne_zero h0)
      exact (ih _ hlt (by omega)).trans (h k (by omega) hk) (by omega)

def Valid (le : α → α → Prop) (a : Array α) : Prop := Ordered le a.size a

lemma valid_empty : Valid le (#[] : Array α) := fun _ _ hk => absurd hk (Nat.not_lt_zero _)

lemma push_perm (a : Array α) (x : α) : (push less a x).toList.Perm (x :: a.toList) := by
  refine (up_perm _ _).trans ?_
  rw [toList_push]
  exact List.perm_append_singleton x a.toList

lemma Valid.push [IsTrans α le] (hd : Decides less le) (h : Valid le a) (x : α) :
    Valid le (push less a x) := by
  have hup : UpOrdered le (a.push x).size (a.push x) a.size := by
    refine ⟨fun k hk hkn hka => ?_, fun _ k hk hkn hka => ?_⟩
    · rw [size_push] at hkn
      have hlt := parent_lt hk
      exact (h k hk (by omega)).congr (by rw [getElem?_push, if_neg (by omega)])
        (by rw [getElem?_push, if_neg (by omega)])
    · rw [size_push] at hkn
      have hlt := parent_lt hk
      omega
  have hsize : (Heap.push less a x).size = (a.push x).size := (up_perm _ _).length_eq
  unfold Valid
  rw [hsize]
  exact up_ordered hd (by simp) hup

lemma pop_eq_none_iff : pop less a = none ↔ a = #[] := by
  have hsize : (down less (a.size - 1) (swapAt a 0 (a.size - 1)) 0).size = a.size :=
    (down_perm _ _ _).length_eq.trans (size_swapAt a _ _)
  rw [pop, Option.map_eq_none_iff, back?_eq_none_iff, ← size_eq_zero_iff, hsize,
    size_eq_zero_iff]

lemma pop_eq_some {x : α} (hp : pop less a = some (x, b)) :
    ∃ c, c = down less (a.size - 1) (swapAt a 0 (a.size - 1)) 0 ∧ c.toList.Perm a.toList ∧
      c.back? = some x ∧ b = c.pop := by
  obtain ⟨y, hy, heq⟩ := Option.map_eq_some_iff.1 hp
  cases heq
  exact ⟨_, rfl, (down_perm _ _ _).trans (swapAt_perm a _ _), hy, rfl⟩

lemma pop_perm {x : α} (hp : pop less a = some (x, b)) : a.toList.Perm (x :: b.toList) := by
  obtain ⟨c, -, hperm, hback, rfl⟩ := pop_eq_some hp
  have hc : c.pop.toList ++ [x] = c.toList := by
    rw [toList_pop]
    exact List.dropLast_append_getLast? x (by rwa [getLast?_toList])
  rw [← hc] at hperm
  exact hperm.symm.trans (List.perm_append_singleton x _)

lemma Valid.pop [Std.Refl le] [IsTrans α le] (hd : Decides less le) (h : Valid le a) {x : α}
    (hp : pop less a = some (x, b)) : Valid le b ∧ ∀ y ∈ a.toList, le x y := by
  obtain ⟨c, hc, hperm, hback, rfl⟩ := pop_eq_some hp
  have hpos : 0 < a.size := by
    have hlen := (pop_perm hp).length_eq
    simp only [length_toList, List.length_cons] at hlen
    omega
  have hcs : c.size = a.size := hperm.length_eq
  have hg := getElem?_swapAt (a := a) (i := 0) (j := a.size - 1) hpos (by omega)
  have hle : a.size - 1 ≤ (swapAt a 0 (a.size - 1)).size := by
    rw [size_swapAt]
    omega
  have hsw : DownOrdered le (a.size - 1) (swapAt a 0 (a.size - 1)) 0 := by
    refine ⟨fun k hk hkn hkp => ?_, fun h0 => absurd h0 (lt_irrefl 0)⟩
    have hlt := parent_lt hk
    exact (h k hk (by omega)).congr (by rw [hg, if_neg (by omega), if_neg hkp])
      (by rw [hg, if_neg (by omega), if_neg (by omega)])
  have hord := hc ▸ down_ordered hd hle hsw
  refine ⟨fun k hk hkn => ?_, fun z hz => ?_⟩
  · rw [size_pop, hcs] at hkn
    have hlt := parent_lt hk
    exact (hord k hk hkn).congr (by rw [getElem?_pop, if_pos (by omega)])
      (by rw [getElem?_pop, if_pos (by omega)])
  · have hx : a[0]? = some x := by
      rw [← hback, back?_eq_getElem?, hcs, hc, getElem?_down hle le_rfl, hg, if_pos rfl]
    obtain ⟨k, hk, rfl⟩ := List.mem_iff_getElem.1 hz
    exact h.root le_rfl k (by simpa using hk) x hx _ (by simp)

end Order

end Heap
