import Warphold.Lib.Strings

/-!
# Numbers, slices and tables in byte strings

Big-endian numbers of a given width, slices that fail out of bounds, tables of records of one size,
and `sort.Search` over the rows of a table.
-/

namespace Binary

open List Nat

/-- The big-endian form of a number in `k` bytes, cut to what fits. -/
def put : ℕ → ℕ → Str
  | 0, _ => []
  | k + 1, n => UInt8.ofNat (n / 256 ^ k) :: put k n

def get (s : Str) : ℕ := s.foldl (fun n b => 256 * n + b.toNat) 0

@[simp] lemma length_put : ∀ k n, (put k n).length = k
  | 0, _ => rfl
  | k + 1, n => by simp [put, length_put k n]

lemma foldl_get (s : Str) (n : ℕ) :
    s.foldl (fun n b => 256 * n + b.toNat) n = n * 256 ^ s.length + get s := by
  induction s generalizing n with
  | nil => simp [get]
  | cons b s ih =>
    have h0 : get (b :: s) = b.toNat * 256 ^ s.length + get s := by
      rw [get, foldl_cons, ih, mul_zero, zero_add]
    rw [foldl_cons, ih, h0, length_cons, pow_succ]
    ring

lemma get_cons (b : UInt8) (s : Str) : get (b :: s) = b.toNat * 256 ^ s.length + get s := by
  rw [get, foldl_cons, foldl_get, mul_zero, zero_add]

lemma get_put : ∀ k n, get (put k n) = n % 256 ^ k
  | 0, n => by simp [put, get, mod_one]
  | k + 1, n => by
    have hbyte : (UInt8.ofNat (n / 256 ^ k)).toNat = n / 256 ^ k % 256 := UInt8.toNat_ofNat'
    rw [put, get_cons, length_put, get_put k n, hbyte, pow_succ, mod_mul, mul_comm,
      add_comm]

lemma get_put_of_lt {k n : ℕ} (h : n < 256 ^ k) : get (put k n) = n := by
  rw [get_put, mod_eq_of_lt h]

def slice (data : Str) (off len : ℕ) : Option Str :=
  if off + len ≤ data.length then some ((data.drop off).take len) else none

lemma slice_append (a b c : Str) {off len : ℕ} (ha : a.length = off) (hb : b.length = len) :
    slice (a ++ (b ++ c)) off len = some b := by
  subst ha hb
  rw [slice, if_pos (by simp), drop_left, take_left]

lemma slice_of_slice {a b c s : Str} {base off len : ℕ} (ha : a.length = base)
    (h : slice b off len = some s) : slice (a ++ (b ++ c)) (base + off) len = some s := by
  subst ha
  unfold slice at h ⊢
  split_ifs at h with hb
  rw [if_pos (by simp only [length_append]; omega), ← h, ← drop_drop, drop_left,
    drop_append_of_le_length (by omega), take_append_of_le_length (by simp; omega)]

lemma slice_append_right {b s : Str} {off len : ℕ} (h : slice b off len = some s) (c : Str) :
    slice (b ++ c) off len = some s := by
  have := slice_of_slice (a := []) (c := c) rfl h
  simpa using this

lemma slice_take {b s : Str} {off len k : ℕ} (h : slice b off len = some s) (hk : k ≤ len) :
    slice b off k = some (s.take k) := by
  unfold slice at h ⊢
  split_ifs at h with hb
  rw [if_pos (by omega), ← Option.some.inj h, take_take, min_eq_left hk]

lemma mapM_range' {α : Type*} {g : ℕ → Option α} : ∀ (l : List α) (s : ℕ),
    (∀ i x, l[i]? = some x → g (s + i) = some x) → (range' s l.length).mapM g = some l
  | [], _, _ => rfl
  | x :: l, s, h => by
    have ih := mapM_range' l (s + 1) fun i y hy => by
      have := h (i + 1) y (by simpa using hy)
      rwa [← add_assoc, add_right_comm] at this
    rw [length_cons, range'_succ, mapM_cons, ih, show g s = some x from h 0 x rfl]
    rfl

section Table
variable {α : Type*} {f : α → Str} {k : ℕ}

lemma length_flatMap (l : List α) (h : ∀ x ∈ l, (f x).length = k) :
    (l.flatMap f).length = l.length * k := by
  induction l with
  | nil => simp
  | cons x l ih =>
    rw [flatMap_cons, length_append, h x (by simp), ih fun y hy => h y (by simp [hy]),
      length_cons]
    ring

lemma slice_flatMap (l : List α) (h : ∀ x ∈ l, (f x).length = k) {i : ℕ} {x : α}
    (hi : l[i]? = some x) : slice (l.flatMap f) (k * i) k = some (f x) := by
  induction l generalizing i with
  | nil => simp at hi
  | cons y l ih =>
    cases i with
    | zero =>
      obtain rfl : y = x := by simpa using hi
      have := slice_append [] (f y) (l.flatMap f) rfl (h y (by simp))
      simpa using this
    | succ i =>
      have hrow := ih (fun z hz => h z (by simp [hz])) (i := i) (by simpa using hi)
      have := slice_of_slice (c := []) (h y (by simp)) hrow
      rw [append_nil] at this
      rw [flatMap_cons, mul_succ, add_comm]
      exact this

end Table

def search (f : ℕ → Option Bool) (i j : ℕ) : Option ℕ :=
  if i < j then
    match f ((i + j) / 2) with
    | none => none
    | some false => search f ((i + j) / 2 + 1) j
    | some true => search f i ((i + j) / 2)
  else some i
termination_by j - i
decreasing_by all_goals omega

lemma search_eq {f : ℕ → Option Bool} {g : ℕ → Bool} {i j : ℕ} (hij : i ≤ j)
    (hf : ∀ p, i ≤ p → p < j → f p = some (g p))
    (hg : ∀ p q, i ≤ p → p ≤ q → q < j → g p = true → g q = true) :
    ∃ pos, search f i j = some pos ∧ i ≤ pos ∧ pos ≤ j ∧ (∀ p, i ≤ p → p < pos → g p = false) ∧
      ∀ p, pos ≤ p → p < j → g p = true := by
  fun_induction search f i j with
  | case1 i j hlt hnone =>
    rw [hf _ (by omega) (by omega)] at hnone
    cases hnone
  | case2 i j hlt hfalse ih =>
    obtain ⟨pos, hs, h₁, h₂, h₃, h₄⟩ := ih (by omega) (fun p hp hpj => hf p (by omega) hpj)
      fun p q hp hpq hq => hg p q (by omega) hpq hq
    refine ⟨pos, hs, by omega, h₂, fun p hp hpp => ?_, h₄⟩
    by_cases hmid : p ≤ (i + j) / 2
    · by_contra hc
      rw [Bool.not_eq_false] at hc
      have := hg p ((i + j) / 2) hp hmid (by omega) hc
      rw [hf _ (by omega) (by omega), this] at hfalse
      cases hfalse
    · exact h₃ p (by omega) hpp
  | case3 i j hlt htrue ih =>
    obtain ⟨pos, hs, h₁, h₂, h₃, h₄⟩ := ih (by omega) (fun p hp hpj => hf p hp (by omega))
      fun p q hp hpq hq => hg p q hp hpq (by omega)
    refine ⟨pos, hs, h₁, by omega, h₃, fun p hp hpj => ?_⟩
    by_cases hmid : p < (i + j) / 2
    · exact h₄ p hp hmid
    · rw [hf _ (by omega) (by omega)] at htrue
      exact hg _ p (by omega) (by omega) hpj (Option.some.inj htrue)
  | case4 i j hlt => exact ⟨i, rfl, le_rfl, hij, fun p h₁ h₂ => by omega, fun p h₁ h₂ => by omega⟩

end Binary
