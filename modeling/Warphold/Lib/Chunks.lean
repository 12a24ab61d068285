import Mathlib

/-!
# Slices of a list

A list cut into pieces of one length, and a list put together from such pieces: a piece is read back by
its position (`Chunks.slice_flatten`), and the pieces put together are the list
(`Chunks.flatten_slices`).
-/

namespace Chunks

open List

variable {α : Type*}

def slice (l : List α) (p n : ℕ) : List α := (l.drop p).take n

lemma flatten_slices (l : List α) (k n : ℕ) :
    ((range n).map fun i => slice l (i * k) k).flatten = l.take (n * k) := by
  induction n with
  | zero => simp
  | succ n ih =>
    rw [range_succ, map_append, flatten_append, ih, Nat.succ_mul, take_add]
    simp [slice]

lemma length_slice {l : List α} {p n : ℕ} (h : p + n ≤ l.length) : (slice l p n).length = n := by
  rw [slice, length_take, length_drop]
  omega

lemma slice_append_left {l : List α} {p n : ℕ} (h : p + n ≤ l.length) (t : List α) :
    slice (l ++ t) p n = slice l p n := by
  rw [slice, drop_append_of_le_length (by omega), take_append_of_le_length]
  · rfl
  · rw [length_drop]
    omega

lemma slice_append_right (l t : List α) {p : ℕ} (h : l.length ≤ p) (n : ℕ) :
    slice (l ++ t) p n = slice t (p - l.length) n := by
  rw [slice, drop_append, drop_eq_nil_of_le h, nil_append]
  rfl

lemma slice_slice (l : List α) {p n q m : ℕ} (h : q + m ≤ n) :
    slice (slice l p n) q m = slice l (p + q) m := by
  rw [slice, slice, slice, drop_take, drop_drop, take_take, Nat.min_eq_left (by omega)]

lemma length_flatten_of_forall {k : ℕ} {fs : List (List α)} (h : ∀ f ∈ fs, f.length = k) :
    fs.flatten.length = fs.length * k := by
  rw [length_flatten, map_congr_left h, map_const', sum_replicate]
  simp

lemma slice_flatten {k : ℕ} {fs : List (List α)} (h : ∀ f ∈ fs, f.length = k) {i : ℕ}
    (hi : i < fs.length) (t : List α) : slice (fs.flatten ++ t) (i * k) k = fs[i] := by
  induction fs generalizing i with
  | nil => simp at hi
  | cons f rest ih =>
    have hf := h f mem_cons_self
    have hrest := fun f' hf' => h f' (mem_cons_of_mem _ hf')
    rw [flatten_cons, append_assoc]
    rcases i with _ | i
    · rw [Nat.zero_mul, slice_append_left (by omega)]
      simp [slice, ← hf]
    · rw [slice_append_right _ _ (by rw [hf, Nat.succ_mul]; omega), hf, Nat.succ_mul,
        Nat.add_sub_cancel]
      exact ih hrest (by simpa using hi)

end Chunks
