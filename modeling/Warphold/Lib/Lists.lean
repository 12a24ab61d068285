import Mathlib

/-!
# Lists of results and association lists
-/

namespace Lists

open List

variable {α β : Type} {f : α → Option β} {l : List α}

lemma map_of_mapM : ∀ {l : List α} {ys : List β}, l.mapM f = some ys → l.map f = ys.map some
  | [], ys, h => by
    cases h
    rfl
  | x :: l, ys, h => by
    simp only [mapM_cons, Option.bind_eq_bind, Option.bind_eq_some_iff, Option.pure_def,
      Option.some.injEq] at h
    obtain ⟨y, hy, ys, hys, rfl⟩ := h
    rw [map_cons, map_cons, hy, map_of_mapM hys]

lemma mem_iff_of_mapM {ys : List β} (h : l.mapM f = some ys) (y : β) :
    y ∈ ys ↔ ∃ x ∈ l, f x = some y := by
  rw [← mem_map_of_injective (Option.some_injective β), ← map_of_mapM h, mem_map]

lemma exists_of_mapM {ys : List β} (h : l.mapM f = some ys) {x : α} (hx : x ∈ l) :
    ∃ y ∈ ys, f x = some y := by
  obtain ⟨y, hy, hxy⟩ := mem_map.1 (map_of_mapM h ▸ mem_map_of_mem hx)
  exact ⟨y, hy, hxy.symm⟩

lemma length_of_mapM {ys : List β} (h : l.mapM f = some ys) : ys.length = l.length := by
  simpa using (congrArg length (map_of_mapM h)).symm

lemma mem_of_lookup [BEq α] [LawfulBEq α] {k : α} {v : β} {l : List (α × β)}
    (h : l.lookup k = some v) : (k, v) ∈ l := by
  obtain ⟨l₁, l₂, rfl, -⟩ := lookup_eq_some_iff.1 h
  simp

end Lists
