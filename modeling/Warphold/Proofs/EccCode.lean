import Warphold.Ecc.ReedSolomon

/-!
# A correct erasure code

Bytes are the elements of a field of 256 elements. Column by column, the data shards are the values
of a polynomial of low degree at the first points, and the parity shards its values at further
points.
-/

open Polynomial

namespace Warphold.Ecc

open Finset List

section Field

lemma exists_equiv_byte : Nonempty (UInt8 ≃ GaloisField 2 8) := by
  have hfin : UInt8 ≃ Fin 256 := ⟨UInt8.toFin, UInt8.ofFin, fun _ => rfl, fun _ => rfl⟩
  have hcard : Nat.card UInt8 = Nat.card (GaloisField 2 8) := by
    rw [Nat.card_congr hfin, Nat.card_eq_fintype_card, Fintype.card_fin,
      GaloisField.card 2 8 (by decide)]
    norm_num
  have : Finite UInt8 := Finite.of_equiv _ hfin.symm
  exact Finite.card_eq.mp hcard

end Field

section Code

variable {F : Type*} (e : UInt8 ≃ F)

def point (i : ℕ) : F := e (UInt8.ofNat i)

lemma point_injOn (s : Finset ℕ) (hs : ∀ i ∈ s, i < 256) : Set.InjOn (point e) s := by
  intro i hi j hj h
  have h' := congrArg UInt8.toNat (e.injective h)
  rw [UInt8.toNat_ofNat', UInt8.toNat_ofNat'] at h'
  have := hs i hi
  have := hs j hj
  omega

variable [Field F] (d p : ℕ)

noncomputable def columnPoly (data : List Str) (col : ℕ) : F[X] :=
  Lagrange.interpolate (Finset.range d) (point e) fun i => e ((data.getD i []).getD col 0)

noncomputable def symbol (data : List Str) (col i : ℕ) : UInt8 :=
  e.symm ((columnPoly e d data col).eval (point e i))

noncomputable def encodeColumns (data : List Str) : List Str :=
  (List.range p).map fun j => (List.range (data.headD []).length).map fun col =>
    symbol e d data col (d + j)

variable {e d p}

lemma symbol_of_lt (hd : d ≤ 256) (data : List Str) (col : ℕ) {i : ℕ} (hi : i < d) :
    symbol e d data col i = (data.getD i []).getD col 0 := by
  have hinj := point_injOn e (Finset.range d) fun i hi => by
    have := Finset.mem_range.mp hi
    omega
  rw [symbol, columnPoly, Lagrange.eval_interpolate_at_node _ hinj (Finset.mem_range.mpr hi),
    Equiv.symm_apply_apply]

variable {data data' : List Str} {n n' : ℕ}

lemma length_headD (hd : 0 < d) (hlen : data.length = d) (hn : ∀ s ∈ data, s.length = n) :
    (data.headD []).length = n := by
  rcases data with _ | ⟨s, rest⟩
  · simp at hlen
    omega
  · exact hn s mem_cons_self

lemma getD_block (hd : 0 < d) (hdp : d + p ≤ 256) (hlen : data.length = d)
    (hn : ∀ s ∈ data, s.length = n) {i : ℕ} (hi : i < d + p) :
    (data ++ encodeColumns e d p data).getD i [] =
      (List.range n).map fun col => symbol e d data col i := by
  by_cases h : i < d
  · have hmem : data.getD i [] ∈ data := by
      rw [getD_eq_getElem _ _ (by omega)]
      exact getElem_mem _
    rw [getD_append _ _ _ _ (by omega)]
    refine ext_getElem (by rw [hn _ hmem, length_map, length_range]) fun col h1 h2 => ?_
    rw [getElem_map, getElem_range, symbol_of_lt (by omega) _ _ h,
      getD_eq_getElem _ _ h1]
  · rw [List.getD_append_right _ _ _ _ (by omega), encodeColumns, length_headD hd hlen hn,
      getD_eq_getElem _ _ (by simp; omega), getElem_map, getElem_range, hlen,
      Nat.add_sub_cancel' (by omega)]

def present (received : List (Option Str)) : Finset ℕ :=
  (Finset.range received.length).filter fun i => (received.getD i none).isSome

lemma card_present (received : List (Option Str)) :
    (present received).card + received.countP Option.isNone = received.length := by
  have hmap : received = (List.range received.length).map fun i => received.getD i none := by
    refine List.ext_getElem (by simp) fun i h1 h2 => ?_
    rw [getElem_map, getElem_range, getD_eq_getElem _ _ h1]
  have hcard : (present received).card =
      (List.range received.length).countP fun i => (received.getD i none).isSome := by
    rw [present, countP_eq_length_filter, ← toFinset_range, ← toFinset_filter,
      toFinset_card_of_nodup (nodup_range.filter _)]
  have hnone : received.countP Option.isNone =
      (List.range received.length).countP fun i => ¬ (received.getD i none).isSome := by
    conv_lhs => rw [hmap]
    rw [countP_map]
    refine countP_congr fun i _ => ?_
    rw [Function.comp_apply]
    cases received.getD i none <;> simp
  have hsum := length_eq_countP_add_countP
    (fun i => (received.getD i none).isSome) (l := range received.length)
  rw [length_range] at hsum
  rw [hcard, hnone]
  exact hsum.symm

lemma forall_present {received : List (Option Str)} {block : List Str}
    (h : Forall₂ (fun r s => r = none ∨ r = some s) received block) :
    ∀ i ∈ present received, received.getD i none = some (block.getD i []) := by
  intro i hi
  obtain ⟨hlen, hget⟩ := forall₂_iff_get.mp h
  rw [present, Finset.mem_filter, Finset.mem_range] at hi
  obtain ⟨hi, hsome⟩ := hi
  have hi' : i < block.length := hlen ▸ hi
  rw [getD_eq_getElem _ _ hi] at hsome ⊢
  rw [getD_eq_getElem _ _ hi']
  rcases hget i hi hi' with hnone | heq
  · rw [get_eq_getElem] at hnone
    rw [hnone] at hsome
    cases hsome
  · exact heq

lemma data_unique (hdp : d + p ≤ 256) (hlen : data.length = d) (hlen' : data'.length = d)
    (hn : ∀ s ∈ data, s.length = n) (hn' : ∀ s ∈ data', s.length = n') {s : Finset ℕ}
    (hs : ∀ i ∈ s, i < d + p) (hcard : d ≤ s.card)
    (h : ∀ i ∈ s, (data ++ encodeColumns e d p data).getD i [] =
      (data' ++ encodeColumns e d p data').getD i []) : data = data' := by
  rcases Nat.eq_zero_or_pos d with hd | hd
  · rw [List.length_eq_zero_iff.mp (hlen.trans hd), List.length_eq_zero_iff.mp (hlen'.trans hd)]
  have hrow : ∀ i ∈ s, ((List.range n).map fun col => symbol e d data col i) =
      (List.range n').map fun col => symbol e d data' col i := by
    intro i hi
    rw [← getD_block hd hdp hlen hn (hs i hi), ← getD_block hd hdp hlen' hn' (hs i hi), h i hi]
  obtain rfl : n = n' := by
    obtain ⟨i, hi⟩ := card_pos.mp (by omega : 0 < s.card)
    simpa using congrArg length (hrow i hi)
  have hpoly : ∀ col < n, columnPoly e d data col = columnPoly e d data' col := by
    intro col hcol
    have hdeg : ∀ x : List Str, (columnPoly e d x col).degree < s.card := by
      intro x
      have hinj := point_injOn e (range d) fun i hi => by
        have := Finset.mem_range.mp hi
        omega
      have hlt := Lagrange.degree_interpolate_lt (fun i => e ((x.getD i []).getD col 0)) hinj
      rw [card_range] at hlt
      exact lt_of_lt_of_le hlt (by exact_mod_cast hcard)
    refine eq_of_degrees_lt_of_eval_index_eq s (point_injOn e s fun i hi => ?_) (hdeg _) (hdeg _)
      fun i hi => ?_
    · have := hs i hi
      omega
    · have hcolumn := List.map_inj_left.mp (hrow i hi) col (List.mem_range.mpr hcol)
      exact e.symm.injective hcolumn
  refine List.ext_getElem (hlen.trans hlen'.symm) fun i h1 h2 => ?_
  have hblock := getD_block (e := e) hd hdp hlen hn (i := i) (by omega)
  have hblock' := getD_block (e := e) hd hdp hlen' hn' (i := i) (by omega)
  rw [getD_append _ _ _ _ h1, getD_eq_getElem _ _ h1] at hblock
  rw [getD_append _ _ _ _ h2, getD_eq_getElem _ _ h2] at hblock'
  rw [hblock, hblock']
  refine map_congr_left fun col hcol => ?_
  rw [symbol, symbol, hpoly col (List.mem_range.mp hcol)]

def Explains (e : UInt8 ≃ F) (d p : ℕ) (received : List (Option Str)) (data : List Str) : Prop :=
  data.length = d ∧ (∃ n, ∀ s ∈ data, s.length = n) ∧
    List.Forall₂ (fun r s => r = none ∨ r = some s) received (data ++ encodeColumns e d p data)

lemma Explains.unique (hdp : d + p ≤ 256) {received : List (Option Str)}
    (hmissing : received.countP Option.isNone ≤ p) (h : Explains e d p received data)
    (h' : Explains e d p received data') : data = data' := by
  obtain ⟨hlen, ⟨n, hn⟩, hall⟩ := h
  obtain ⟨hlen', ⟨n', hn'⟩, hall'⟩ := h'
  have hlength : received.length = d + p := by
    rw [hall.length_eq, length_append, hlen, encodeColumns, length_map, length_range]
  have hcard := card_present received
  refine data_unique (e := e) hdp hlen hlen' hn hn' (s := present received) (fun i hi => ?_)
    (by omega) fun i hi => ?_
  · rw [← hlength]
    exact Finset.mem_range.mp (Finset.mem_filter.mp hi).1
  · exact Option.some.inj ((forall_present hall i hi).symm.trans (forall_present hall' i hi))

open scoped Classical in
noncomputable def columnEncoder (e : UInt8 ≃ F) (hd : 0 < d) (hdp : d + p ≤ 256) : Encoder d p where
  encode := encodeColumns e d p
  reconstructData received :=
    if h : ∃ data, Explains e d p received data then some h.choose else none
  length_encode data _ := by simp [encodeColumns]
  length_of_mem_encode n data hlen hn s hs := by
    obtain ⟨j, hj, rfl⟩ := List.mem_map.mp hs
    rw [List.length_map, List.length_range, length_headD hd hlen hn]
  reconstructData_eq n data received _ hlen hn hall hmissing := by
    have hex : Explains e d p received data := ⟨hlen, ⟨n, hn⟩, hall⟩
    have h : ∃ data, Explains e d p received data := ⟨data, hex⟩
    rw [dif_pos h, h.choose_spec.unique hdp hmissing hex]

end Code

lemma exists_encoder {d p : ℕ} (hd : 0 < d) (hdp : d + p ≤ 256) : Nonempty (Encoder d p) := by
  obtain ⟨e⟩ := exists_equiv_byte
  exact ⟨columnEncoder e hd hdp⟩

end Warphold.Ecc
