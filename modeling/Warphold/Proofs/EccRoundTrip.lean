import Warphold.Proofs.EccCode
import Warphold.Proofs.EccSizes

/-!
# Error-correcting storage returns what was stored

Padded with zeros, what is stored is one frame of every shard, the shards that are all padding apart,
which are zeros. So every shard that is not damaged is read as it was written, and the code fills in the
others.
-/

open Chunks

namespace Warphold.Ecc

open Nat List SizesInfo ReedSolomonCrc

section Input

variable {z : SizesInfo} {input : Str}

variable (hz : z.Fits input.length)
include hz

lemma length_inputBytes :
    (inputBytes z input).length = z.dataShards * z.shardSize * z.blocks := by
  have := hz.length_le
  simp only [inputBytes, length_append, length_replicate, Binary.length_put, lengthSize]
    at this ⊢
  omega

omit hz in
lemma mul_add_le {k s d b : ℕ} (h : k < d * b) : k * s + s ≤ d * s * b := by
  rw [← succ_mul, mul_right_comm]
  exact mul_le_mul_right _ h

lemma length_shard {k : ℕ} (hk : k < z.dataShards * z.blocks) :
    (z.shard (inputBytes z input) k).length = z.shardSize :=
  length_slice (by rw [length_inputBytes hz]; exact mul_add_le hk)

omit hz in
lemma index_lt {b i d n : ℕ} (hb : b < n) (hi : i < d) : b * d + i < d * n := by
  calc b * d + i < b * d + d := by omega
    _ = d * (b + 1) := by rw [mul_comm d, succ_mul]
    _ ≤ d * n := mul_le_mul_left _ hb

lemma length_of_mem_block {b : ℕ} (hb : b < z.blocks) :
    ∀ s ∈ z.block (inputBytes z input) b, s.length = z.shardSize := by
  intro s hs
  obtain ⟨i, hi, rfl⟩ := mem_map.mp hs
  exact length_shard hz (index_lt hb (mem_range.mp hi))

omit hz in
lemma length_block (bytes : Str) (b : ℕ) : (z.block bytes b).length = z.dataShards := by
  simp [block]

lemma drop_inputSizeToStore :
    (inputBytes z input).drop (z.inputSizeToStore input.length) =
      replicate (z.dataShards * z.shardSize * z.blocks - z.inputSizeToStore input.length) 0 := by
  have hlen := length_inputBytes hz
  simp only [inputSizeToStore]
  split_ifs
  · rw [drop_eq_nil_of_le hlen.le, Nat.sub_self, replicate_zero]
  · rw [inputBytes, drop_append_of_le_length, drop_eq_nil_of_le, nil_append]
    · simp [Binary.length_put, lengthSize]
    · simp [Binary.length_put, lengthSize]

lemma inputSizeToStore_le :
    z.inputSizeToStore input.length ≤ z.dataShards * z.shardSize * z.blocks := by
  simp only [inputSizeToStore]
  split_ifs
  · exact le_rfl
  · exact hz.length_le

lemma inputSizeToStore_pos : 0 < z.inputSizeToStore input.length := by
  have := hz.length_le
  simp only [inputSizeToStore, lengthSize] at this ⊢
  split_ifs <;> omega

lemma slice_padding {p n : ℕ}
    (hp : z.inputSizeToStore input.length ≤ p) (hn : p + n ≤ z.dataShards * z.shardSize * z.blocks) :
    slice (inputBytes z input) p n = replicate n 0 := by
  obtain ⟨q, rfl⟩ := Nat.exists_eq_add_of_le hp
  rw [slice, ← drop_drop, drop_inputSizeToStore hz, drop_replicate, take_replicate,
    min_eq_left (by omega)]

end Input

section Stored

variable (r : ReedSolomonCrc) {z : SizesInfo} {input : Str}

lemma length_frame {shard : Str} (h : shard.length = z.shardSize) :
    (r.frame shard).length = z.frameSize := by
  rw [frame, length_append, r.crc.length_sum, h, frameSize, crcSize]

def SizesInfo.storedShards (z : SizesInfo) (length : ℕ) : ℕ :=
  ceilInt (z.inputSizeToStore length) z.shardSize

variable (hz : z.Fits input.length)
include hz

lemma storedShards_le : z.storedShards input.length ≤ z.dataShards * z.blocks := by
  refine Nat.le_of_lt_succ (Nat.lt_of_mul_lt_mul_right (a := z.shardSize) ?_)
  have h1 := ceilInt_mul_lt (z.inputSizeToStore input.length) hz.shardSize_pos
  have h2 := inputSizeToStore_le hz
  rw [storedShards, Nat.succ_mul, Nat.mul_right_comm]
  omega

def ReedSolomonCrc.allFrames (z : SizesInfo) (input : Str) : List Str :=
  (List.range (z.dataShards * z.blocks)).map fun k =>
    if k < z.storedShards input.length then r.frame (z.shard (inputBytes z input) k)
    else List.replicate z.frameSize 0

lemma length_of_mem_allFrames : ∀ f ∈ r.allFrames z input, f.length = z.frameSize := by
  intro f hf
  obtain ⟨k, hk, rfl⟩ := mem_map.mp hf
  split_ifs
  · exact length_frame r (length_shard hz (mem_range.mp hk))
  · exact length_replicate

lemma dataBytes_eq :
    ∃ n left, z.storedShards input.length = n + 1 ∧ left ≤ z.shardSize ∧
      z.inputSizeToStore input.length = n * z.shardSize + left ∧
      r.dataBytes z (inputBytes z input) (z.inputSizeToStore input.length) =
        ((range n).map fun k => r.frame (z.shard (inputBytes z input) k)).flatten ++
          (r.crc.sum (z.shard (inputBytes z input) n) ++
            (z.shard (inputBytes z input) n).take left) := by
  have h1 := le_ceilInt_mul (z.inputSizeToStore input.length) hz.shardSize_pos
  have h2 := ceilInt_mul_lt (z.inputSizeToStore input.length) hz.shardSize_pos
  have hpos := inputSizeToStore_pos hz
  obtain ⟨n, hn⟩ : ∃ n, ceilInt (z.inputSizeToStore input.length) z.shardSize = n + 1 := by
    rcases h : ceilInt (z.inputSizeToStore input.length) z.shardSize with _ | n
    · rw [h] at h1
      omega
    · exact ⟨n, rfl⟩
  rw [hn, succ_mul] at h1 h2
  refine ⟨n, z.inputSizeToStore input.length - n * z.shardSize, hn, by omega, by omega, ?_⟩
  have hfull : ∀ k ∈ range n, (r.crc.sum (z.shard (inputBytes z input) k) ++
      (z.shard (inputBytes z input) k).take
        (min (z.inputSizeToStore input.length - k * z.shardSize) z.shardSize)) =
      r.frame (z.shard (inputBytes z input) k) := by
    intro k hk
    have hk' : (k + 1) * z.shardSize ≤ n * z.shardSize :=
      mul_le_mul_right _ (mem_range.mp hk)
    rw [succ_mul] at hk'
    rw [min_eq_right (by omega), take_of_length_le]
    · rfl
    · exact length_take_le _ _
  simp only [dataBytes, hn]
  rw [range_succ, map_append, flatten_append, map_congr_left hfull,
    map_singleton, flatten_singleton, min_eq_left (by omega)]

lemma length_dataBytes :
    (r.dataBytes z (inputBytes z input) (z.inputSizeToStore input.length)).length =
      z.inputSizeToStore input.length + crcSize * z.storedShards input.length := by
  obtain ⟨n, left, hn, hleft, hsize, hdata⟩ := dataBytes_eq r hz
  have hle := storedShards_le hz
  have hframes : ∀ f ∈ (range n).map fun k => r.frame (z.shard (inputBytes z input) k),
      f.length = z.frameSize := by
    intro f hf
    obtain ⟨k, hk, rfl⟩ := mem_map.mp hf
    have := mem_range.mp hk
    exact length_frame r (length_shard hz (by omega))
  rw [hdata, length_append, length_flatten_of_forall hframes, length_append,
    length_take, length_shard hz (by omega), r.crc.length_sum, hsize, hn, length_map,
    length_range, min_eq_left hleft, frameSize, crcSize]
  ring

lemma dataBytes_padded :
    r.dataBytes z (inputBytes z input) (z.inputSizeToStore input.length) ++
        replicate (z.dataShards * z.blocks * z.frameSize -
          (z.inputSizeToStore input.length + crcSize * z.storedShards input.length)) 0 =
      (r.allFrames z input).flatten := by
  obtain ⟨n, left, hn, hleft, hsize, hdata⟩ := dataBytes_eq r hz
  have hle := storedShards_le hz
  obtain ⟨q, hq⟩ := Nat.exists_eq_add_of_le hle
  have hlast : z.shard (inputBytes z input) n =
      (z.shard (inputBytes z input) n).take left ++ replicate (z.shardSize - left) 0 := by
    have hend : n * z.shardSize + z.shardSize ≤ z.dataShards * z.shardSize * z.blocks :=
      mul_add_le (by omega)
    have hpad := slice_padding hz (p := n * z.shardSize + left) (n := z.shardSize - left)
      (by omega) (by omega)
    have hsub : slice (z.shard (inputBytes z input) n) left (z.shardSize - left) =
        replicate (z.shardSize - left) 0 := by
      rw [shard, slice_slice _ (by omega), hpad]
    have hdrop : (z.shard (inputBytes z input) n).drop left =
        replicate (z.shardSize - left) 0 := by
      rw [← hsub, slice, take_of_length_le]
      rw [length_drop, length_shard hz (by omega)]
    rw [← hdrop, take_append_drop]
  have hstored : ∀ k ∈ range (n + 1), (if k < n + 1 then
      r.frame (z.shard (inputBytes z input) k) else replicate z.frameSize 0) =
      r.frame (z.shard (inputBytes z input) k) := fun k hk => if_pos (mem_range.mp hk)
  have hzero : ∀ k ∈ range q, ((fun k => if k < n + 1 then
      r.frame (z.shard (inputBytes z input) k) else replicate z.frameSize 0) ∘
        fun x => n + 1 + x) k = replicate z.frameSize 0 := by
    intro k _
    exact if_neg (not_lt.mpr (le_add_right (n + 1) k))
  have hcount : z.dataShards * z.blocks * z.frameSize -
      (z.inputSizeToStore input.length + crcSize * z.storedShards input.length) =
        (z.shardSize - left) + q * z.frameSize := by
    rw [hq, hn, hsize, add_mul, succ_mul, frameSize, crcSize, mul_add n]
    omega
  rw [hcount, hdata, allFrames, hq, hn, range_add, map_append,
    flatten_append, map_congr_left hstored, map_map, map_congr_left hzero,
    map_const', flatten_replicate_replicate, length_range, range_succ,
    map_append, flatten_append, replicate_add, append_assoc, append_assoc,
    append_assoc]
  congr 1
  rw [map_singleton, flatten_singleton, frame, append_assoc]
  congr 1
  rw [← append_assoc, ← hlast]

lemma length_of_mem_parity {b : ℕ} (hb : b < z.blocks) :
    ∀ f ∈ (z.enc.encode (z.block (inputBytes z input) b)).map r.frame, f.length = z.frameSize := by
  intro f hf
  obtain ⟨s, hs, rfl⟩ := mem_map.mp hf
  exact length_frame r (z.enc.length_of_mem_encode _ _ (length_block _ _)
    (length_of_mem_block hz hb) s hs)

lemma length_of_mem_parityBlocks :
    ∀ f ∈ (range z.blocks).map fun b =>
        ((z.enc.encode (z.block (inputBytes z input) b)).map r.frame).flatten,
      f.length = z.parityShards * z.frameSize := by
  intro f hf
  obtain ⟨b, hb, rfl⟩ := mem_map.mp hf
  rw [length_flatten_of_forall (length_of_mem_parity r hz (mem_range.mp hb)), length_map,
    z.enc.length_encode _ (length_block _ _)]

lemma length_parityBytes :
    (r.parityBytes z (inputBytes z input)).length = z.blocks * (z.parityShards * z.frameSize) := by
  rw [parityBytes, length_flatten_of_forall (length_of_mem_parityBlocks r hz),
    length_map, length_range]

/-- What is stored of an input with the given sizes. -/
def ReedSolomonCrc.stored (z : SizesInfo) (input : Str) : Str :=
  r.parityBytes z (inputBytes z input) ++
    r.dataBytes z (inputBytes z input) (z.inputSizeToStore input.length)

lemma length_stored : (r.stored z input).length = z.storedLength input.length := by
  rw [stored, length_append, length_parityBytes r hz, length_dataBytes r hz]
  rfl

omit hz in
lemma parityLength (z : SizesInfo) : z.parityShards * z.frameSize * z.blocks =
    z.blocks * (z.parityShards * z.frameSize) := mul_comm _ _

lemma storedParity_stored :
    z.storedParity (r.stored z input) = r.parityBytes z (inputBytes z input) := by
  rw [storedParity, padded, stored, append_assoc,
    take_append_of_le_length, take_of_length_le]
  · rw [length_parityBytes r hz, parityLength]
  · rw [length_parityBytes r hz, parityLength]

lemma storedData_stored : z.storedData (r.stored z input) = (r.allFrames z input).flatten := by
  have hlen := length_parityBytes r hz
  have hcount : (z.dataShards + z.parityShards) * z.frameSize * z.blocks -
      z.storedLength input.length = z.dataShards * z.blocks * z.frameSize -
        (z.inputSizeToStore input.length + crcSize * z.storedShards input.length) := by
    have hsplit : (z.dataShards + z.parityShards) * z.frameSize * z.blocks =
        z.blocks * (z.parityShards * z.frameSize) + z.dataShards * z.blocks * z.frameSize := by ring
    rw [hsplit, storedLength, Nat.add_sub_add_left]
    rfl
  rw [← dataBytes_padded r hz, storedData, padded, length_stored r hz, hcount,
    stored, append_assoc, drop_append, drop_eq_nil_of_le, hlen,
    parityLength, Nat.sub_self, nil_append, drop_zero]
  rw [hlen, parityLength]

lemma frameAt_storedData {k : ℕ} (hk : k < z.dataShards * z.blocks) :
    z.frameAt (z.storedData (r.stored z input)) k =
      if k < z.storedShards input.length then r.frame (z.shard (inputBytes z input) k)
      else replicate z.frameSize 0 := by
  have hi : k < (r.allFrames z input).length := by simpa [allFrames] using hk
  have h := slice_flatten (length_of_mem_allFrames r hz) hi []
  rw [append_nil] at h
  rw [frameAt, storedData_stored r hz, h]
  simp [allFrames]

lemma frameAt_storedParity {b i : ℕ} (hb : b < z.blocks)
    (hi : i < (z.enc.encode (z.block (inputBytes z input) b)).length) :
    z.frameAt (z.storedParity (r.stored z input)) (b * z.parityShards + i) =
      r.frame ((z.enc.encode (z.block (inputBytes z input) b))[i]) := by
  have hp := z.enc.length_encode _ (length_block (z := z) (inputBytes z input) b)
  have hblock := slice_flatten (length_of_mem_parityBlocks r hz) (i := b) (by simpa using hb) []
  have hframe := slice_flatten (length_of_mem_parity r hz hb) (i := i) (by simpa using hi) []
  simp only [append_nil, getElem_map, getElem_range] at hblock hframe
  rw [← hframe, ← hblock, slice_slice, storedParity_stored r hz, frameAt,
    parityBytes]
  · congr 1
    ring
  · rw [← succ_mul]
    exact mul_le_mul_right _ (by omega)

end Stored

lemma computeSizesFromStored_encrypt (r : ReedSolomonCrc) (input : Str) :
    r.computeSizesFromStored (r.encrypt input).length = r.computeSizesFromOriginal input.length := by
  have hstored : r.encrypt input = r.stored (r.computeSizesFromOriginal input.length) input := rfl
  rw [hstored, length_stored r (fits_computeSizesFromOriginal r input.length),
    computeSizesFromStored_storedLength]

section Damage

/-- `stored'` is `stored` with some shards damaged: in every block at most as many as it has parity
shards, and each of them fails its checksum. -/
structure Damaged (r : ReedSolomonCrc) (z : SizesInfo) (stored stored' : Str) : Prop where
  length_eq : stored'.length = stored.length
  data_fails : ∀ k < z.dataShards * z.blocks,
    z.frameAt (z.storedData stored') k ≠ z.frameAt (z.storedData stored) k →
      r.check (z.frameAt (z.storedData stored') k) = none
  parity_fails : ∀ k < z.parityShards * z.blocks,
    z.frameAt (z.storedParity stored') k ≠ z.frameAt (z.storedParity stored) k →
      r.check (z.frameAt (z.storedParity stored') k) = none
  few : ∀ b < z.blocks,
    ((List.range z.dataShards).countP fun i => z.frameAt (z.storedData stored')
        (b * z.dataShards + i) ≠ z.frameAt (z.storedData stored) (b * z.dataShards + i)) +
      ((List.range z.parityShards).countP fun i => z.frameAt (z.storedParity stored')
        (b * z.parityShards + i) ≠ z.frameAt (z.storedParity stored) (b * z.parityShards + i)) ≤
      z.parityShards

lemma Damaged.refl (r : ReedSolomonCrc) (z : SizesInfo) (stored : Str) :
    Damaged r z stored stored :=
  ⟨rfl, fun _ _ h => absurd rfl h, fun _ _ h => absurd rfl h, by simp⟩

variable {r : ReedSolomonCrc} {z : SizesInfo} {input stored' : Str}

lemma check_frame (shard : Str) : r.check (r.frame shard) = some shard := by
  have hlen : (r.crc.sum shard).length = crcSize := r.crc.length_sum shard
  rw [check, frame, take_left' hlen, drop_left' hlen,
    if_pos rfl]

lemma frameAt_padding {st : Str} (hst : z.parityShards * z.frameSize * z.blocks ≤ st.length) {k : ℕ}
    (hk : st.length - z.parityShards * z.frameSize * z.blocks ≤ k * z.frameSize) :
    z.frameAt (z.storedData st) k = slice (replicate
      ((z.dataShards + z.parityShards) * z.frameSize * z.blocks - st.length) 0)
      (k * z.frameSize - (st.length - z.parityShards * z.frameSize * z.blocks)) z.frameSize := by
  rw [frameAt, storedData, padded, drop_append_of_le_length hst,
    slice_append_right _ _ (by rw [length_drop]; exact hk), length_drop]

variable (hz : z.Fits input.length)
include hz

lemma parity_le_stored : z.parityShards * z.frameSize * z.blocks ≤ (r.stored z input).length := by
  rw [length_stored r hz, parityLength]
  exact le_add_right _ _

lemma paddingStart :
    (r.stored z input).length - z.parityShards * z.frameSize * z.blocks =
      z.inputSizeToStore input.length + crcSize * z.storedShards input.length := by
  rw [length_stored r hz, parityLength, storedLength, Nat.add_sub_cancel_left]
  rfl

variable (h : Damaged r z (r.stored z input) stored')
include h

lemma dataShardAt_of_ne {k : ℕ} (hk : k < z.dataShards * z.blocks)
    (hne : z.frameAt (z.storedData stored') k ≠ z.frameAt (z.storedData (r.stored z input)) k) :
    r.dataShardAt z stored' k = none := by
  have hle := parity_le_stored (r := r) hz
  simp only [dataShardAt]
  by_cases hpos : k * z.frameSize < stored'.length - z.parityShards * z.frameSize * z.blocks
  · rw [if_pos hpos]
    exact h.data_fails k hk hne
  · refine absurd ?_ hne
    rw [frameAt_padding (h.length_eq ▸ hle) (by omega),
      frameAt_padding hle (by rw [← h.length_eq]; omega), h.length_eq]

lemma dataShardAt_of_eq {k : ℕ} (hk : k < z.dataShards * z.blocks)
    (heq : z.frameAt (z.storedData stored') k = z.frameAt (z.storedData (r.stored z input)) k) :
    r.dataShardAt z stored' k = some (z.shard (inputBytes z input) k) := by
  simp only [dataShardAt]
  rw [heq, h.length_eq, paddingStart hz, frameAt_storedData r hz hk]
  by_cases hs : k < z.storedShards input.length
  · rw [if_pos hs, check_frame]
    have hdrop : (r.frame (z.shard (inputBytes z input) k)).drop crcSize =
        z.shard (inputBytes z input) k := drop_left' (r.crc.length_sum _)
    rw [hdrop, ite_self]
  · have h1 := le_ceilInt_mul (z.inputSizeToStore input.length) hz.shardSize_pos
    have h2 : z.storedShards input.length * z.shardSize ≤ k * z.shardSize :=
      mul_le_mul_right _ (by omega)
    have hpad : ¬ k * z.frameSize <
        z.inputSizeToStore input.length + crcSize * z.storedShards input.length := by
      rw [frameSize, crcSize, mul_add]
      rw [storedShards] at h2 hs ⊢
      omega
    have hshard : z.shard (inputBytes z input) k = replicate z.shardSize 0 :=
      slice_padding hz (h1.trans h2) (mul_add_le hk)
    rw [if_neg hs, if_neg hpad, hshard, drop_replicate, frameSize,
      Nat.add_sub_cancel_left]

variable {b : ℕ}

lemma parityShardAt_eq {i : ℕ} (hb : b < z.blocks)
    (hi : i < (z.enc.encode (z.block (inputBytes z input) b)).length) :
    r.parityShardAt z stored' (b * z.parityShards + i) =
      if z.frameAt (z.storedParity stored') (b * z.parityShards + i) =
          z.frameAt (z.storedParity (r.stored z input)) (b * z.parityShards + i) then
        some ((z.enc.encode (z.block (inputBytes z input) b))[i]) else none := by
  have hp := z.enc.length_encode _ (length_block (z := z) (inputBytes z input) b)
  split_ifs with heq
  · rw [parityShardAt, heq, frameAt_storedParity r hz hb hi, check_frame]
  · exact h.parity_fails _ (index_lt hb (by omega)) heq

lemma received_forall (hb : b < z.blocks) :
    Forall₂ (fun r s => r = none ∨ r = some s) (r.received z stored' b)
      (z.block (inputBytes z input) b ++ z.enc.encode (z.block (inputBytes z input) b)) := by
  have hp := z.enc.length_encode _ (length_block (z := z) (inputBytes z input) b)
  refine rel_append ?_ ?_
  · rw [block, forall₂_map_left_iff, forall₂_map_right_iff, forall₂_same]
    intro i hi
    have hk := index_lt hb (mem_range.mp hi)
    by_cases heq : z.frameAt (z.storedData stored') (b * z.dataShards + i) =
        z.frameAt (z.storedData (r.stored z input)) (b * z.dataShards + i)
    · exact .inr (dataShardAt_of_eq hz h hk heq)
    · exact .inl (dataShardAt_of_ne hz h hk heq)
  · rw [forall₂_iff_get]
    refine ⟨by simp [hp], fun i h1 h2 => ?_⟩
    simp only [get_eq_getElem, getElem_map, getElem_range, parityShardAt_eq hz h hb h2]
    split_ifs
    · exact .inr rfl
    · exact .inl rfl

lemma received_missing (hb : b < z.blocks) :
    (r.received z stored' b).countP Option.isNone ≤ z.parityShards := by
  have hp := z.enc.length_encode _ (length_block (z := z) (inputBytes z input) b)
  refine le_trans ?_ (h.few b hb)
  rw [received, countP_append, countP_map, countP_map]
  refine Nat.add_le_add (countP_mono_left ?_) (countP_mono_left ?_)
  · intro i hi hnone
    have hk := index_lt hb (mem_range.mp hi)
    refine decide_eq_true fun heq => ?_
    rw [Function.comp_apply, dataShardAt_of_eq hz h hk heq] at hnone
    cases hnone
  · intro i hi hnone
    have hlt : i < (z.enc.encode (z.block (inputBytes z input) b)).length := by
      rw [hp]
      exact mem_range.mp hi
    refine decide_eq_true fun heq => ?_
    rw [Function.comp_apply, parityShardAt_eq hz h hb hlt, if_pos heq] at hnone
    cases hnone

lemma reconstructData_received (hb : b < z.blocks) :
    z.enc.reconstructData (r.received z stored' b) = some (z.block (inputBytes z input) b) :=
  z.enc.reconstructData_eq _ _ _ hz.shardSize_pos (length_block _ _) (length_of_mem_block hz hb)
    (received_forall hz h hb) (received_missing hz h hb)

end Damage

section Output

def Output.Wrote (o : Output) (size : ℕ) (data : Str) : Prop :=
  o.originalSize = size ∧ o.bytes = data.take size ∧ o.written = o.bytes.length

lemma Output.Wrote.copy {size s : ℕ} {shards : List Str} (hs : ∀ x ∈ shards, x.length = s) {o : Output}
    {data : Str} (h : o.Wrote size data) {startByte : ℕ} (hstart : startByte ≤ s) :
    (o.copy s startByte shards).Wrote size (data ++ shards.flatten.drop startByte) := by
  induction shards generalizing o data startByte with
  | nil => simpa [Output.copy] using h
  | cons x rest ih =>
    obtain ⟨hsize, hbytes, hwritten⟩ := h
    have hx := hs x mem_cons_self
    rw [flatten_cons, drop_append_of_le_length (by omega), ← append_assoc]
    simp only [Output.copy, hsize]
    split_ifs with hlt
    · have hshort : data.length < size := by
        rw [hwritten, hbytes, length_take] at hlt
        omega
      have hall : o.bytes = data := by rw [hbytes, take_of_length_le hshort.le]
      rw [show rest.flatten = rest.flatten.drop 0 from rfl]
      refine ih (fun y hy => hs y (mem_cons_of_mem _ hy)) ⟨rfl, ?_, ?_⟩ (zero_le _)
      · rw [hall, hwritten, hall, slice, take_append, take_of_length_le hshort.le]
        rw [← take_take, take_of_length_le (i := s - startByte)]
        rw [length_drop, hx]
      · simp only [length_append, ← hwritten, slice, length_take, length_drop, hx]
        omega
    · have hlong : size ≤ data.length := by
        rw [hwritten, hbytes, length_take] at hlt
        omega
      refine ⟨hsize, ?_, hwritten⟩
      rw [hbytes, append_assoc, take_append_of_le_length hlong]

lemma drop_flatten {s : ℕ} {shards : List Str} (hs : ∀ x ∈ shards, x.length = s) (k : ℕ) :
    (shards.drop k).flatten = shards.flatten.drop (k * s) := by
  induction shards generalizing k with
  | nil => simp
  | cons x rest ih =>
    have hx := hs x mem_cons_self
    rcases k with _ | k
    · simp
    · have hdrop : x.drop ((k + 1) * s) = [] :=
        drop_eq_nil_of_le (by rw [hx, succ_mul]; omega)
      rw [drop_succ_cons, ih (fun y hy => hs y (mem_cons_of_mem _ hy)), flatten_cons,
        drop_append, hdrop, nil_append, hx, Nat.succ_mul, Nat.add_sub_cancel]

variable {z : SizesInfo} {input : Str}

lemma block_flatten (bytes : Str) (b : ℕ) : (z.block bytes b).flatten =
    slice bytes (b * (z.dataShards * z.shardSize)) (z.dataShards * z.shardSize) := by
  have hshard : ∀ i ∈ range z.dataShards, z.shard bytes (b * z.dataShards + i) =
      slice (slice bytes (b * (z.dataShards * z.shardSize)) (z.dataShards * z.shardSize))
        (i * z.shardSize) z.shardSize := by
    intro i hi
    have hle : (i + 1) * z.shardSize ≤ z.dataShards * z.shardSize :=
      mul_le_mul_right _ (mem_range.mp hi)
    rw [succ_mul] at hle
    rw [slice_slice _ hle, shard, add_mul, mul_assoc]
  rw [block, map_congr_left hshard, flatten_slices, take_of_length_le]
  exact length_take_le _ _

variable (hz : z.Fits input.length)
include hz

lemma readLength_block :
    ∃ startShard startByte, readLength (z.block (inputBytes z input) 0) z.shardSize =
        (input.length % 2 ^ 32, startShard, startByte) ∧
      startByte ≤ z.shardSize ∧ startShard * z.shardSize + startByte = 4 := by
  have hd := hz.le_dataShards
  have hpos := hz.shardSize_pos
  have hget : Binary.get (Binary.put 4 input.length) = input.length % 2 ^ 32 := Binary.get_put 4 _
  obtain ⟨a, b, c, d, habcd⟩ : ∃ a b c d, Binary.put 4 input.length = [a, b, c, d] :=
    ⟨_, _, _, _, rfl⟩
  obtain ⟨rest, hbytes⟩ : ∃ rest, inputBytes z input = a :: b :: c :: d :: rest :=
    ⟨_, by rw [inputBytes, habcd]; rfl⟩
  have hshard : ∀ i < z.dataShards, (z.block (inputBytes z input) 0).getD i [] =
      slice (a :: b :: c :: d :: rest) (i * z.shardSize) z.shardSize := by
    intro i hi
    rw [hbytes]
    simp [block, shard, getD, hi]
  rw [habcd] at hget
  have h0 := hshard 0 (by omega)
  have h1 := hshard 1 (by omega)
  have h2 := hshard 2 (by omega)
  have h3 := hshard 3 (by omega)
  rw [zero_mul] at h0
  simp only [readLength, h0, h1, h2, h3, ← hget]
  rcases hs : z.shardSize with _ | _ | _ | _ | _ | s
  · omega
  · exact ⟨4, 0, rfl, by omega, by omega⟩
  · exact ⟨2, 0, rfl, by omega, by omega⟩
  · exact ⟨1, 1, rfl, by omega, by omega⟩
  · exact ⟨1, 0, rfl, by omega, by omega⟩
  · exact ⟨0, 4, rfl, by omega, by omega⟩

lemma Output.Wrote.block_zero :
    (Output.block {} z.shardSize 0 (z.block (inputBytes z input) 0)).Wrote (input.length % 2 ^ 32)
      ((z.block (inputBytes z input) 0).flatten.drop 4) := by
  obtain ⟨startShard, startByte, hread, hle, hfour⟩ := readLength_block hz
  have hlen := length_of_mem_block hz hz.blocks_pos
  have hempty : (Output.mk (input.length % 2 ^ 32) 0 []).Wrote (input.length % 2 ^ 32) [] :=
    ⟨rfl, by simp, rfl⟩
  have hmem : ∀ x ∈ (z.block (inputBytes z input) 0).drop startShard, x.length = z.shardSize :=
    fun x hx => hlen x (mem_of_mem_drop hx)
  have hcopy := hempty.copy hmem hle
  rw [drop_flatten hlen, drop_drop, hfour, nil_append] at hcopy
  simp only [Output.block, if_true, hread]
  exact hcopy

lemma wrote_blocks (m : ℕ) (hm : m < z.blocks) :
    ((range (m + 1)).foldl (fun o b => Output.block o z.shardSize b
      (z.block (inputBytes z input) b)) {}).Wrote (input.length % 2 ^ 32)
      (((inputBytes z input).take ((m + 1) * (z.dataShards * z.shardSize))).drop 4) := by
  induction m with
  | zero =>
    have h := Output.Wrote.block_zero hz
    rw [block_flatten, zero_mul] at h
    rw [zero_add, one_mul]
    exact h
  | succ m ih =>
    have hlen := length_of_mem_block hz hm
    have hnext := (ih (by omega)).copy hlen (zero_le _)
    have hfour : 4 ≤ ((inputBytes z input).take ((m + 1) * (z.dataShards * z.shardSize))).length := by
      have h6 : 6 * 1 ≤ z.dataShards * z.shardSize :=
        Nat.mul_le_mul hz.le_dataShards hz.shardSize_pos
      have h1 : z.dataShards * z.shardSize ≤ (m + 1) * (z.dataShards * z.shardSize) :=
        Nat.le_mul_of_pos_left _ (Nat.succ_pos m)
      have h2 := hz.length_le
      rw [length_take, length_inputBytes hz]
      simp only [lengthSize] at h2
      omega
    rw [block_flatten, drop_zero, ← drop_append_of_le_length hfour, slice,
      ← take_add, ← succ_mul] at hnext
    rw [range_succ, foldl_append, foldl_cons, foldl_nil, Output.block,
      if_neg (succ_ne_zero m)]
    exact hnext

end Output

section RoundTrip

variable (r : ReedSolomonCrc) (input : Str)

lemma foldlM_some {α β : Type*} {f : β → α → Option β} {g : β → α → β} {l : List α}
    (h : ∀ a ∈ l, ∀ o, f o a = some (g o a)) (o : β) : l.foldlM f o = some (l.foldl g o) := by
  induction l generalizing o with
  | nil => rfl
  | cons a rest ih =>
    rw [foldlM_cons, h a mem_cons_self, foldl_cons]
    exact ih (fun a' ha' => h a' (mem_cons_of_mem _ ha')) _

lemma drop_inputBytes (z : SizesInfo) : (inputBytes z input).drop 4 =
    input ++ replicate (z.dataShards * z.shardSize * z.blocks - (lengthSize + input.length)) 0 := by
  rw [inputBytes, append_assoc, drop_left' (Binary.length_put 4 _)]

lemma decrypt_of_damaged {stored' : Str}
    (h : Damaged r (r.computeSizesFromOriginal input.length) (r.encrypt input) stored') :
    r.decrypt stored' = some (((inputBytes (r.computeSizesFromOriginal input.length) input).drop
      4).take (input.length % 2 ^ 32)) := by
  have hz := fits_computeSizesFromOriginal r input.length
  have hsizes : r.computeSizesFromStored stored'.length = r.computeSizesFromOriginal input.length := by
    rw [h.length_eq, computeSizesFromStored_encrypt]
  rw [decrypt, hsizes]
  set z := r.computeSizesFromOriginal input.length
  have hstep : ∀ b ∈ range z.blocks, ∀ o : Output,
      ((z.enc.reconstructData (r.received z stored' b)).map fun shards =>
        o.block z.shardSize b shards) =
      some (o.block z.shardSize b (z.block (inputBytes z input) b)) := by
    intro b hb o
    rw [reconstructData_received hz h (mem_range.mp hb), Option.map_some]
  obtain ⟨m, hm⟩ : ∃ m, z.blocks = m + 1 := ⟨z.blocks - 1, by have := hz.blocks_pos; omega⟩
  obtain ⟨-, hbytes, -⟩ := wrote_blocks hz m (by omega)
  have hall : (inputBytes z input).length ≤ (m + 1) * (z.dataShards * z.shardSize) := by
    rw [length_inputBytes hz, hm, mul_comm]
  rw [foldlM_some hstep, Option.map_some, hm, hbytes, take_of_length_le hall]

/-- What is decoded is the input, after any damage that the parity shards can make up for, exactly
when the length of the input fits in 32 bits. -/
theorem decrypt_encrypt_iff :
    (r.computeSizesFromStored (r.encrypt input).length = r.computeSizesFromOriginal input.length ∧
      ∀ stored', Damaged r (r.computeSizesFromOriginal input.length) (r.encrypt input) stored' →
        r.decrypt stored' = some input) ↔ input.length < 2 ^ 32 := by
  constructor
  · rintro ⟨-, h⟩
    have hsame := h _ (.refl r _ _)
    rw [decrypt_of_damaged r input (.refl r _ _), Option.some.injEq] at hsame
    have hlen := congrArg length hsame
    rw [length_take] at hlen
    have := Nat.mod_lt input.length (show 0 < 2 ^ 32 by norm_num)
    omega
  · intro hlt
    refine ⟨computeSizesFromStored_encrypt r input, fun stored' h => ?_⟩
    rw [decrypt_of_damaged r input h, drop_inputBytes, Nat.mod_eq_of_lt hlt, take_left]

/-- An input of 2^32 bytes is decoded as the empty one, whichever the options. -/
theorem long_input_lost : ∃ input : Str, ∃ library crc, ∀ overheadPercent maxShardSize percent inverse,
    (newReedSolomonCrcECC overheadPercent maxShardSize percent inverse crc library).decrypt
      ((newReedSolomonCrcECC overheadPercent maxShardSize percent inverse crc library).encrypt
        input) = some [] ∧ input ≠ [] := by
  refine ⟨replicate (2 ^ 32) 0,
    fun _ _ hd hdp => Classical.choice (exists_encoder hd hdp),
    ⟨fun _ => [0, 0, 0, 0], fun _ => rfl⟩, fun _ _ _ _ => ⟨?_, ?_⟩⟩
  · rw [decrypt_of_damaged _ _ (.refl _ _ _), length_replicate, Nat.mod_self, take_zero]
  · intro h
    have := congrArg length h
    rw [length_replicate] at this
    norm_num at this

end RoundTrip

end Warphold.Ecc
