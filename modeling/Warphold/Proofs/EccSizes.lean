import Warphold.Ecc.ReedSolomon

/-!
# The sizes used for encoding and decoding

The length of what is stored tells which of the three layouts it has, and with it the size of its shards
and the number of its blocks (`computeSizesFromStored_storedLength`).
-/

namespace Warphold.Ecc

open SizesInfo ReedSolomonCrc Nat

section Quotients

lemma le_ceilInt_mul (a : ℕ) {b : ℕ} (hb : 0 < b) : a ≤ ceilInt a b * b := by
  have h := div_add_mod (a + b - 1) b
  have hlt := mod_lt (a + b - 1) hb
  rw [mul_comm] at h
  rw [ceilInt]
  omega

lemma ceilInt_mul_lt (a : ℕ) {b : ℕ} (hb : 0 < b) : ceilInt a b * b < a + b := by
  have h := div_mul_le_self (a + b - 1) b
  rw [ceilInt]
  omega

lemma ceilInt_eq {a b m : ℕ} (h1 : a ≤ m * b) (h2 : m * b < a + b) : ceilInt a b = m := by
  have hb : 0 < b := by
    rcases Nat.eq_zero_or_pos b with rfl | hb
    · simp at h1 h2
      omega
    · exact hb
  refine le_antisymm ?_ ?_
  · refine Nat.le_of_lt_succ (Nat.lt_of_mul_lt_mul_right (a := b) ?_)
    have := ceilInt_mul_lt a hb
    rw [Nat.succ_mul]
    omega
  · refine Nat.le_of_lt_succ (Nat.lt_of_mul_lt_mul_right (a := b) ?_)
    have := le_ceilInt_mul a hb
    rw [Nat.succ_mul]
    omega

lemma ceilInt_mul_self (m : ℕ) {b : ℕ} (hb : 0 < b) : ceilInt (m * b) b = m :=
  ceilInt_eq le_rfl (by omega)

end Quotients

variable (r : ReedSolomonCrc)

def SizesInfo.storedLength (z : SizesInfo) (length : ℕ) : ℕ :=
  z.blocks * (z.parityShards * z.frameSize) +
    (z.inputSizeToStore length + crcSize * ceilInt (z.inputSizeToStore length) z.shardSize)

lemma storedLength_of_storePadding {z : SizesInfo} (hz : z.storePadding) (hb : z.blocks = 1)
    (hs : 0 < z.shardSize) (length : ℕ) :
    z.storedLength length = (z.dataShards + z.parityShards) * z.frameSize := by
  simp only [storedLength, inputSizeToStore, hz, if_true, hb, mul_one,
    ceilInt_mul_self _ hs, frameSize, crcSize]
  ring

section Small

variable {length : ℕ}

lemma smallFiles_storedLength (h : length + lengthSize ≤ r.thresholdParityInput) :
    r.computeSizesFromStored
        ((r.smallFiles (ceilInt (length + lengthSize) smallFilesDataShards)).storedLength length) =
      r.smallFiles (ceilInt (length + lengthSize) smallFilesDataShards) := by
  have hlt := ceilInt_mul_lt (length + lengthSize) (b := smallFilesDataShards) (by decide)
  have hle := le_ceilInt_mul (length + lengthSize) (b := smallFilesDataShards) (by decide)
  have hc := le_ceilInt_mul r.thresholdParityInput (b := smallFilesDataShards) (by decide)
  set s := ceilInt (length + lengthSize) smallFilesDataShards with hs
  have hpos : 0 < s := by simp only [lengthSize, smallFilesDataShards] at hle; omega
  have hstored : (r.smallFiles s).storedLength length = (crcSize + s) * 8 := by
    rw [storedLength_of_storePadding rfl rfl hpos]
    simp only [smallFiles, frameSize, smallFilesDataShards,
      smallFilesParityShards]
    ring
  have hout : (crcSize + s) * 8 ≤ r.thresholdParityOutput := by
    simp only [thresholdParityOutput, computeFinalFileSizeWithPadding,
      smallFilesDataShards, smallFilesParityShards, crcSize] at hlt hc ⊢
    omega
  rw [hstored, computeSizesFromStored, if_pos hout]
  simp only [smallFilesDataShards, smallFilesParityShards]
  rw [ceilInt_mul_self _ (by decide)]
  simp only [crcSize]
  congr 1
  omega

end Small

lemma thresholdParityOutput_lt :
    r.thresholdParityOutput < 11 * (r.dataShards + r.parityShards) + 40 := by
  have hc := ceilInt_mul_lt r.thresholdParityInput (b := smallFilesDataShards) (by decide)
  simp only [thresholdParityOutput, computeFinalFileSizeWithPadding,
    thresholdParityInput, smallFilesDataShards, smallFilesParityShards,
    crcSize] at hc ⊢
  omega

section Middle

variable {length : ℕ}

lemma oneBlock_storedLength (h : ¬ length + lengthSize ≤ r.thresholdParityInput)
    (h' : length + lengthSize ≤ r.thresholdBlocksInput) :
    r.computeSizesFromStored
        ((r.oneBlock (ceilInt (length + lengthSize) r.dataShards)).storedLength length) =
      r.oneBlock (ceilInt (length + lengthSize) r.dataShards) := by
  have hd := r.le_dataShards
  have hlt := ceilInt_mul_lt (length + lengthSize) (b := r.dataShards) (by omega)
  have hle := le_ceilInt_mul (length + lengthSize) (b := r.dataShards) (by omega)
  set s := ceilInt (length + lengthSize) r.dataShards with hs
  simp only [thresholdParityInput, crcSize] at h
  have hnine : 8 < s := by
    refine Nat.lt_of_mul_lt_mul_right (a := r.dataShards) ?_
    omega
  have hmax : s ≤ r.maxShardSize := by
    refine Nat.le_of_lt_succ (Nat.lt_of_mul_lt_mul_right (a := r.dataShards) ?_)
    rw [thresholdBlocksInput, Nat.mul_comm] at h'
    rw [succ_mul]
    omega
  have hstored : (r.oneBlock s).storedLength length =
      (crcSize + s) * (r.dataShards + r.parityShards) := by
    rw [storedLength_of_storePadding rfl rfl (by simp only [oneBlock]; omega)]
    simp only [oneBlock, frameSize]
    ring
  have hout : ¬ (crcSize + s) * (r.dataShards + r.parityShards) ≤ r.thresholdParityOutput := by
    have hsmall := thresholdParityOutput_lt r
    have hmul : 13 * (r.dataShards + r.parityShards) ≤
        (crcSize + s) * (r.dataShards + r.parityShards) :=
      mul_le_mul_right _ (by simp only [crcSize]; omega)
    omega
  have hblocks : (crcSize + s) * (r.dataShards + r.parityShards) ≤ r.thresholdBlocksOutput := by
    rw [thresholdBlocksOutput, computeFinalFileSizeWithPadding, mul_one,
      mul_comm, add_comm r.dataShards]
    exact mul_le_mul_left _ (by omega)
  rw [hstored, computeSizesFromStored, if_neg hout, if_pos hblocks,
    ceilInt_mul_self _ (by omega)]
  simp only [crcSize]
  congr 1
  omega

end Middle

section Large

variable {length : ℕ}

lemma shards_of_blocks {l d m : ℕ} (hd : 0 < d) (hm : 0 < m) (hl : 0 < l) :
    (ceilInt l (d * m) - 1) * d < ceilInt l m ∧ ceilInt l m ≤ ceilInt l (d * m) * d := by
  have hdm : 0 < d * m := mul_pos hd hm
  have hn1 := le_ceilInt_mul l hm
  have hn2 := ceilInt_mul_lt l hm
  have hb1 := le_ceilInt_mul l hdm
  have hb2 := ceilInt_mul_lt l hdm
  constructor
  · refine Nat.lt_of_mul_lt_mul_right (a := m) ?_
    have hsub : (ceilInt l (d * m) - 1) * d * m = ceilInt l (d * m) * (d * m) - d * m := by
      rw [Nat.mul_assoc, Nat.sub_mul, Nat.one_mul]
    omega
  · refine Nat.le_of_lt_succ (Nat.lt_of_mul_lt_mul_right (a := m) ?_)
    have hassoc : ceilInt l (d * m) * d * m = ceilInt l (d * m) * (d * m) := Nat.mul_assoc _ _ _
    rw [succ_mul]
    omega

lemma manyBlocks_storedLength (h : ¬ length + lengthSize ≤ r.thresholdParityInput)
    (h' : ¬ length + lengthSize ≤ r.thresholdBlocksInput) {b : ℕ}
    (hb : ceilInt (length + lengthSize) (r.dataShards * r.maxShardSize) = b) :
    r.computeSizesFromStored ((r.manyBlocks b).storedLength length) = r.manyBlocks b := by
  have hd := r.le_dataShards
  have hm := r.maxShardSize_pos
  have hdm : 0 < r.dataShards * r.maxShardSize := mul_pos (by omega) hm
  have hb1 := le_ceilInt_mul (length + lengthSize) hdm
  have hb2 := ceilInt_mul_lt (length + lengthSize) hdm
  obtain ⟨hn1, hn2⟩ := shards_of_blocks (l := length + lengthSize) (d := r.dataShards) (by omega) hm
    (by simp only [lengthSize]; omega)
  simp only [thresholdParityInput, crcSize] at h
  simp only [thresholdBlocksInput] at h'
  rw [hb] at hb1 hb2 hn1 hn2
  set n := ceilInt (length + lengthSize) r.maxShardSize
  set q := r.parityShards * (4 + r.maxShardSize) with hq
  have hstored : (r.manyBlocks b).storedLength length = b * q + (length + lengthSize + 4 * n) := by
    simp only [storedLength, inputSizeToStore, manyBlocks,
      frameSize, crcSize, add_comm lengthSize]
    rfl
  rw [hstored]
  obtain ⟨b', hb'⟩ : ∃ b', b = b' + 2 := by
    have : 1 < b := by
      refine Nat.lt_of_mul_lt_mul_right (a := r.dataShards * r.maxShardSize) ?_
      omega
    exact ⟨b - 2, by omega⟩
  have hp : b * q = b' * q + 2 * q := by rw [hb', add_mul]
  have hpar : r.parityShards * 5 ≤ q := mul_le_mul_left _ (by omega)
  have hn3 : r.dataShards < n := by
    have hone : r.dataShards ≤ (b - 1) * r.dataShards := Nat.le_mul_of_pos_left _ (by omega)
    omega
  have hout : ¬ b * q + (length + lengthSize + 4 * n) ≤ r.thresholdParityOutput := by
    have hsmall := thresholdParityOutput_lt r
    have := r.le_parityShards
    omega
  have hblocks : ¬ b * q + (length + lengthSize + 4 * n) ≤ r.thresholdBlocksOutput := by
    have hthr : r.thresholdBlocksOutput =
        q + (r.dataShards * 4 + r.dataShards * r.maxShardSize) := by
      simp only [thresholdBlocksOutput, computeFinalFileSizeWithPadding, crcSize, hq]
      ring
    omega
  rw [computeSizesFromStored, if_neg hout, if_neg hblocks]
  congr 1
  have hsplit : b * ((r.dataShards + r.parityShards) * (crcSize + r.maxShardSize)) =
      b * q + (b * (r.dataShards * r.maxShardSize) + 4 * (b * r.dataShards)) := by
    simp only [crcSize, hq]
    ring
  refine ceilInt_eq ?_ ?_
  · omega
  · have hone : (r.dataShards + r.parityShards) * (crcSize + r.maxShardSize) =
        q + (r.dataShards * 4 + r.dataShards * r.maxShardSize) := by
      simp only [crcSize, hq]
      ring
    have hpred : (b - 1) * r.dataShards = b * r.dataShards - r.dataShards := by
      rw [Nat.sub_mul, Nat.one_mul]
    omega

end Large

lemma computeSizesFromStored_storedLength (length : ℕ) :
    r.computeSizesFromStored ((r.computeSizesFromOriginal length).storedLength length) =
      r.computeSizesFromOriginal length := by
  simp only [computeSizesFromOriginal]
  by_cases h : length + lengthSize ≤ r.thresholdParityInput
  · simp only [if_pos h]
    exact smallFiles_storedLength r h
  · simp only [if_neg h]
    by_cases h' : length + lengthSize ≤ r.thresholdBlocksInput
    · simp only [if_pos h']
      exact oneBlock_storedLength r h h'
    · simp only [if_neg h']
      exact manyBlocks_storedLength r h h' rfl

structure SizesInfo.Fits (z : SizesInfo) (length : ℕ) : Prop where
  shardSize_pos : 0 < z.shardSize
  le_dataShards : 6 ≤ z.dataShards
  blocks_pos : 0 < z.blocks
  length_le : lengthSize + length ≤ z.dataShards * z.shardSize * z.blocks

lemma fits_computeSizesFromOriginal (length : ℕ) :
    (r.computeSizesFromOriginal length).Fits length := by
  have hd := r.le_dataShards
  have hm := r.maxShardSize_pos
  have hpos : ∀ {d}, 0 < d → 0 < ceilInt (length + lengthSize) d := by
    intro d hd
    have := le_ceilInt_mul (length + lengthSize) hd
    rcases Nat.eq_zero_or_pos (ceilInt (length + lengthSize) d) with h | h
    · rw [h] at this
      simp only [lengthSize] at this
      omega
    · exact h
  simp only [computeSizesFromOriginal]
  split_ifs
  · refine ⟨hpos (by decide), le_rfl, one_pos, ?_⟩
    have := le_ceilInt_mul (length + lengthSize) (b := smallFilesDataShards) (by decide)
    simp only [smallFiles, mul_one]
    rw [mul_comm, add_comm]
    exact this
  · refine ⟨hpos (by omega), by simp only [oneBlock]; omega, one_pos, ?_⟩
    have := le_ceilInt_mul (length + lengthSize) (b := r.dataShards) (by omega)
    simp only [oneBlock, mul_one]
    rw [mul_comm, add_comm]
    exact this
  · have hdm : 0 < r.dataShards * r.maxShardSize := mul_pos (by omega) hm
    refine ⟨hm, by simp only [manyBlocks]; omega, hpos hdm, ?_⟩
    have := le_ceilInt_mul (length + lengthSize) hdm
    simp only [manyBlocks]
    rw [mul_comm, add_comm]
    exact this

end Warphold.Ecc
