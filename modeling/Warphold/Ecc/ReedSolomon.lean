import Warphold.Lib.Binary
import Warphold.Lib.Chunks

/-!
# Error-correcting storage

Stored bytes are cut into shards, a number of data shards making a block with its parity shards. Every
shard is written behind its checksum, the parity first, and the data starts with its length. What is read
back is checked shard by shard; shards that fail are reconstructed from the others of their block.

The sizes are computed from the length of the input when encoding and from the length of what is stored
when decoding. Sizes are natural numbers and quotients exact, which the floating-point quotients of the
source are below 2^53.
-/

open Chunks

namespace Warphold.Ecc

section Library

/-- A correct erasure code: the data is reconstructed when no more shards of a block are missing than
there are parity shards. -/
structure Encoder (d p : ℕ) where
  encode : List Str → List Str
  reconstructData : List (Option Str) → Option (List Str)
  length_encode : ∀ data, data.length = d → (encode data).length = p
  length_of_mem_encode : ∀ n data, data.length = d → (∀ s ∈ data, s.length = n) →
    ∀ s ∈ encode data, s.length = n
  reconstructData_eq : ∀ n data received, 0 < n → data.length = d → (∀ s ∈ data, s.length = n) →
    List.Forall₂ (fun r s => r = none ∨ r = some s) received (data ++ encode data) →
    received.countP Option.isNone ≤ p → reconstructData received = some data

structure Checksum where
  sum : Str → Str
  length_sum : ∀ s, (sum s).length = 4

end Library

section Options

def lengthSize : ℕ := 4
def crcSize : ℕ := 4
def smallFilesDataShards : ℕ := 6
def smallFilesParityShards : ℕ := 2

def ceilInt (a b : ℕ) : ℕ := (a + b - 1) / b

def between (val minValue maxValue : ℤ) : ℤ :=
  if val < minValue then minValue else if val > maxValue then maxValue else val

/-- The numbers of data and parity shards. `percent` is the space overhead of 128 data shards and
`inverse` the number of data shards for which two parity shards are the overhead. -/
def computeShards (percent inverse : ℤ) : ℕ × ℕ :=
  let parity := between percent 1 128
  if parity = 1 then ((between inverse 128 254).toNat, 2) else (128, parity.toNat)

def defaultShardSize (overheadPercent : ℕ) : ℕ :=
  if overheadPercent = 1 then 1024
  else if overheadPercent = 2 then 512
  else if overheadPercent = 3 then 256
  else if overheadPercent ≤ 6 then 128
  else 64

structure ReedSolomonCrc where
  dataShards : ℕ
  parityShards : ℕ
  maxShardSize : ℕ
  crc : Checksum
  encSmallFiles : Encoder smallFilesDataShards smallFilesParityShards
  encBigFiles : Encoder dataShards parityShards
  le_dataShards : 128 ≤ dataShards
  le_parityShards : 2 ≤ parityShards
  shards_le : dataShards + parityShards ≤ 256
  maxShardSize_pos : 0 < maxShardSize

lemma computeShards_bounds (percent inverse : ℤ) :
    128 ≤ (computeShards percent inverse).1 ∧ 2 ≤ (computeShards percent inverse).2 ∧
      (computeShards percent inverse).1 + (computeShards percent inverse).2 ≤ 256 := by
  simp only [computeShards, between]
  split_ifs <;> simp only <;> omega

lemma defaultShardSize_pos (overheadPercent : ℕ) : 0 < defaultShardSize overheadPercent := by
  simp only [defaultShardSize]
  split_ifs <;> decide

def newReedSolomonCrcECC (overheadPercent maxShardSize : ℕ) (percent inverse : ℤ) (crc : Checksum)
    (library : ∀ d p, 0 < d → d + p ≤ 256 → Encoder d p) : ReedSolomonCrc where
  dataShards := (computeShards percent inverse).1
  parityShards := (computeShards percent inverse).2
  maxShardSize := if maxShardSize = 0 then defaultShardSize overheadPercent else maxShardSize
  crc := crc
  encSmallFiles := library _ _ (by decide) (by decide)
  encBigFiles := library _ _ (by have := (computeShards_bounds percent inverse).1; omega)
    (computeShards_bounds percent inverse).2.2
  le_dataShards := (computeShards_bounds percent inverse).1
  le_parityShards := (computeShards_bounds percent inverse).2.1
  shards_le := (computeShards_bounds percent inverse).2.2
  maxShardSize_pos := by
    split_ifs with h
    · exact defaultShardSize_pos _
    · omega

end Options

section Sizes

variable (r : ReedSolomonCrc)

def computeFinalFileSizeWithPadding (dataShards parityShards shardSize blocks : ℕ) : ℕ :=
  (parityShards + dataShards) * (crcSize + shardSize) * blocks

def ReedSolomonCrc.thresholdParityInput : ℕ := 2 * crcSize * (r.dataShards + r.parityShards)

def ReedSolomonCrc.thresholdParityOutput : ℕ :=
  computeFinalFileSizeWithPadding smallFilesDataShards smallFilesParityShards
    (ceilInt r.thresholdParityInput smallFilesDataShards) 1

def ReedSolomonCrc.thresholdBlocksInput : ℕ := r.dataShards * r.maxShardSize

def ReedSolomonCrc.thresholdBlocksOutput : ℕ :=
  computeFinalFileSizeWithPadding r.dataShards r.parityShards r.maxShardSize 1

structure SizesInfo where
  blocks : ℕ
  shardSize : ℕ
  dataShards : ℕ
  parityShards : ℕ
  storePadding : Bool
  enc : Encoder dataShards parityShards

def ReedSolomonCrc.smallFiles (shardSize : ℕ) : SizesInfo :=
  ⟨1, shardSize, smallFilesDataShards, smallFilesParityShards, true, r.encSmallFiles⟩

def ReedSolomonCrc.oneBlock (shardSize : ℕ) : SizesInfo :=
  ⟨1, shardSize, r.dataShards, r.parityShards, true, r.encBigFiles⟩

def ReedSolomonCrc.manyBlocks (blocks : ℕ) : SizesInfo :=
  ⟨blocks, r.maxShardSize, r.dataShards, r.parityShards, false, r.encBigFiles⟩

def ReedSolomonCrc.computeSizesFromOriginal (length : ℕ) : SizesInfo :=
  let length := length + lengthSize
  if length ≤ r.thresholdParityInput then r.smallFiles (ceilInt length smallFilesDataShards)
  else if length ≤ r.thresholdBlocksInput then r.oneBlock (ceilInt length r.dataShards)
  else r.manyBlocks (ceilInt length (r.dataShards * r.maxShardSize))

def ReedSolomonCrc.computeSizesFromStored (length : ℕ) : SizesInfo :=
  if length ≤ r.thresholdParityOutput then
    r.smallFiles (max (ceilInt length (smallFilesDataShards + smallFilesParityShards)) (1 + crcSize) -
      crcSize)
  else if length ≤ r.thresholdBlocksOutput then
    r.oneBlock (max (ceilInt length (r.dataShards + r.parityShards)) (1 + crcSize) - crcSize)
  else r.manyBlocks (ceilInt length ((r.dataShards + r.parityShards) * (crcSize + r.maxShardSize)))

end Sizes

section Encrypt

def SizesInfo.frameSize (z : SizesInfo) : ℕ := crcSize + z.shardSize

/-- The length as a 32-bit number and the input, padded with zeros to whole blocks. -/
def inputBytes (z : SizesInfo) (input : Str) : Str :=
  Binary.put 4 input.length ++ input ++
    List.replicate (z.dataShards * z.shardSize * z.blocks - (lengthSize + input.length)) 0

def SizesInfo.shard (z : SizesInfo) (bytes : Str) (k : ℕ) : Str :=
  slice bytes (k * z.shardSize) z.shardSize

def SizesInfo.block (z : SizesInfo) (bytes : Str) (b : ℕ) : List Str :=
  (List.range z.dataShards).map fun i => z.shard bytes (b * z.dataShards + i)

variable (r : ReedSolomonCrc)

def ReedSolomonCrc.frame (shard : Str) : Str := r.crc.sum shard ++ shard

def ReedSolomonCrc.parityBytes (z : SizesInfo) (bytes : Str) : Str :=
  ((List.range z.blocks).map fun b => ((z.enc.encode (z.block bytes b)).map r.frame).flatten).flatten

/-- The data shards; of the last one only `inputSizeToStore` is written. -/
def ReedSolomonCrc.dataBytes (z : SizesInfo) (bytes : Str) (inputSizeToStore : ℕ) : Str :=
  ((List.range (ceilInt inputSizeToStore z.shardSize)).map fun k =>
    let shard := z.shard bytes k
    let left := min (inputSizeToStore - k * z.shardSize) z.shardSize
    r.crc.sum shard ++ shard.take left).flatten

def SizesInfo.inputSizeToStore (z : SizesInfo) (length : ℕ) : ℕ :=
  if z.storePadding then z.dataShards * z.shardSize * z.blocks else lengthSize + length

def ReedSolomonCrc.encrypt (input : Str) : Str :=
  let z := r.computeSizesFromOriginal input.length
  let bytes := inputBytes z input
  r.parityBytes z bytes ++ r.dataBytes z bytes (z.inputSizeToStore input.length)

end Encrypt

section Decrypt

def SizesInfo.padded (z : SizesInfo) (stored : Str) : Str :=
  stored ++ List.replicate
    ((z.dataShards + z.parityShards) * z.frameSize * z.blocks - stored.length) 0

def SizesInfo.storedParity (z : SizesInfo) (stored : Str) : Str :=
  (z.padded stored).take (z.parityShards * z.frameSize * z.blocks)

def SizesInfo.storedData (z : SizesInfo) (stored : Str) : Str :=
  (z.padded stored).drop (z.parityShards * z.frameSize * z.blocks)

def SizesInfo.frameAt (z : SizesInfo) (bytes : Str) (k : ℕ) : Str :=
  slice bytes (k * z.frameSize) z.frameSize

variable (r : ReedSolomonCrc)

def ReedSolomonCrc.check (frame : Str) : Option Str :=
  if frame.take crcSize = r.crc.sum (frame.drop crcSize) then some (frame.drop crcSize) else none

def ReedSolomonCrc.dataShardAt (z : SizesInfo) (stored : Str) (k : ℕ) : Option Str :=
  let paddingStartPos := stored.length - z.parityShards * z.frameSize * z.blocks
  let frame := z.frameAt (z.storedData stored) k
  if k * z.frameSize < paddingStartPos then r.check frame else some (frame.drop crcSize)

def ReedSolomonCrc.parityShardAt (z : SizesInfo) (stored : Str) (k : ℕ) : Option Str :=
  r.check (z.frameAt (z.storedParity stored) k)

def readLength (shards : List Str) (shardSize : ℕ) : ℕ × ℕ × ℕ :=
  let shard := fun i => shards.getD i []
  match shardSize with
  | 1 => (Binary.get ((shard 0).take 1 ++ (shard 1).take 1 ++ (shard 2).take 1 ++
      (shard 3).take 1), 4, 0)
  | 2 => (Binary.get ((shard 0).take 2 ++ (shard 1).take 2), 2, 0)
  | 3 => (Binary.get ((shard 0).take 3 ++ (shard 1).take 1), 1, 1)
  | 4 => (Binary.get ((shard 0).take 4), 1, 0)
  | _ => (Binary.get ((shard 0).take 4), 0, 4)

structure Output where
  originalSize : ℕ := 0
  written : ℕ := 0
  bytes : Str := []

/-- Copy shards to the output from `startByte` of the first, up to the original size. -/
def Output.copy (o : Output) (shardSize : ℕ) (startByte : ℕ) : List Str → Output
  | [] => o
  | shard :: rest =>
    if o.written < o.originalSize then
      let left := min (o.originalSize - o.written) (shardSize - startByte)
      Output.copy { o with written := o.written + left, bytes := o.bytes ++ slice shard startByte left }
        shardSize 0 rest
    else o

def Output.block (o : Output) (shardSize b : ℕ) (shards : List Str) : Output :=
  if b = 0 then
    let (originalSize, startShard, startByte) := readLength shards shardSize
    Output.copy { o with originalSize } shardSize startByte (shards.drop startShard)
  else o.copy shardSize 0 shards

def ReedSolomonCrc.received (z : SizesInfo) (stored : Str) (b : ℕ) : List (Option Str) :=
  ((List.range z.dataShards).map fun i => r.dataShardAt z stored (b * z.dataShards + i)) ++
    (List.range z.parityShards).map fun i => r.parityShardAt z stored (b * z.parityShards + i)

def ReedSolomonCrc.decrypt (stored : Str) : Option Str :=
  let z := r.computeSizesFromStored stored.length
  let out := (List.range z.blocks).foldlM (fun (o : Output) b =>
    (z.enc.reconstructData (r.received z stored b)).map fun shards =>
      o.block z.shardSize b shards) {}
  out.map Output.bytes

end Decrypt

end Warphold.Ecc
