import Warphold.Content.IndexV2

/-!
# Reading index bytes that may be anything

`Open`, `GetInfo` and `Iterate` for both versions of the index format, with the panics of the Go
runtime: an index or a slice out of range, and the one `bytesToContentID` raises itself. `safeSlice`
recovers from its own. The two versions differ in the header, in where the entries begin and in how
an entry is decoded (`Reader`); the search and the iteration are the same code.

The bytes are those up to the capacity of the slice, which is what Go checks a slice expression
against.
-/

namespace Warphold.Content

open Binary

inductive Go (α : Type) where
  | ok (a : α)
  | error
  | panic
  deriving DecidableEq, Repr

namespace Go
variable {α β : Type}

def bind : Go α → (α → Go β) → Go β
  | .ok a, f => f a
  | .error, _ => .error
  | .panic, _ => .panic

instance : Monad Go where
  pure := .ok
  bind := bind

def recovered : Go α → Go α
  | .panic => .error
  | x => x

def slice (s : Str) (a b : ℕ) : Go Str :=
  if a ≤ b ∧ b ≤ s.length then .ok ((s.drop a).take (b - a)) else .panic

def sliceFrom (s : Str) (a : ℕ) : Go Str := slice s a s.length

def byteAt (s : Str) (i : ℕ) : Go ℕ :=
  match s[i]? with
  | some b => .ok b.toNat
  | none => .panic

def decodeBigEndian (n : ℕ) (d : Str) : Go ℕ := if d.length < n then .panic else .ok (get (d.take n))

def decodeAt (n : ℕ) (d : Str) (off : ℕ) : Go ℕ := do
  decodeBigEndian n (← sliceFrom d off)

def safeSlice (data : Str) (offset length : ℕ) : Go Str :=
  (slice data offset (offset + length)).recovered

end Go

open Go

def maxIDLength : ℕ := maxHashSize

def bytesToContentID : Str → Go ID
  | [] => .ok ⟨0, []⟩
  | pre :: hash => if maxIDLength + 1 < (pre :: hash).length then .panic else .ok ⟨pre, hash⟩

/-- What the two versions do differently: where the entries are, and how one is decoded. -/
structure Reader where
  data : Str
  base : ℕ
  keySize : ℕ
  valueSize : ℕ
  entryCount : ℕ
  entryToInfo : ID → Str → Go Info

namespace Reader

variable (b : Reader)

def stride : ℕ := b.keySize + b.valueSize

def entryOffset (p : ℕ) : ℕ := b.base + b.stride * p

/-- `sort.Search` in `[i, j)`, in at most so many steps, with a test that can fail: after an error
the test is not evaluated again and the error is returned. -/
def search (f : ℕ → Go Bool) : ℕ → ℕ → ℕ → Go ℕ
  | 0, i, _ => .ok i
  | n + 1, i, j =>
    if i < j then do
      if ← f ((i + j) / 2) then search f n i ((i + j) / 2) else search f n ((i + j) / 2 + 1) j
    else .ok i

def findEntryPosition (start : Str) : Go ℕ :=
  search (fun p => do
    let key ← safeSlice b.data (b.entryOffset p) b.keySize
    let id ← bytesToContentID key
    return !id.belowPrefix start) b.entryCount 0 b.entryCount

def findEntryPositionExact (idBytes : Str) : Go ℕ :=
  search (fun p => do
    let key ← safeSlice b.data (b.entryOffset p) b.keySize
    let key ← slice key 0 b.keySize
    return !decide (key < idBytes)) b.entryCount 0 b.entryCount

def unknownKeySize : ℕ := 255

def findEntry (id : ID) : Go (Option Str) :=
  let key := id.toBytes
  if b.keySize = unknownKeySize then .ok none
  else if key.length ≠ b.keySize then .error
  else do
    let position ← b.findEntryPositionExact key
    if b.entryCount ≤ position then .ok none
    else do
      let entryBuf ← safeSlice b.data (b.entryOffset position) b.stride
      if (← slice entryBuf 0 key.length) = key then do
        return some (← sliceFrom entryBuf key.length)
      else .ok none

def getInfo (id : ID) : Go (Option Info) := do
  match ← b.findEntry id with
  | none => return none
  | some e => return some (← b.entryToInfo id e)

def iterateFrom (r : IDRange) : ℕ → ℕ → Go (List Info)
  | 0, _ => .ok []
  | n + 1, i => do
    let entry ← safeSlice b.data (b.entryOffset i) b.stride
    let key ← slice entry 0 b.keySize
    let contentID ← bytesToContentID key
    if !contentID.belowPrefix r.endID then .ok []
    else do
      let info ← b.entryToInfo contentID (← sliceFrom entry b.keySize)
      return info :: (← iterateFrom r n (i + 1))

def iterate (r : IDRange) : Go (List Info) := do
  let startPos ← b.findEntryPosition r.startID
  b.iterateFrom r (b.entryCount - startPos) startPos

end Reader

namespace IndexV1

def headerSize : ℕ := 8

def entryLength : ℕ := 20

def packBlobIDForOffset (data : Str) (nameOffset nameLength : ℕ) : Go Str :=
  match safeSlice data nameOffset nameLength with
  | .ok nameBuf => slice nameBuf 0 nameLength
  | .error => .ok IndexV2.invalidBlobID
  | .panic => .panic

def entryToInfo (file : Str) (overhead : ℕ) (id : ID) (data : Str) : Go Info :=
  if data.length ≠ entryLength then .error
  else do
    let timestampSeconds ← decodeBigEndian 6 data
    let formatVersion ← byteAt data 6
    let nameLength ← byteAt data 7
    let nameOffset ← decodeAt 4 data 8
    let packBlobID ← packBlobIDForOffset file nameOffset nameLength
    let flags ← byteAt data 12
    let packOffset ← decodeAt 4 data 12
    let packedLength ← decodeAt 4 data 16
    return {
      contentID := id
      timestampSeconds := timestampSeconds
      formatVersion := formatVersion
      packBlobID := packBlobID
      deleted := flags &&& 0x80 ≠ 0
      packOffset := packOffset &&& (2 ^ 31 - 1)
      packedLength := packedLength
      originalLength := (packedLength + 2 ^ 32 - overhead % 2 ^ 32) % 2 ^ 32
      compressionHeaderID := 0
      encryptionKeyID := 0 }

structure Header where
  version : ℕ
  keySize : ℕ
  valueSize : ℕ
  entryCount : ℕ
  deriving DecidableEq, Repr

def readHeader (data : Str) : Go Header := do
  let header ← safeSlice data 0 headerSize
  let version ← byteAt header 0
  let keySize ← byteAt header 1
  let valueSize ← decodeBigEndian 2 (← slice header 2 4)
  let entryCount ← decodeBigEndian 4 (← slice header 4 8)
  if keySize ≤ 1 then .error else .ok ⟨version, keySize, valueSize, entryCount⟩

def openPackIndex (h : Header) (data : Str) (overhead : ℕ) : Reader where
  data := data
  base := headerSize
  keySize := h.keySize
  valueSize := h.valueSize
  entryCount := h.entryCount
  entryToInfo := entryToInfo data overhead

end IndexV1

namespace IndexV2

def packBlobIDByIndex (packCount : ℕ) (packBlobIDs : List Str) (ndx : ℕ) : Go Str :=
  if packCount ≤ ndx then .ok invalidBlobID
  else match packBlobIDs[ndx]? with
    | some id => .ok id
    | none => .panic

def optionalByte (data : Str) (i : ℕ) : Go ℕ := if i < data.length then byteAt data i else .ok 0

def readFormat (formats : List FormatInfo) (fid : ℕ) : Go FormatInfo :=
  if formats.length ≤ fid then .ok ⟨0xFFFF, 0xFF, 0xFF⟩
  else match formats[fid]? with
    | some f => .ok f
    | none => .panic

def entryToInfoStruct (hdr : Header) (formats : List FormatInfo) (packBlobIDs : List Str) (id : ID)
    (data : Str) : Go Info :=
  if data.length < entryMinLength then .error
  else do
    let timestamp ← decodeAt 4 data 0
    let flags ← byteAt data 4
    let packOffset ← decodeAt 4 data 4
    let originalLength ← decodeAt 3 data 8
    let high ← optionalByte data 18
    let packedLength ← decodeAt 3 data 11
    let fid ← optionalByte data 16
    let fmt ← readFormat formats fid
    let packLow ← decodeAt 2 data 14
    let packHigh ← optionalByte data 17
    let packBlobID ← packBlobIDByIndex hdr.packCount packBlobIDs (packLow ||| packHigh * 2 ^ 16)
    return {
      contentID := id
      timestampSeconds := (timestamp : ℤ) + hdr.baseTimestamp
      deleted := flags &&& 0x80 ≠ 0
      packOffset := packOffset &&& (2 ^ 31 - 1)
      originalLength := originalLength ||| (high / 2 ^ 4) * 2 ^ 24
      packedLength := packedLength ||| (high &&& 0xF) * 2 ^ 24
      formatVersion := fmt.formatVersion
      compressionHeaderID := fmt.compressionHeaderID
      encryptionKeyID := fmt.encryptionKeyID
      packBlobID := packBlobID }

def parseFormatAt (formatsBuf : Str) (i : ℕ) : Go FormatInfo := do
  let f ← sliceFrom formatsBuf (formatInfoSize * i)
  let compressionHeaderID ← decodeAt 4 f 0
  let formatVersion ← byteAt f 4
  let encryptionKeyID ← byteAt f 5
  return ⟨compressionHeaderID, formatVersion, encryptionKeyID⟩

def readPackID (data : Str) (hdr : Header) (i : ℕ) : Go Str := do
  let buf ← safeSlice data (hdr.packsOffset + packInfoSize * i) packInfoSize
  let nameLength ← byteAt buf 0
  let nameOffset ← decodeAt 4 buf 1
  safeSlice data nameOffset nameLength

def readAll {α : Type} (f : ℕ → Go α) : ℕ → ℕ → Go (List α)
  | 0, _ => .ok []
  | n + 1, i => do
    let a ← f i
    return a :: (← readAll f n (i + 1))

def readHeaderInfo (data : Str) : Go Header := do
  let header ← safeSlice data 0 headerSize
  let keySize ← byteAt header 1
  let entrySize ← decodeBigEndian 2 (← slice header 2 4)
  let entryCount ← decodeBigEndian 4 (← slice header 4 8)
  let packCount ← decodeBigEndian 4 (← slice header 8 12)
  let formatCount ← byteAt header 12
  let baseTimestamp ← decodeBigEndian 4 (← slice header 13 17)
  return ⟨keySize, entrySize, entryCount, packCount, formatCount, baseTimestamp⟩

/-- `openV2PackIndex`, with the panics. -/
def openPackIndex (data : Str) : Go Reader := do
  let hi ← readHeaderInfo data
  if hi.keySize ≤ 1 ∨ hi.entrySize < entryMinLength ∨ entryMaxLength < hi.entrySize
    ∨ maxEntrySize < hi.stride then .error
  else do
    let formatsBuf ← safeSlice data hi.formatsOffset (hi.formatCount * formatInfoSize)
    let packIDs ← readAll (readPackID data hi) hi.packCount 0
    let formats ← readAll (parseFormatAt formatsBuf) hi.formatCount 0
    return {
      data := data
      base := headerSize
      keySize := hi.keySize
      valueSize := hi.entrySize
      entryCount := hi.entryCount
      entryToInfo := entryToInfoStruct hi formats packIDs }

end IndexV2

def openBytes (data : Str) (overhead : ℕ) : Go Reader := do
  let h ← IndexV1.readHeader data
  if h.version = 1 then return IndexV1.openPackIndex h data overhead
  else if h.version = 2 then IndexV2.openPackIndex data
  else .error

end Warphold.Content
