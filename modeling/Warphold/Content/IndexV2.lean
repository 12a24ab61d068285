import Warphold.Content.Merged
import Warphold.Lib.Binary

/-!
# Version 2 of the index format

A header, the entries sorted by key, the packs and the formats that the entries refer to by number,
and the names of the packs. An entry has nineteen bytes, of which the last three are left off as far
as they are zero in all entries of the index: the number of the format, the high bits of the number of
the pack and the high bits of the lengths.
-/

namespace Warphold.Content

open Binary

def ID.toBytes (c : ID) : Str := c.pre :: c.hash

/-- `bytesToContentID`; `none` is its panic on a key that is too long. -/
def ID.ofBytes : Str → Option ID
  | [] => some ⟨0, []⟩
  | pre :: hash => if maxHashSize < hash.length then none else some ⟨pre, hash⟩

def base36Value (c : UInt8) : ℕ :=
  if 48 ≤ c && c ≤ 57 then c.toNat - 48
  else if 97 ≤ c && c ≤ 122 then c.toNat - 87
  else if 65 ≤ c && c ≤ 90 then c.toNat - 55
  else 0

namespace Builder

def bucket (c : ID) : ℕ := base36Value c.pre * 16 + (c.hash.headD 0).toNat / 16

def sortedContents (b : Builder) : List Info :=
  (List.range 576).flatMap fun k =>
    (b.infos.filter fun i => bucket i.contentID = k).mergeSort fun i j =>
      !j.contentID.less i.contentID

end Builder

namespace IndexV2

structure FormatInfo where
  compressionHeaderID : ℕ
  formatVersion : ℕ
  encryptionKeyID : ℕ
  deriving DecidableEq, Repr

def formatInfo (i : Info) : FormatInfo := ⟨i.compressionHeaderID, i.formatVersion, i.encryptionKeyID⟩

/-- The different values of a list by the number each gets when it first comes up. -/
def unique {α : Type} [DecidableEq α] (l : List α) : List α :=
  l.foldl (fun seen x => if x ∈ seen then seen else seen ++ [x]) []

inductive BuildErr where
  | tooManyFormats
  | tooManyPacks
  | contentLengthTooHigh
  | packOffsetTooHigh
  | invalidKeyLength
  | inconsistentKeyLength
  /-- The panic of `writeIndexValueEntry`. -/
  | encodingBug
  deriving DecidableEq, Repr

structure IndexBuilder where
  keyLength : ℕ
  entrySize : ℕ
  entryCount : ℕ
  formats : List FormatInfo
  packs : List Str

def headerSize : ℕ := 17
def packInfoSize : ℕ := 5
def formatInfoSize : ℕ := 6
def entryMinLength : ℕ := 16
def entryMaxLength : ℕ := 19
def maxEntrySize : ℕ := 256

def maxOf (f : Info → ℕ) (is : List Info) : ℕ := is.foldl (fun m i => max m (f i)) 0

def entrySizeFor (formatCount packCount maxPackedLen maxOriginalLength : ℕ) : ℕ :=
  let entrySize := entryMinLength
  let entrySize := if 1 < formatCount then max entrySize 17 else entrySize
  let entrySize := if 2 ^ 16 < packCount then max entrySize 18 else entrySize
  if 2 ^ 24 ≤ maxPackedLen ∨ 2 ^ 24 ≤ maxOriginalLength then max entrySize 19 else entrySize

def newIndexBuilder (is : List Info) : Except BuildErr IndexBuilder :=
  let formats := unique (is.map formatInfo)
  let packs := unique (is.map (·.packBlobID))
  let maxPackedLen := maxOf (·.packedLength) is
  let maxOriginalLength := maxOf (·.originalLength) is
  if 255 < formats.length then .error .tooManyFormats
  else if 2 ^ 24 < packs.length then .error .tooManyPacks
  else if 2 ^ 28 ≤ maxPackedLen ∨ 2 ^ 28 ≤ maxOriginalLength then .error .contentLengthTooHigh
  else if 2 ^ 30 ≤ maxOf (·.packOffset) is then .error .packOffsetTooHigh
  else .ok
    { keyLength := (is.head?.map fun i => i.contentID.toBytes.length).getD 0
      entrySize := entrySizeFor formats.length packs.length maxPackedLen maxOriginalLength
      entryCount := is.length
      formats := formats
      packs := packs }

/-- One entry in `prepareExtraData`: a new name goes to the end of the extra data. -/
def addPackName (st : (AList fun _ : Str => ℕ) × Str) (i : Info) : (AList fun _ : Str => ℕ) × Str :=
  if i.packBlobID = [] ∨ (st.1.lookup i.packBlobID).isSome then st
  else (st.1.insert i.packBlobID (st.2.length % 2 ^ 32), st.2 ++ i.packBlobID)

def prepareExtraData (is : List Info) : (AList fun _ : Str => ℕ) × Str :=
  is.foldl addPackName (∅, [])

namespace IndexBuilder

variable (b : IndexBuilder)

def extraDataOffset : ℕ :=
  (headerSize + b.entryCount * (b.keyLength + b.entrySize) + b.packs.length * packInfoSize +
    b.formats.length * formatInfoSize) % 2 ^ 32

def valueBytes (i : Info) : Str :=
  let packBlobIndex := b.packs.idxOf i.packBlobID
  put 4 (i.timestampSeconds % 2 ^ 32).toNat
    ++ put 4 (if i.deleted then i.packOffset ||| 2 ^ 31 else i.packOffset)
    ++ put 3 i.originalLength ++ put 3 i.packedLength ++ put 2 packBlobIndex
    ++ [UInt8.ofNat (b.formats.idxOf (formatInfo i)), UInt8.ofNat (packBlobIndex / 2 ^ 16),
      UInt8.ofNat (i.packedLength / 2 ^ 24) ||| UInt8.ofNat (i.originalLength / 2 ^ 24 * 2 ^ 4)]

def writeIndexValueEntry (i : Info) : Except BuildErr Str :=
  let buf := b.valueBytes i
  if (buf.drop b.entrySize).any (· ≠ 0) then .error .encodingBug else .ok (buf.take b.entrySize)

def writeIndexEntry (i : Info) : Except BuildErr Str :=
  let k := i.contentID.toBytes
  if k.length ≠ b.keyLength then .error .inconsistentKeyLength
  else (b.writeIndexValueEntry i).map (k ++ ·)

def writePackIDEntry (offsets : AList fun _ : Str => ℕ) (packID : Str) : Str :=
  UInt8.ofNat packID.length :: put 4 ((offsets.lookup packID).getD 0 + b.extraDataOffset)

def writeFormatInfoEntry (f : FormatInfo) : Str :=
  put 4 f.compressionHeaderID ++ [UInt8.ofNat f.formatVersion, UInt8.ofNat f.encryptionKeyID]

def header : Str :=
  [2, UInt8.ofNat b.keyLength] ++ put 2 b.entrySize ++ put 4 b.entryCount ++ put 4 b.packs.length
    ++ [UInt8.ofNat b.formats.length] ++ put 4 0

end IndexBuilder

def buildV2 (is : List Info) : Except BuildErr Str := do
  let b ← newIndexBuilder is
  let extra := prepareExtraData is
  if b.keyLength ≤ 1 then .error .invalidKeyLength
  else do
    let entries ← is.mapM b.writeIndexEntry
    .ok (b.header ++ (entries.flatten ++ (b.packs.flatMap (b.writePackIDEntry extra.1)
      ++ (b.formats.flatMap IndexBuilder.writeFormatInfoEntry ++ extra.2))))

structure Header where
  keySize : ℕ
  entrySize : ℕ
  entryCount : ℕ
  packCount : ℕ
  formatCount : ℕ
  baseTimestamp : ℕ
  deriving DecidableEq, Repr

def Header.stride (h : Header) : ℕ := h.keySize + h.entrySize
def Header.packsOffset (h : Header) : ℕ := headerSize + h.entryCount * h.stride
def Header.formatsOffset (h : Header) : ℕ := h.packsOffset + h.packCount * packInfoSize

structure Opened where
  hdr : Header
  data : Str
  formats : List FormatInfo
  packBlobIDs : List Str

def field (header : Str) (off len : ℕ) : ℕ := get ((header.drop off).take len)

def readHeader (header : Str) : Header :=
  ⟨field header 1 1, field header 2 2, field header 4 4, field header 8 4, field header 12 1,
    field header 13 4⟩

def parseFormat (f : Str) : FormatInfo := ⟨get (f.take 4), field f 4 1, field f 5 1⟩

def openV2PackIndex (data : Str) : Option Opened := do
  let header ← slice data 0 headerSize
  let hi := readHeader header
  if hi.keySize ≤ 1 ∨ hi.entrySize < entryMinLength ∨ entryMaxLength < hi.entrySize
    ∨ maxEntrySize < hi.stride then none
  else do
    let formatsBuf ← slice data hi.formatsOffset (hi.formatCount * formatInfoSize)
    let packIDs ← (List.range hi.packCount).mapM fun i => do
      let buf ← slice data (hi.packsOffset + packInfoSize * i) packInfoSize
      slice data (get (buf.drop 1)) (get (buf.take 1))
    some
      { hdr := hi
        data := data
        formats := (List.range hi.formatCount).map fun i =>
          parseFormat (formatsBuf.drop (formatInfoSize * i))
        packBlobIDs := packIDs }

/-- `Open`, up to the choice of the version; the first version is not opened here. -/
def openIndex (data : Str) : Option Opened := do
  let header ← slice data 0 8
  if field header 1 1 ≤ 1 ∨ field header 0 1 ≠ 2 then none else openV2PackIndex data

def invalidBlobID : Str := str "---invalid---"

namespace Opened

variable (ndx : Opened)

def getPackBlobIDByIndex (n : ℕ) : Str :=
  if ndx.hdr.packCount ≤ n then invalidBlobID else ndx.packBlobIDs.getD n []

def entryToInfo (id : ID) (data : Str) : Option Info :=
  if data.length < entryMinLength then none
  else
    let high := if 18 < data.length then field data 18 1 else 0
    let fid := if 16 < data.length then field data 16 1 else 0
    let packHigh := if 17 < data.length then field data 17 1 else 0
    let fmt := ndx.formats.getD fid ⟨0xFFFF, 0xFF, 0xFF⟩
    some
      { contentID := id
        timestampSeconds := (field data 0 4 : ℤ) + ndx.hdr.baseTimestamp
        deleted := field data 4 1 &&& 0x80 ≠ 0
        packOffset := field data 4 4 &&& (2 ^ 31 - 1)
        originalLength := field data 8 3 ||| (high / 2 ^ 4) * 2 ^ 24
        packedLength := field data 11 3 ||| (high &&& 0xF) * 2 ^ 24
        formatVersion := fmt.formatVersion
        compressionHeaderID := fmt.compressionHeaderID
        encryptionKeyID := fmt.encryptionKeyID
        packBlobID := ndx.getPackBlobIDByIndex (field data 14 2 ||| packHigh * 2 ^ 16) }

def entryOffset (p : ℕ) : ℕ := headerSize + ndx.hdr.stride * p

def key (p : ℕ) : Option Str := slice ndx.data (ndx.entryOffset p) ndx.hdr.keySize

def findEntryPosition (start : Str) : Option ℕ :=
  search (fun p => do
    let id ← ID.ofBytes (← ndx.key p)
    return !id.belowPrefix start) 0 ndx.hdr.entryCount

def findEntryPositionExact (idBytes : Str) : Option ℕ :=
  search (fun p => (ndx.key p).map fun k => !decide (k < idBytes)) 0 ndx.hdr.entryCount

/-- `findEntry`: an error is `none`, an ID that is not there `some none`. -/
def findEntry (id : ID) : Option (Option Str) :=
  let key := id.toBytes
  if ndx.hdr.keySize = 255 then some none
  else if key.length ≠ ndx.hdr.keySize then none
  else do
    let position ← ndx.findEntryPositionExact key
    if ndx.hdr.entryCount ≤ position then some none
    else do
      let entry ← slice ndx.data (ndx.entryOffset position) ndx.hdr.stride
      some (if entry.take key.length = key then some (entry.drop key.length) else none)

def getInfo (id : ID) : Option (Option Info) := do
  match ← ndx.findEntry id with
  | none => some none
  | some e => (ndx.entryToInfo id e).map some

def iterateAt (r : IDRange) : List ℕ → Option (List Info)
  | [] => some []
  | p :: ps => do
    let entry ← slice ndx.data (ndx.entryOffset p) ndx.hdr.stride
    let id ← ID.ofBytes (entry.take ndx.hdr.keySize)
    if !id.belowPrefix r.endID then some []
    else do
      let i ← ndx.entryToInfo id (entry.drop ndx.hdr.keySize)
      let is ← iterateAt r ps
      some (i :: is)

def iterate (r : IDRange) : Option (List Info) := do
  let start ← ndx.findEntryPosition r.startID
  ndx.iterateAt r (List.range' start (ndx.hdr.entryCount - start))

end Opened

end IndexV2

end Warphold.Content
