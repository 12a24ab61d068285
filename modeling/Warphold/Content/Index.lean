import Warphold.Lib.Encoding
import Mathlib.Data.List.AList

/-!
# Content indexes

An index entry says where the bytes of a content are: at an offset of a pack blob. A content may have
any number of entries, in the unflushed index and in index blobs, and one of them stands: the newest,
the one that is not deleted among those of one time, and else the one of the greatest pack.

An index blob holds the entries of a builder in one of two formats. Neither keeps all that an entry in
memory has: a time is cut to 48 bits in the first and to 32 bits in the second.
-/

namespace Warphold.Content

structure ID where
  pre : UInt8
  hash : Str
  deriving DecidableEq, Repr

def maxHashSize : ℕ := 32

def ID.hasPrefix (id : ID) : Bool := id.pre ≠ 0

def ID.prefixString (id : ID) : Str := if 103 ≤ id.pre && id.pre ≤ 122 then [id.pre] else []

def ID.string (id : ID) : Str := id.prefixString ++ Hex.encodeToString id.hash

def ID.less (i other : ID) : Bool :=
  if i.pre ≠ other.pre then
    if other.pre = 0 then false else i.pre < other.pre
  else i.hash < other.hash

def validateSingle : Str → Bool
  | [] => true
  | [c] => 103 ≤ c && c ≤ 122
  | _ => false

def idFromHash (pre hash : Str) : Option ID :=
  if maxHashSize < hash.length ∨ hash = [] ∨ !validateSingle pre then none
  else some ⟨pre.headD 0, hash⟩

structure Info where
  packBlobID : Str
  timestampSeconds : ℤ
  originalLength : ℕ
  packedLength : ℕ
  packOffset : ℕ
  compressionHeaderID : ℕ
  contentID : ID
  deleted : Bool
  formatVersion : ℕ
  encryptionKeyID : ℕ
  deriving DecidableEq, Repr

def contentInfoGreaterThan (a b : Info) : Bool :=
  if a.timestampSeconds ≠ b.timestampSeconds then b.timestampSeconds < a.timestampSeconds
  else if a.deleted ≠ b.deleted then !a.deleted
  else b.packBlobID < a.packBlobID

abbrev Builder := AList fun _ : ID => Info

namespace Builder

def infos (b : Builder) : List Info := b.entries.map (·.2)

def add (b : Builder) (i : Info) : Builder :=
  match b.lookup i.contentID with
  | none => b.insert i.contentID i
  | some old => if contentInfoGreaterThan i old then b.insert i.contentID i else b

def addAll (b : Builder) (is : List Info) : Builder := is.foldl add b

def fnv32a (s : Str) : ℕ :=
  s.foldl (fun h c => (h ^^^ c.toNat) * 16777619 % 2 ^ 32) 2166136261

/-- `shard`: the entries in parts by a hash of their ID; parts without entries are left out. -/
def shard (maxShardSize : ℕ) (b : Builder) : List (List Info) :=
  let n := (b.entries.length + maxShardSize - 1) / maxShardSize
  if n ≤ 1 then if b.entries = [] then [] else [b.infos]
  else ((List.range n).map fun k =>
    (b.entries.filter fun e => fnv32a e.1.string % n = k).map (·.2)).filter (· ≠ [])

end Builder

inductive IndexVersion where
  | v1
  | v2
  deriving DecidableEq, Repr

namespace IndexVersion

/-- What the builder of the format requires: the first has no place for a compression or a key, the
second for lengths and offsets from some size on, nor for too many formats or packs. -/
def buildable (v : IndexVersion) (is : List Info) : Bool :=
  match v with
  | .v1 => is.all fun i => i.compressionHeaderID = 0 && i.encryptionKeyID = 0 && i.packBlobID ≠ []
  | .v2 =>
    is ≠ []
      && (is.map fun i => (i.compressionHeaderID, i.formatVersion, i.encryptionKeyID)).toFinset.card
        ≤ 255
      && (is.map (·.packBlobID)).toFinset.card ≤ 2 ^ 24
      && is.all fun i =>
        i.packedLength < 2 ^ 28 && i.originalLength < 2 ^ 28 && i.packOffset < 2 ^ 30

/-- The entry that reading an index finds where the builder wrote `i`. The first format does not hold
the original length and takes it from the packed one. -/
def stored (v : IndexVersion) (overhead : ℕ) (i : Info) : Info :=
  match v with
  | .v1 => { i with
      timestampSeconds := i.timestampSeconds % 2 ^ 48
      originalLength := (i.packedLength % 2 ^ 32 + 2 ^ 32 - overhead) % 2 ^ 32
      packedLength := i.packedLength % 2 ^ 32
      packOffset := i.packOffset % 2 ^ 31
      deleted := i.deleted || (i.packOffset / 2 ^ 31) % 2 = 1 }
  | .v2 => { i with
      timestampSeconds := i.timestampSeconds % 2 ^ 32
      packOffset := i.packOffset % 2 ^ 31 }

def build (v : IndexVersion) (overhead : ℕ) (is : List Info) : Option (List Info) :=
  if v.buildable is then some (is.map (v.stored overhead)) else none

end IndexVersion

def newer (best : Option Info) (i : Info) : Option Info :=
  match best with
  | none => some i
  | some b => if contentInfoGreaterThan i b then some i else some b

abbrev Index := List Info

def Index.getInfo (ndx : Index) (id : ID) : Option Info := ndx.find? fun i => i.contentID = id

def Merged.getInfo (m : List Index) (id : ID) : Option Info :=
  (m.filterMap fun ndx => ndx.getInfo id).foldl newer none

def smallIndexEntryCountThreshold : ℕ := 100

/-- `combineSmallIndexes`: the small indexes, if there are several, become one. -/
def combineSmallIndexes (v : IndexVersion) (overhead : ℕ) (m : List Index) :
    Option (List Index) :=
  let toMerge := m.filter fun ndx => ndx.length < smallIndexEntryCountThreshold
  let toKeep := m.filter fun ndx => ¬ ndx.length < smallIndexEntryCountThreshold
  if toMerge.length ≤ 1 then some m
  else (v.build overhead (Builder.addAll ∅ toMerge.flatten).infos).map (toKeep ++ [·])

end Warphold.Content
