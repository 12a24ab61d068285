import Warphold.Lib.Traced

/-!
# Reading and verifying objects

An object is a content, or an index object that lists the objects its bytes are the concatenation
of; the index object is itself an object. Opening, reading and seeking load index objects and chunks
as they are needed, and `VerifyObject` walks the same structure to list the contents behind it.

Index objects may list anything, themselves included, so the recursion has no bound in the source.
`access n` is what loading an index object and fetching a chunk come to within `n` nested calls. The
requests of a `Traced` computation are its calls to `GetContent`.

Offsets and lengths are signed 64-bit in the source and unbounded here.
-/

namespace Warphold.Object

abbrev Bytes := List UInt8

structure ID (κ : Type*) where
  cid : κ
  indirection : Nat
  compression : Bool
deriving DecidableEq

structure IndirectObjectEntry (κ : Type*) where
  start : Int
  length : Int
  object : ID κ
deriving DecidableEq

inductive GetErr where
  | contentNotFound
  | other
deriving DecidableEq

inductive ReadErr where
  | eof
  | unexpectedEOF
  | objectNotFound
  | unexpectedContentError
  | decompressionError
  | unexpectedChunkLength
  | unsupportedObjectID
  | invalidIndirectObject
  | cannotFindChunk
  | negativePosition
  | noContentInfo
deriving DecidableEq

/-- What the JSON decoder does with the bytes it has: ask for `n` more, return, or give up. -/
inductive Decoding (κ : Type*) where
  | more (n : Nat)
  | entries (l : List (IndirectObjectEntry κ))
  | invalid

structure ContentReader (κ : Type*) where
  getContent : κ → Except GetErr Bytes
  contentInfo : κ → Except GetErr Unit
  decompressByHeader : Bytes → Option Bytes
  decode : Bytes → Decoding κ
  decodeAtEOF : Bytes → Option (List (IndirectObjectEntry κ))

structure ObjectReader (κ : Type*) where
  seekTable : List (IndirectObjectEntry κ)
  currentPosition : Int := 0
  totalLength : Int
  currentChunkIndex : Nat := 0
  currentChunkData : Option Bytes := none
  currentChunkPosition : Nat := 0

inductive Reader (κ : Type*) where
  | data (payload : Bytes) (pos : Nat)
  | object (r : ObjectReader κ)

variable {κ : Type*}

def ID.indexObjectID (o : ID κ) : Option (ID κ) :=
  match o.indirection with
  | 0 => none
  | n + 1 => some { o with indirection := n }

def ID.contentID (o : ID κ) : Option (κ × Bool) :=
  if o.indirection > 0 then none else some (o.cid, o.compression)

def IndirectObjectEntry.endOffset (e : IndirectObjectEntry κ) : Int := e.start + e.length

/-- An operation of the source: the contents it asks for, and what it returns if it returns. -/
abbrev Op (κ α : Type*) := Traced κ (Except ReadErr α)

structure Access (κ : Type*) where
  fuel : Nat
  loadIndexObject : ID κ → Op κ (List (IndirectObjectEntry κ))
  fetchChunk : IndirectObjectEntry κ → Op κ Bytes

section Open

variable (cr : ContentReader κ) (a : Access κ)

def newRawReader (o : ID κ) (assertLength : Int) : Op κ (Reader κ) :=
  match o.contentID with
  | none => .ret (.error .unsupportedObjectID)
  | some (c, compressed) =>
    (Traced.request c (cr.getContent c)).bind fun
      | .error .contentNotFound => .ret (.error .objectNotFound)
      | .error .other => .ret (.error .unexpectedContentError)
      | .ok payload =>
        match if compressed then cr.decompressByHeader payload else some payload with
        | none => .ret (.error .decompressionError)
        | some payload =>
          .ret (if assertLength ≠ -1 ∧ (payload.length : Int) ≠ assertLength then
              .error .unexpectedChunkLength
            else .ok (.data payload 0))

def openAndAssertLength (o : ID κ) (assertLength : Int) : Op κ (Reader κ) :=
  match o.indexObjectID with
  | some indexObjectID =>
    (a.loadIndexObject indexObjectID).thenOk fun seekTable =>
      match seekTable.getLast? with
      | none => .stop -- the last entry of an empty table is out of range
      | some last => .ret (.ok (.object { seekTable, totalLength := last.endOffset }))
  | none => newRawReader cr o assertLength

end Open

section Read

variable (a : Access κ)

def ObjectReader.readLoop :
    Nat → ObjectReader κ → Nat → Bytes → Traced κ (ObjectReader κ × Except ReadErr Bytes)
  | 0, _, _, _ => .stop
  | n + 1, r, remaining, buffer =>
    if remaining = 0 then .ret (r, .ok buffer)
    else match r.currentChunkData with
    | some chunk =>
      let toCopy := chunk.length - r.currentChunkPosition
      if toCopy = 0 then
        ObjectReader.readLoop n
          { r with currentChunkData := none, currentChunkIndex := r.currentChunkIndex + 1 }
          remaining buffer
      else
        let toCopy := min toCopy remaining
        ObjectReader.readLoop n
          { r with
            currentChunkPosition := r.currentChunkPosition + toCopy
            currentPosition := r.currentPosition + toCopy }
          (remaining - toCopy) (buffer ++ (chunk.drop r.currentChunkPosition).take toCopy)
    | none =>
      match r.seekTable[r.currentChunkIndex]? with
      | none => .ret (r, .ok buffer)
      | some st =>
        (a.fetchChunk st).bind fun
          | .error e => .ret (r, .error e)
          | .ok b =>
            ObjectReader.readLoop n
              { r with currentChunkData := some b, currentChunkPosition := 0 } remaining buffer

def ObjectReader.read (r : ObjectReader κ) (n : Nat) :
    Traced κ (ObjectReader κ × Except ReadErr Bytes) :=
  if r.currentPosition ≥ r.totalLength then .ret (r, .error .eof)
  else
    (ObjectReader.readLoop a a.fuel r n []).bind fun
      | (r', .ok []) => .ret (r', .error .eof)
      | (r', res) => .ret (r', res)

def Reader.read (n : Nat) : Reader κ → Traced κ (Reader κ × Except ReadErr Bytes)
  | .data payload pos =>
    if pos ≥ payload.length then .ret (.data payload pos, .error .eof)
    else
      let b := (payload.drop pos).take n
      .ret (.data payload (pos + b.length), .ok b)
  | .object r => (r.read a n).bind fun (r', res) => .ret (.object r', res)

/-- Read until `remaining` more bytes are there, as `io.ReadFull` does. -/
def readFull : Nat → Reader κ → Nat → Bytes → Op κ Bytes
  | 0, _, _, _ => .stop
  | n + 1, rd, remaining, buffer =>
    if remaining = 0 then .ret (.ok buffer)
    else
      (rd.read a remaining).bind fun
        | (_, .error .eof) => .ret (.error (if buffer = [] then .eof else .unexpectedEOF))
        | (_, .error e) => .ret (.error e)
        | (rd', .ok b) => readFull n rd' (remaining - b.length) (buffer ++ b)

variable (cr : ContentReader κ)

def openCurrentChunk (st : IndirectObjectEntry κ) : Op κ Bytes :=
  (openAndAssertLength cr a st.object st.length).thenOk fun rd =>
    if st.length < 0 then .stop -- a slice of negative length cannot be made
    else readFull a a.fuel rd st.length.toNat []

def decodeLoop : Nat → Reader κ → Bytes → Op κ (List (IndirectObjectEntry κ))
  | 0, _, _ => .stop
  | n + 1, r, buffer =>
    match cr.decode buffer with
    | .entries l => .ret (.ok l)
    | .invalid => .ret (.error .invalidIndirectObject)
    | .more k =>
      (r.read a k).bind fun
        | (_, .error .eof) =>
          .ret (match cr.decodeAtEOF buffer with
            | some l => .ok l
            | none => .error .invalidIndirectObject)
        | (_, .error _) => .ret (.error .invalidIndirectObject)
        | (r', .ok b) => decodeLoop n r' (buffer ++ b)

def loadIndexObject (indexObjectID : ID κ) : Op κ (List (IndirectObjectEntry κ)) :=
  (openAndAssertLength cr a indexObjectID (-1)).thenOk fun r => decodeLoop a cr a.fuel r []

end Read

variable (cr : ContentReader κ)

def access : Nat → Access κ
  | 0 => { fuel := 0, loadIndexObject := fun _ => .stop, fetchChunk := fun _ => .stop }
  | n + 1 =>
    { fuel := n + 1
      loadIndexObject := loadIndexObject (access n) cr
      fetchChunk := openCurrentChunk (access n) cr }

section Seek

inductive Whence where
  | start
  | current
  | end
deriving DecidableEq

def ObjectReader.findChunkLoop (r : ObjectReader κ) (offset : Int) :
    Nat → Int → Int → Except ReadErr Nat
  | 0, _, _ => .error .cannotFindChunk
  | n + 1, left, right =>
    if left ≤ right then
      let middle := (left + right) / 2
      match r.seekTable[middle.toNat]? with
      | none => .error .cannotFindChunk
      | some e =>
        if offset < e.start then ObjectReader.findChunkLoop r offset n left (middle - 1)
        else if offset ≥ e.endOffset then ObjectReader.findChunkLoop r offset n (middle + 1) right
        else .ok middle.toNat
    else .error .cannotFindChunk

/-- The range searched gets smaller each time, so one round an entry is enough. -/
def ObjectReader.findChunkIndexForOffset (r : ObjectReader κ) (offset : Int) : Except ReadErr Nat :=
  r.findChunkLoop offset (r.seekTable.length + 1) 0 (r.seekTable.length - 1)

variable (a : Access κ)

def ObjectReader.seekTo (r : ObjectReader κ) (offset : Int) :
    Traced κ (ObjectReader κ × Except ReadErr Int) :=
  if offset ≥ r.totalLength then
    .ret ({ r with
      currentChunkIndex := r.seekTable.length
      currentChunkData := none
      currentPosition := offset }, .ok offset)
  else match r.findChunkIndexForOffset offset with
  | .error e => .ret (r, .error e)
  | .ok index =>
    match r.seekTable[index]? with
    | none => .stop
    | some st =>
      let r := if index ≠ r.currentChunkIndex then
          { r with currentChunkData := none, currentChunkIndex := index }
        else r
      let found (r : ObjectReader κ) : ObjectReader κ × Except ReadErr Int :=
        ({ r with
          currentChunkPosition := (offset - st.start).toNat
          currentPosition := offset }, .ok offset)
      match r.currentChunkData with
      | some _ => .ret (found r)
      | none =>
        (a.fetchChunk st).bind fun
          | .error e => .ret (r, .error e)
          | .ok b => .ret (found { r with currentChunkData := some b, currentChunkPosition := 0 })

def Reader.seek (offset : Int) (whence : Whence) :
    Reader κ → Traced κ (Reader κ × Except ReadErr Int)
  | .data payload pos =>
    let abs := match whence with
      | .start => offset
      | .current => pos + offset
      | .end => payload.length + offset
    if abs < 0 then .ret (.data payload pos, .error .negativePosition)
    else .ret (.data payload abs.toNat, .ok abs)
  | .object r =>
    let abs := match whence with
      | .start => offset
      | .current => r.currentPosition + offset
      | .end => r.totalLength + offset
    (r.seekTo a abs).bind fun (r', res) => .ret (.object r', res)

inductive Use where
  | read (n : Nat)
  | seek (offset : Int) (whence : Whence)

def Reader.uses : List Use → Reader κ → Traced κ (Reader κ)
  | [], r => .ret r
  | .read n :: rest, r => (r.read a n).bind fun (r', _) => Reader.uses rest r'
  | .seek offset whence :: rest, r => (r.seek a offset whence).bind fun (r', _) => Reader.uses rest r'

end Seek

/-- Open the object, then read and seek in it, within `n` nested calls each. -/
def session (n : Nat) (o : ID κ) (uses : List Use) : Op κ (Reader κ) :=
  (openAndAssertLength cr (access cr n) o (-1)).thenOk fun r =>
    (r.uses (access cr n) uses).bind fun r' => .ret (.ok r')

section Verify

variable [DecidableEq κ]

def addContentID (tracker : List κ) (c : κ) : List κ := tracker.insert c

def iterateEntries (visit : ID κ → List κ → Op κ (List κ)) :
    List (IndirectObjectEntry κ) → List κ → Op κ (List κ)
  | [], tracker => .ret (.ok tracker)
  | m :: rest, tracker => (visit m.object tracker).thenOk fun t => iterateEntries visit rest t

def iterateBackingContents : Nat → ID κ → List κ → Op κ (List κ)
  | 0, _, _ => .stop
  | n + 1, o, tracker =>
    match o.indexObjectID with
    | some indexObjectID =>
      (iterateBackingContents n indexObjectID tracker).thenOk fun tracker =>
        ((access cr n).loadIndexObject indexObjectID).thenOk fun seekTable =>
          iterateEntries (iterateBackingContents n) seekTable tracker
    | none =>
      match o.contentID with
      | none => .ret (.error .unsupportedObjectID)
      | some (c, _) =>
        match cr.contentInfo c with
        | .error _ => .ret (.error .noContentInfo)
        | .ok _ => .ret (.ok (addContentID tracker c))

def verifyObject (n : Nat) (o : ID κ) : Op κ (List κ) := iterateBackingContents cr n o []

end Verify

end Warphold.Object
