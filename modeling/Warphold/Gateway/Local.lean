import Warphold.Gateway.Object

/-!
# The local object store

One directory per device under a root, `<root>/<device-id>/<blob-name>`. Only a regular file is an
object. A write goes to a temp file whose name is fresh, and reaches its key by `link(2)`, which
fails on an existing name, or by `rename(2)` when the caller asks to overwrite.

Each operation is a function of the tree and of what the filesystem does to it (`Faults`); the temp
files are not part of the tree, since no key names them.
-/

namespace Warphold.Gateway

open Std (ExtTreeMap)

/-- A stored file: its bytes, its time stamp and the ETag kept beside it in an xattr. -/
structure Obj where
  bytes : Str
  modTime : ℤ
  xattr : Option Str
  deriving DecidableEq, Repr

inductive Entry where
  | file (o : Obj)
  | irregular (isDir : Bool)
  deriving DecidableEq, Repr

abbrev Tree := ExtTreeMap Str (ExtTreeMap Str Entry)

structure Faults where
  ctxErr : Bool
  createTemp : Bool
  write : Bool
  sync : Bool
  mkdir : Bool
  link : Bool
  stat : Bool
  openFile : Bool
  readFile : Option ℕ
  /-- Reading a directory fails, for another reason than that it does not exist. -/
  readDir : Bool
  entryInfo : Str → Bool
  remove : Bool
  nameTooLong : Str → Bool
  keepsXattr : Bool
  modTime : ℤ

def Faults.healthy (now : ℤ) : Faults where
  ctxErr := false
  createTemp := false
  write := false
  sync := false
  mkdir := false
  link := false
  stat := false
  openFile := false
  readFile := none
  readDir := false
  entryInfo := fun _ => false
  remove := false
  nameTooLong := fun n => decide (255 < n.length)
  keepsXattr := true
  modTime := now

def maxKeys : ℕ := 1000

def defaultMaxObjectSize : ℤ := 64 * 2 ^ 20

namespace Tree

def entry (t : Tree) (device name : Str) : Option Entry := t[device]?.bind fun d => d[name]?

def setEntry (t : Tree) (device name : Str) (e : Entry) : Tree :=
  t.insert device ((t.getD device ∅).insert name e)

def removeEntry (t : Tree) (device name : Str) : Tree :=
  t.insert device ((t.getD device ∅).erase name)

def mkdirAll (t : Tree) (device : Str) : Tree := t.insert device (t.getD device ∅)

lemma entry_insert (t : Tree) (device device' name : Str) (d : ExtTreeMap Str Entry) :
    entry (t.insert device d) device' name
      = if device = device' then d[name]? else t.entry device' name := by
  unfold entry
  rw [ExtTreeMap.getElem?_insert]
  by_cases hd : device = device' <;> simp [hd]

lemma getD_getElem? (t : Tree) (device name : Str) :
    (t.getD device ∅)[name]? = t.entry device name := by
  rw [entry, ExtTreeMap.getD_eq_getD_getElem?]
  rcases t[device]? with _ | d <;> simp

@[simp] lemma entry_setEntry (t : Tree) (device name device' name' : Str) (e : Entry) :
    (t.setEntry device name e).entry device' name'
      = if device = device' ∧ name = name' then some e else t.entry device' name' := by
  rw [setEntry, entry_insert, ExtTreeMap.getElem?_insert, getD_getElem?]
  by_cases hd : device = device' <;> simp [hd]

@[simp] lemma entry_removeEntry (t : Tree) (device name device' name' : Str) :
    (t.removeEntry device name).entry device' name'
      = if device = device' ∧ name = name' then none else t.entry device' name' := by
  rw [removeEntry, entry_insert, ExtTreeMap.getElem?_erase, getD_getElem?]
  by_cases hd : device = device' <;> simp [hd]

@[simp] lemma entry_mkdirAll (t : Tree) (device device' name' : Str) :
    (t.mkdirAll device).entry device' name' = t.entry device' name' := by
  rw [mkdirAll, entry_insert, getD_getElem?]
  split_ifs with hd <;> simp [hd]

end Tree

namespace Local

variable (md5 : Str → Str) (f : Faults)

/-- What `writeTemp` returns: the bytes written with their ETag, or an error, and whether the body
was read to its end. -/
structure Staged where
  result : Except StoreErr (Str × Str)
  sawEnd : Bool

/-- Streams a body into a temp file, hashing as it goes, up to one byte past the limit. -/
def writeTemp (body : List (ReadAns UInt8 StoreErr)) (size maxSize : ℤ) : Staged :=
  let limit := if 0 ≤ size ∧ size < maxSize then size else maxSize
  let c := Reader.copyLimited (limit + 1).toNat body
  if f.write then ⟨.error .other, c.sawEnd⟩
  else match c.err with
    | some e => ⟨.error e, c.sawEnd⟩
    | none =>
      let n : ℤ := c.written.length
      if maxSize < n then ⟨.error .errTooLarge, c.sawEnd⟩
      else if 0 ≤ size ∧ n ≠ size then ⟨.error .errIncompleteBody, c.sawEnd⟩
      else if f.sync then ⟨.error .other, c.sawEnd⟩
      else ⟨.ok (c.written, Hex.encodeToString (md5 c.written)), c.sawEnd⟩

def staged (w : Str × Str) : Obj := ⟨w.1, f.modTime, if f.keepsXattr then some w.2 else none⟩

/-- The second half of `Put`: the finished temp file is given its key, by `rename(2)` or `link(2)`. -/
def place (t : Tree) (key : Str) (w : Str × Str) (overwrite : Bool) :
    Tree × Except StoreErr ObjectInfo :=
  let c := Strings.cut key 47
  let device := c.1
  let name := c.2.1
  if f.nameTooLong device then (t, .error .errBadKey)
  else if f.mkdir then (t, .error .other)
  else
    let t := t.mkdirAll device
    let stored := t.setEntry device name (.file (staged f w))
    let result := if f.stat then .error .other else .ok ⟨key, w.1.length, w.2, f.modTime⟩
    if f.nameTooLong name then (t, .error .errBadKey)
    else if overwrite then
      if f.link ∨ t.entry device name = some (.irregular true) then (t, .error .other)
      else (stored, result)
    else if (t.entry device name).isSome then (t, .error .errExists)
    else if f.link then (t, .error .other)
    else (stored, result)

/-- `Put`: the tree after it, its result, and whether it read the body to its end. -/
def put (maxSize : ℤ) (t : Tree) (key : Str) (body : List (ReadAns UInt8 StoreErr)) (size : ℤ)
    (overwrite : Bool) : Tree × Except StoreErr ObjectInfo × Bool :=
  if f.ctxErr then (t, .error .other, false)
  else if checkKey key ≠ none then (t, .error .errBadKey, false)
  else if maxSize < size then (t, .error .errTooLarge, false)
  else if f.createTemp then (t, .error .other, false)
  else
    let st := writeTemp md5 f body size maxSize
    match st.result with
    | .error e => (t, .error e, st.sawEnd)
    | .ok w =>
      let placed := place f t key w overwrite
      (placed.1, placed.2, st.sawEnd)

def lstatObject (t : Tree) (key : Str) : Except StoreErr Obj :=
  let c := Strings.cut key 47
  if f.nameTooLong c.1 ∨ f.nameTooLong c.2.1 then .error .errBadKey
  else match t.entry c.1 c.2.1 with
    | some (.file o) => .ok o
    | some (.irregular _) => .error .errNotFound
    | none => .error .errNotFound

def openObject (t : Tree) (key : Str) : Except StoreErr Obj :=
  if checkKey key ≠ none then .error .errBadKey
  else do
    let o ← lstatObject f t key
    if f.openFile then .error .errNotFound else .ok o

/-- `Get`: the bytes from `offset` on, at most `length` of them unless it is negative and as far as
they can be read, and the object's metadata without its ETag. -/
def get (t : Tree) (key : Str) (offset length : ℤ) : Except StoreErr (Str × ObjectInfo) :=
  if f.ctxErr then .error .other
  else do
    let o ← openObject f t key
    let size : ℤ := o.bytes.length
    if offset < 0 ∨ (0 < offset ∧ size ≤ offset) then .error .errRange
    else
      let length := if length < 0 ∨ size - offset < length then size - offset else length
      let body := (o.bytes.drop offset.toNat).take length.toNat
      .ok (match f.readFile with | none => body | some n => body.take n, ⟨key, size, [], o.modTime⟩)

def isMD5Hex (s : Str) : Bool := s.length = 32 && (Hex.decodeString s).isSome

/-- `Head`: the object's metadata, its ETag read from the xattr or computed. -/
def head (t : Tree) (key : Str) : Except StoreErr ObjectInfo :=
  if f.ctxErr then .error .other
  else do
    let o ← openObject f t key
    match o.xattr with
    | some e =>
      if isMD5Hex e then .ok ⟨key, o.bytes.length, e, o.modTime⟩
      else if f.readFile.isSome then .error .other
      else .ok ⟨key, o.bytes.length, Hex.encodeToString (md5 o.bytes), o.modTime⟩
    | none =>
      if f.readFile.isSome then .error .other
      else .ok ⟨key, o.bytes.length, Hex.encodeToString (md5 o.bytes), o.modTime⟩

/-- The device directories a prefix selects, and the prefix of the blob names within them. -/
def listDirs (t : Tree) (pre : Str) : Except StoreErr (List Str × Str) :=
  let c := Strings.cut pre 47
  if c.2.2 then
    if badSegment c.1 || c.1 = tmpDir || c.1.contains 92 then .error .errBadKey
    else .ok ([c.1], c.2.1)
  else if f.readDir then .error .other
  else .ok (t.keys.filter fun d => d ≠ tmpDir && Strings.hasPrefix d pre, [])

/-- One device's directory added to a page. `.inl` is a page that went over `max` and stops the
listing; the objects found so far are carried in `objs`. -/
def listEnts (d name after : Str) (max : ℕ) :
    List (Str × Entry) → List ObjectInfo → Except StoreErr (List ObjectInfo ⊕ List ObjectInfo)
  | [], objs => .ok (.inr objs)
  | (n, e) :: ents, objs =>
    match e with
    | .irregular _ => listEnts d name after max ents objs
    | .file o =>
      let key := d ++ [47] ++ n
      if !Strings.hasPrefix n name || !Strings.lt after key then listEnts d name after max ents objs
      else if f.entryInfo n then .error .other
      else
        let objs := objs ++ [⟨key, o.bytes.length, [], o.modTime⟩]
        if max < objs.length then .ok (.inl (objs.take max)) else listEnts d name after max ents objs

/-- The directories of a listing one after the other; a missing one is skipped. -/
def listLoop (t : Tree) (name after : Str) (max : ℕ) :
    List Str → List ObjectInfo → Except StoreErr (List ObjectInfo × Bool)
  | [], objs => .ok (objs, false)
  | d :: dirs, objs =>
    if f.readDir || f.nameTooLong d then .error .other
    else match t[d]? with
      | none => listLoop t name after max dirs objs
      | some ents =>
        match listEnts f d name after max ents.toList objs with
        | .error e => .error e
        | .ok (.inl page) => .ok (page, true)
        | .ok (.inr objs) => listLoop t name after max dirs objs

/-- `List`: a page of the objects under `pre` after the key `after`, and whether more follow. -/
def list (t : Tree) (pre after : Str) (max : ℤ) : Except StoreErr (List ObjectInfo × Bool) :=
  if f.ctxErr then .error .other
  else do
    let max := if max ≤ 0 ∨ (maxKeys : ℤ) < max then maxKeys else max.toNat
    let (dirs, name) ← listDirs f t pre
    listLoop f t name after max dirs []

def delete (t : Tree) (key : Str) : Tree × Option StoreErr :=
  if f.ctxErr then (t, some .other)
  else if checkKey key ≠ none then (t, some .errBadKey)
  else match lstatObject f t key with
    | .error e => (t, some e)
    | .ok _ =>
      if f.remove then (t, some .other)
      else
        let c := Strings.cut key 47
        (t.removeEntry c.1 c.2.1, none)

end Local

end Warphold.Gateway
