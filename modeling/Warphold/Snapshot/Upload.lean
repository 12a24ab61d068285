import Warphold.Lib.Encoding

/-!
# Uploading a tree

The uploader walks a source tree beside the directories of previous snapshots. An entry that looks like
one of a previous snapshot is taken from there, and other files are read and written, in parts when they
are larger than the policy says. Entries are worked on by the caller or by a pool of workers, each of
which adds its result to the directory's builder; nothing else passes between them, so a schedule only
decides in which order a directory gets its entries.

An object is identified with the bytes that reading it returns: written data reads back as it is, and
concatenated objects read back one after the other. `Uploads` says what an upload can end with, none
standing for a panic.
-/

namespace Warphold.Upload

inductive Kind where
  | file
  | streamingFile
  | symlink
deriving DecidableEq

structure Metadata where
  modTime : Int
  permissions : ℕ
  owner : ℕ × ℕ
  size : Int
deriving DecidableEq

/-- An entry of the source: a file with its contents, a symlink with its target, or a directory. -/
inductive Source where
  | leaf (name : Str) (kind : Kind) (md : Metadata) (content : Str)
  | dir (name : Str) (md : Metadata) (children : List Source)

inductive Snap where
  | leaf (name : Str) (symlink : Bool) (md : Metadata) (objectID : Str)
  | dir (name : Str) (md : Metadata) (objectID : Str) (children : List Snap)

section Entries

def Source.name : Source → Str
  | .leaf n _ _ _ => n
  | .dir n _ _ => n

def Snap.name : Snap → Str
  | .leaf n _ _ _ => n
  | .dir n _ _ _ => n

def Source.child (n : Str) : Source → Option Source
  | .leaf _ _ _ _ => none
  | .dir _ _ cs => cs.find? fun c => c.name == n

def Snap.child (n : Str) : Snap → Option Snap
  | .leaf _ _ _ _ => none
  | .dir _ _ _ cs => cs.find? fun c => c.name == n

def Source.at : List Str → Source → Option Source
  | [], s => some s
  | n :: p, s => (s.child n).bind (Source.at p)

def Snap.at : List Str → Snap → Option Snap
  | [], s => some s
  | n :: p, s => (s.child n).bind (Snap.at p)

inductive View where
  | directory
  | file (content : Str)
  | symlink (target : Str)
deriving DecidableEq

def Source.view : Source → View
  | .leaf _ .symlink _ c => .symlink c
  | .leaf _ _ _ c => .file c
  | .dir _ _ _ => .directory

def Snap.view : Snap → View
  | .leaf _ true _ c => .symlink c
  | .leaf _ false _ c => .file c
  | .dir _ _ _ _ => .directory

def Source.readAt (p : List Str) (s : Source) : Option View := (s.at p).map Source.view

def Snap.readAt (p : List Str) (s : Snap) : Option View := (s.at p).map Snap.view

end Entries

section Policy

/-- The setting of a policy command given in MiB: not given, reset, or a number of bytes. The outer
none is an error. -/
def applyOptionalInt64MiB (val : Option Int) (s : Str) : Option (Option Int) :=
  if s = [] then some val
  else if s = str "inherit" ∨ s = str "default" then some none
  else
    match Strconv.parseInt s with
    | some v => if -2 ^ 31 ≤ v ∧ v < 2 ^ 31 then some (some (v * 2 ^ 20)) else none
    | none => none

end Policy

section Files

/-- Part `i` of a file, from its offset and for `length` bytes, or to the end. -/
def uploadFileData (content : Str) (offset : ℕ) (length : Option ℕ) : Str :=
  match length with
  | some n => (content.drop offset).take n
  | none => content.drop offset

def fileParts (content : Str) (chunkSize fullParts : ℕ) : List Str :=
  (List.range (fullParts + 1)).map fun i =>
    uploadFileData content (i * chunkSize) (if i = fullParts then none else some chunkSize)

/-- The entry of an uploaded file; its size is what was written. The number of parts is a division by
the size that the policy gives. -/
def uploadFileInternal (parallelUploadAboveSize : Option Int) (name : Str) (md : Metadata)
    (content : Str) : Option Snap :=
  let chunkSize := parallelUploadAboveSize.getD (-1)
  if chunkSize < 0 ∨ md.size ≤ chunkSize then
    some (.leaf name false { md with size := content.length } (uploadFileData content 0 none))
  else if chunkSize = 0 then none
  else
    let parts := fileParts content chunkSize.toNat (md.size / chunkSize).toNat
    some (.leaf name false { md with size := (parts.map List.length).sum } parts.flatten)

end Files

section Reuse

/-- Whether an entry of a previous snapshot has the type and the metadata of a source entry. The size
of a streaming file is not known and not compared. -/
def metadataEquals (kind : Kind) (md : Metadata) : Snap → Bool
  | .leaf _ symlink md' _ =>
    (symlink == decide (kind = .symlink)) && md'.modTime == md.modTime &&
      md'.permissions == md.permissions && md'.owner == md.owner &&
      (decide (kind = .streamingFile) || md'.size == md.size)
  | .dir _ _ _ _ => false

def findCachedEntry (prevDirs : List Snap) (name : Str) (kind : Kind) (md : Metadata) : Option Snap :=
  (prevDirs.filterMap (Snap.child name)).find? (metadataEquals kind md)

/-- A streaming file takes the type and metadata of the entry it is taken from. -/
def newCachedDirEntry (name : Str) (kind : Kind) (md : Metadata) : Snap → Snap
  | .leaf _ symlink md' oid =>
    if kind = .streamingFile then .leaf name symlink md' oid
    else .leaf name (decide (kind = .symlink)) md oid
  | s => s

def Snap.isDir : Snap → Bool
  | .leaf _ _ _ _ => false
  | .dir _ _ _ _ => true

def Snap.objectID : Snap → Str
  | .leaf _ _ _ oid => oid
  | .dir _ _ oid _ => oid

def lastOfEach : List Snap → List Snap
  | [] => []
  | d :: rest =>
    if d.objectID ∈ rest.map Snap.objectID then lastOfEach rest else d :: lastOfEach rest

/-- Directories are told apart by object ID; when some are dropped, the others come in any order. -/
def UniqueDirectories (dirs result : List Snap) : Prop :=
  if (dirs.map Snap.objectID).Nodup then result = dirs else result.Perm (lastOfEach dirs)

def childDirectories (dirs : List Snap) (name : Str) : List Snap :=
  (dirs.filterMap (Snap.child name)).filter Snap.isDir

/-- The previous directories that an entry is uploaded with: those of its parent, or for a directory
their children of its name. -/
def PrevDirs (prevDirs : List Snap) : Source → List Snap → Prop
  | .leaf _ _ _ _, result => result = prevDirs
  | .dir n _ _, result => UniqueDirectories (childDirectories prevDirs n) result

end Reuse

/-- The policy's size for parallel uploads by path, and the objects that directories are written to. -/
structure Uploader where
  parallelUploadAboveSize : List Str → Option Int
  writeDirManifest : List Snap → Str

variable (u : Uploader)

mutual

inductive Uploads : List Str → List Snap → Source → Option Snap → Prop where
  | cached {path : List Str} {prev : List Snap} {n : Str} {k : Kind} {md : Metadata} {c : Str}
      {ent : Snap} : findCachedEntry prev n k md = some ent →
      Uploads path prev (.leaf n k md c) (some (newCachedDirEntry n k md ent))
  | symlink {path : List Str} {prev : List Snap} {n : Str} {md : Metadata} {c : Str} :
      Uploads path prev (.leaf n .symlink md c) (some (.leaf n true { md with size := c.length } c))
  | streamingFile {path : List Str} {prev : List Snap} {n : Str} {md : Metadata} {c : Str} :
      Uploads path prev (.leaf n .streamingFile md c)
        (some (.leaf n false { md with size := c.length } c))
  | file {path : List Str} {prev : List Snap} {n : Str} {md : Metadata} {c : Str} :
      Uploads path prev (.leaf n .file md c)
        (uploadFileInternal (u.parallelUploadAboveSize path) n md c)
  | dir {path : List Str} {prev prev' : List Snap} {n : Str} {md : Metadata} {cs : List Source}
      {added entries : List Snap} : UniqueDirectories prev prev' →
      UploadsAll path prev' cs (some added) → entries.Perm added →
      Uploads path prev (.dir n md cs) (some (.dir n md (u.writeDirManifest entries) entries))
  | dirPanics {path : List Str} {prev prev' : List Snap} {n : Str} {md : Metadata}
      {cs : List Source} : UniqueDirectories prev prev' → UploadsAll path prev' cs none →
      Uploads path prev (.dir n md cs) none

inductive UploadsAll : List Str → List Snap → List Source → Option (List Snap) → Prop where
  | nil {path : List Str} {prev : List Snap} : UploadsAll path prev [] (some [])
  | cons {path : List Str} {prev prev' : List Snap} {c : Source} {cs : List Source}
      {r : Option Snap} {rs : Option (List Snap)} : PrevDirs prev c prev' →
      Uploads (path ++ [c.name]) prev' c r → UploadsAll path prev cs rs →
      UploadsAll path prev (c :: cs) (r.bind fun e => rs.map (e :: ·))

end

def Source.isRoot : Source → Bool
  | .dir _ _ _ => true
  | .leaf _ k _ _ => decide (k = .file)

/-- What uploading a source can end with. A file at the root is not looked up in previous snapshots,
and keeps its own size. -/
def Uploaded (previous : List Snap) : Source → Option Snap → Prop
  | .dir n md cs, r => Uploads u [] previous (.dir n md cs) r
  | .leaf n .file md c, r =>
    r = (uploadFileInternal (u.parallelUploadAboveSize []) n md c).map fun e =>
      .leaf n false md e.objectID
  | _, _ => False

end Warphold.Upload
