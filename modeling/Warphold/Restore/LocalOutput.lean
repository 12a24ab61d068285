import Warphold.Restore.Copier

/-!
# What a restore to a directory touches

The paths that the output to a local directory creates, truncates, deletes or changes the attributes
of, entry by entry. Entry names are joined into paths as the `path` package joins them: a name is any
string, and joining cleans the result.

`Local` is what the restore finds: the target, a clean absolute path given by its components, the
names the system lists in a directory, and where something is found when the restore gets there. An
operation is listed if the source can issue it for the entry.
-/

namespace Warphold.Restore

section Paths

def cleanStack (rooted : Bool) : List Str → List Str → List Str
  | stack, [] => stack.reverse
  | stack, c :: rest =>
    if c = [] ∨ c = str "." then cleanStack rooted stack rest
    else if c = str ".." then
      match stack with
      | [] => cleanStack rooted (if rooted then [] else [c]) rest
      | top :: below =>
        if top = str ".." then cleanStack rooted (c :: stack) rest else cleanStack rooted below rest
    else cleanStack rooted (c :: stack) rest

def slash : UInt8 := 47

def clean (p : Str) : Str :=
  let rooted := p.head? = some slash
  let out := (if rooted then [slash] else []) ++
    Strings.join (cleanStack rooted [] (Strings.split p slash)) [slash]
  if out = [] then str "." else out

def joinPath (a b : Str) : Str :=
  if a = [] ∧ b = [] then []
  else if a = [] then clean b
  else if b = [] then clean a
  else clean (a ++ slash :: b)

abbrev Path := List Str

def render (p : Path) : Str := slash :: Strings.join p [slash]

def fullPath (target : Path) (rel : Str) : Path :=
  cleanStack true [] (Strings.split (joinPath (render target) rel) slash)

def shallowEntrySuffix : Str := str ".kopia-entry"

def suffixed (p : Path) : Path :=
  match p.getLast? with
  | none => [shallowEntrySuffix]
  | some base => p.dropLast ++ [base ++ shallowEntrySuffix]

def maxFilenameLength : Nat := 255

def safelySuffixablePath (p : Path) : Bool :=
  (p.getLast?.getD [slash]).length + shallowEntrySuffix.length ≤ maxFilenameLength

def Plain (name : Str) : Prop := name ≠ [] ∧ slash ∉ name ∧ name ≠ str "." ∧ name ≠ str ".."

instance (name : Str) : Decidable (Plain name) := inferInstanceAs (Decidable (_ ∧ _))

end Paths

structure Local where
  target : Path
  target_ne_nil : target ≠ []
  target_plain : ∀ c ∈ target, Plain c
  listing : Path → List Str
  listing_plain : ∀ p, ∀ c ∈ listing p, Plain c
  present : Path → Bool
  deleteExtra : Bool := false
  writeFilesAtomically : Bool := false
  restoreDirEntryAtDepth : Int := 1000
  minSizeForPlaceholder : Int := 0

inductive Op where
  | mkdir
  | openTruncate
  | createTemp
  | renameOnto
  | setAttributes
  | setLinkAttributes
  | remove
  | removeAll
  | symlink
deriving DecidableEq

def Op.follows : Op → Bool
  | .openTruncate => true
  | .setAttributes => true
  | _ => false

structure Touch where
  op : Op
  path : Path
deriving DecidableEq

section Output

variable (l : Local)

def mkdirAll (p : Path) : List Touch :=
  (p.inits.filter fun q => !l.present q).map (Touch.mk .mkdir)

def removeAll (p : Path) : List Touch := if l.present p then [⟨.removeAll, p⟩] else []

def safeRemoveAll (p : Path) : List Touch :=
  if safelySuffixablePath p then removeAll l (suffixed p) else []

/-- A temporary file next to the path, renamed onto it. Its name is not the restore's to choose. -/
def atomicWrite (p : Path) (temp : Str) : List Touch :=
  [⟨.createTemp, p.dropLast ++ [temp]⟩, ⟨.renameOnto, p⟩]

def writeFile (p : Path) (temp : Str) : List Touch :=
  (if l.writeFilesAtomically then atomicWrite p temp else [⟨.openTruncate, p⟩]) ++
    ⟨.setAttributes, p⟩ :: safeRemoveAll l p

def shallowFile (p : Path) (temp : Str) : List Touch :=
  atomicWrite (suffixed p) temp ++ [⟨.setAttributes, suffixed p⟩]

def shallowDir (p : Path) (temp : Str) : List Touch :=
  let inner := suffixed p ++ [shallowEntrySuffix]
  mkdirAll l (suffixed p) ++ atomicWrite inner temp ++ [⟨.setAttributes, inner⟩]

def createSymlink (p : Path) : List Touch :=
  [⟨.remove, p⟩, ⟨.symlink, p⟩, ⟨.setLinkAttributes, p⟩]

def deleteExtraFilesInDir (p : Path) : List Touch :=
  if l.deleteExtra then
    (l.listing p).flatMap fun name => [⟨.remove, p ++ [name]⟩, ⟨.removeAll, p ++ [name]⟩]
  else []

def writeDir (p : Path) : List Touch :=
  mkdirAll l p ++ deleteExtraFilesInDir l p ++ ⟨.setAttributes, p⟩ :: safeRemoveAll l p

def isShallowDir (rel : Str) (depth : Nat) : Bool :=
  safelySuffixablePath (Strings.split rel slash) && decide ((depth : Int) > l.restoreDirEntryAtDepth)

def touchesOf (rel : Str) (p : Path) (depth : Nat) (temp : Str) : Entry → List Touch
  | .file _ size =>
    if (depth : Int) > l.restoreDirEntryAtDepth ∧ ¬size < l.minSizeForPlaceholder then
      shallowFile p temp
    else writeFile l p temp
  | .symlink _ _ => createSymlink p
  | .dir _ _ => if isShallowDir l rel depth then shallowDir l p temp else writeDir l p
  | .other _ => []

end Output

section Tree

def Entry.name : Entry → Str
  | .file name _ => name
  | .symlink name _ => name
  | .dir name _ => name
  | .other name => name

/-- The path of an entry relative to the target. The root's own name is not used. -/
def Entry.relativePath (root : Entry) : Pos → Str
  | [] => []
  | i :: p => joinPath (root.relativePath p) (((root.at (i :: p)).map Entry.name).getD [])

variable (l : Local) (root : Entry)

def pathAt (p : Pos) : Path := fullPath l.target (root.relativePath p)

/-- A restore touches what some entry's handling touches, with some name for a temporary file. -/
def Touches (t : Touch) : Prop :=
  ∃ p e temp, root.at p = some e ∧ Plain temp ∧
    t ∈ touchesOf l (root.relativePath p) (pathAt l root p) p.length temp e

def Links (p q : Path) : Prop :=
  ∃ pos name target, root.at pos = some (.symlink name target) ∧ p = pathAt l root pos ∧
    q = if target.head? = some slash then cleanStack true [] (Strings.split target slash)
      else cleanStack true [] (p.dropLast ++ Strings.split target slash)

inductive Resolves (follows : Bool) : Path → Path → Prop where
  | done {p : Path} : Resolves follows p p
  | link {p q rest r : Path} : Links l root p q → (rest ≠ [] ∨ follows = true) →
      Resolves follows (q ++ rest) r → Resolves follows (p ++ rest) r

end Tree

end Warphold.Restore
