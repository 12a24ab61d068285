import Warphold.Lib.Strings

/-!
# Ignored files

The listing of a source directory with the entries hidden that the ignore rules, the size limit and
the device limit exclude. A directory with a policy or an ignore file of its own adds a level to the
context its parent's listing was made with.

A directory on the way down is given with its ancestors, innermost first. Wildcard patterns are the
`wcmatch` package's. Ignore files are read without read errors, and a scanner sees the end of a file
in a read of its own.
-/

namespace Warphold.Ignore

structure Wcmatch (μ : Type) where
  newWildcardMatcher : Str → Str → Option μ
  negated : μ → Bool
  doMatch : μ → Str → Bool → Bool

structure File where
  openFails : Bool
  text : Str

inductive Child where
  | file (f : File)
  | symlink (target : Child)
  | unresolved
  | other

structure FilesPolicy where
  ignoreRules : List Str := []
  noParentIgnoreRules : Bool := false
  dotIgnoreFiles : List Str := []
  noParentDotIgnoreFiles : Bool := false
  maxFileSize : Int := 0
  oneFileSystem : Option Bool := none

structure Directory where
  name : Str := []
  child : Str → Option Child
  definedPolicy : Option FilesPolicy := none
  ignoreCacheDirectories : Bool := true
  device : Nat := 0

structure Entry where
  name : Str
  isDir : Bool
  size : Int
  device : Nat

structure Level (μ : Type) where
  dotIgnoreFiles : List Str := []
  matchers : List μ := []
  maxFileSize : Int := 0
  oneFileSystem : Bool := false

structure Context (μ : Type) where
  level : Level μ := {}
  parents : List (Level μ) := []

section Lines

def maxScanTokenSize : Nat := 65536

/-- The pieces between newlines; what follows the last one counts if there is anything. -/
def rawLines (text : Str) : List Str :=
  let pieces := Strings.split text 10
  if pieces.getLast? = some [] then pieces.dropLast else pieces

def dropCR (line : Str) : Str := if line.getLast? = some 13 then line.dropLast else line

def allLines (text : Str) : List Str := (rawLines text).map dropCR

def fits (line : Str) : Bool := line.length < maxScanTokenSize

def scannedLines (text : Str) : List Str := ((rawLines text).takeWhile fits).map dropCR

def isRule (line : Str) : Bool :=
  !Strings.hasPrefix line (str "#") && !(Strings.trimSpace line).isEmpty

end Lines

def trimLeadingCurrentDir (dir : Str) : Str :=
  if dir = str "." ∨ Strings.hasPrefix dir (str "./") = true then dir.drop 1 else dir

section Context

variable {μ : Type} (w : Wcmatch μ)

def Wcmatch.matchText (m : μ) (text : Str) (isDir : Bool) : Bool :=
  w.doMatch m text isDir != w.negated m

/-- The matchers of an ignore file, its lines being what `lines` makes of its text. -/
def fileMatchers (lines : Str → List Str) (baseDir : Str) (f : File) : Option (List μ) :=
  if f.openFails then none
  else ((lines f.text).filter isRule).mapM fun line =>
    w.newWildcardMatcher line (trimLeadingCurrentDir (trimLeadingCurrentDir baseDir))

def parseIgnoreFile (baseDir : Str) (f : File) : Option (List μ) :=
  fileMatchers w scannedLines baseDir f

def resolveSymlink : Nat → Child → Option File
  | 0, _ => none
  | _ + 1, .file f => some f
  | n + 1, .symlink target => resolveSymlink n target
  | _ + 1, .unresolved => none
  | _ + 1, .other => none

def maxSymlinkFollow : Nat := 30

def combineAndDedupe (a b : List Str) : List Str := (a ++ b).eraseDups

def policyMatchers (fp : FilesPolicy) (dirPath : Str) : Option (List μ) :=
  fp.ignoreRules.mapM fun rule => w.newWildcardMatcher rule (trimLeadingCurrentDir dirPath)

def overrideFromPolicy (l : Level μ) (fp : FilesPolicy) (dirPath : Str) : Option (Level μ) := do
  let rules ← policyMatchers w fp dirPath
  let dotIgnoreFiles := if fp.noParentDotIgnoreFiles then [] else l.dotIgnoreFiles
  let matchers := if fp.noParentIgnoreRules then [] else l.matchers
  some
    { dotIgnoreFiles := combineAndDedupe dotIgnoreFiles fp.dotIgnoreFiles
      matchers := matchers ++ rules
      maxFileSize := if fp.maxFileSize ≠ 0 then fp.maxFileSize else l.maxFileSize
      oneFileSystem := fp.oneFileSystem.getD false }

def loadDotIgnoreFiles (l : Level μ) (dirPath : Str) (files : List File) : Option (Level μ) := do
  let matchers ← files.mapM (parseIgnoreFile w dirPath)
  some { l with matchers := l.matchers ++ matchers.flatten }

/-- The ignore files of a directory, `none` when one is a link that leads to no file. -/
def dotIgnoreFilesIn (d : Directory) : List Str → Option (List File)
  | [] => some []
  | dotfile :: rest =>
    match d.child dotfile with
    | some (.file f) => do
      let fs ← dotIgnoreFilesIn d rest
      some (f :: fs)
    | some (.symlink target) => do
      let f ← resolveSymlink maxSymlinkFollow target
      let fs ← dotIgnoreFilesIn d rest
      some (f :: fs)
    | some .unresolved => none
    | some .other => dotIgnoreFilesIn d rest
    | none => dotIgnoreFilesIn d rest

def effectiveDotIgnoreFiles (parent : Level μ) (d : Directory) : List Str :=
  match d.definedPolicy with
  | some pol => pol.dotIgnoreFiles
  | none => parent.dotIgnoreFiles

def buildContext (relativePath : Str) (d : Directory) (parentContext : Context μ) :
    Option (Context μ) := do
  let effective := effectiveDotIgnoreFiles parentContext.level d
  let files ← dotIgnoreFilesIn d effective
  let newic : Level μ :=
    { dotIgnoreFiles := effective
      maxFileSize := parentContext.level.maxFileSize
      oneFileSystem := parentContext.level.oneFileSystem }
  let parents := parentContext.level :: parentContext.parents
  match d.definedPolicy with
  | none =>
    if files.isEmpty then some parentContext
    else do
      let l ← loadDotIgnoreFiles w newic relativePath files
      some { level := l, parents }
  | some pol => do
    let l ← overrideFromPolicy w newic pol relativePath
    let l ← loadDotIgnoreFiles w l relativePath files
    some { level := l, parents }

def relativePath : List Directory → Str
  | [] => []
  | [_] => str "."
  | d :: parents => relativePath parents ++ str "/" ++ d.name

def contextOf : List Directory → Option (Context μ)
  | [] => some {}
  | d :: parents => do
    let ctx ← contextOf parents
    buildContext w (relativePath (d :: parents)) d ctx

end Context

section Listing

variable {μ : Type} (w : Wcmatch μ)

def applyMatcher (path : Str) (isDir : Bool) (shouldIgnore : Bool) (m : μ) : Bool :=
  if (!shouldIgnore && !w.negated m) || (shouldIgnore && w.negated m) then
    w.matchText m (trimLeadingCurrentDir path) isDir
  else shouldIgnore

def shouldIgnoreByName (path : Str) (isDir : Bool) : List (Level μ) → Bool
  | [] => false
  | l :: parents => l.matchers.foldl (applyMatcher w path isDir) (shouldIgnoreByName path isDir parents)

def Level.tooLarge (l : Level μ) (e : Entry) : Bool := decide (l.maxFileSize > 0 ∧ e.size > l.maxFileSize)

def Level.otherDevice (l : Level μ) (d : Directory) (e : Entry) : Bool :=
  l.oneFileSystem && e.device != d.device

def cacheDirMarkerFile : Str := str "CACHEDIR.TAG"

def cacheDirMarkerHeader : Str := str "Signature: 8a477f597d28d172789f06886806bc55"

def skipCacheDirectory (d : Directory) : Bool :=
  d.ignoreCacheDirectories &&
    match d.child cacheDirMarkerFile with
    | some (.file f) => !f.openFails && Strings.hasPrefix f.text cacheDirMarkerHeader
    | _ => false

def entryPath (d : Directory) (parents : List Directory) (e : Entry) : Str :=
  relativePath (d :: parents) ++ str "/" ++ e.name

/-- Is the entry left out of the directory's listing? `none` when the listing fails. -/
def hides (d : Directory) (parents : List Directory) (e : Entry) : Option Bool :=
  if skipCacheDirectory d then some true
  else do
    let ctx ← contextOf w (d :: parents)
    some (shouldIgnoreByName w (entryPath d parents e) e.isDir (ctx.level :: ctx.parents) ||
      ctx.level.tooLarge e || ctx.level.otherDevice d e)

end Listing

end Warphold.Ignore
