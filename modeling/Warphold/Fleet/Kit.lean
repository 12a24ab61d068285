import Warphold.Lib.Strings

/-!
# The commands of a recovery kit

The kit prints a command to connect to the repository, to be pasted into a shell. The shell's side is
its splitting of a line into words by the POSIX rules of quoting.
-/

namespace Warphold.Fleet

inductive Kit.TargetKind where
  | hosted
  | b2
  | filesystem
  | other
  deriving DecidableEq

structure KitData where
  targetKind : Kit.TargetKind
  endpoint : Str
  bucket : Str
  pre : Str
  region : Str
  path : Str
  readKeyID : Str
  readKey : Str

namespace Kit

def safe (r : ℕ) : Bool :=
  (97 ≤ r && r ≤ 122) || (65 ≤ r && r ≤ 90) || (48 ≤ r && r ≤ 57)
    || r ∈ [46, 95, 58, 47, 64, 61, 43, 44, 45]

def shellQuote (v : Str) : Str :=
  if v ≠ [] ∧ (Utf8.runes v).all safe then v
  else [39] ++ Strings.replaceAll v 39 [39, 92, 39, 39] ++ [39]

def flag (name : String) (value : Str) : Str :=
  if value = [] then [] else str " --" ++ str name ++ [61] ++ shellQuote value

def afterScheme : Str → Option Str
  | 58 :: 47 :: 47 :: s => some s
  | _ :: s => afterScheme s
  | [] => none

def hostOf (endpoint : Str) : Str := (afterScheme endpoint).getD endpoint

def commands (d : KitData) : List Str :=
  let rest := [str "kopia snapshot list", str "kopia restore <snapshot-id> /path/to/restore/into"]
  match d.targetKind with
  | .hosted => (str "kopia repository connect s3" ++ flag "bucket" d.bucket ++ flag "prefix" d.pre
      ++ flag "endpoint" (hostOf d.endpoint) ++ flag "access-key" d.readKeyID
      ++ flag "secret-access-key" d.readKey ++ flag "region" d.region) :: rest
  | .b2 => (str "kopia repository connect b2" ++ flag "bucket" d.bucket ++ flag "prefix" d.pre
      ++ flag "key-id" d.readKeyID ++ flag "key" d.readKey) :: rest
  | .filesystem => (str "kopia repository connect filesystem" ++ flag "path" d.path) :: rest
  | .other => []

end Kit

namespace Shell

inductive Quoting where
  | plain
  | single
  | double
  | escaped (inDouble : Bool)

/-- Bytes that end a command or a word, redirect, expand or start a comment when not quoted. -/
def special (c : UInt8) : Bool :=
  c ∈ [124, 38, 59, 60, 62, 40, 41, 36, 96, 10, 42, 63, 91, 35, 126, 123, 125, 33]

def blank (c : UInt8) : Bool := c = 32 || c = 9

/-- The words of a line, the one being read given by what it has so far; `none` if the line holds an
operator, an expansion or a quote that is not closed. -/
def words : Quoting → Option Str → Str → Option (List Str)
  | .plain, cur, [] => some cur.toList
  | _, _, [] => none
  | .plain, cur, c :: s =>
    if c = 39 then words .single (some (cur.getD [])) s
    else if c = 34 then words .double (some (cur.getD [])) s
    else if c = 92 then words (.escaped false) cur s
    else if blank c then (words .plain none s).map (cur.toList ++ ·)
    else if special c then none
    else words .plain (some (cur.getD [] ++ [c])) s
  | .single, cur, c :: s =>
    if c = 39 then words .plain cur s else words .single (some (cur.getD [] ++ [c])) s
  | .double, cur, c :: s =>
    if c = 34 then words .plain cur s
    else if c = 36 ∨ c = 96 then none
    else if c = 92 then words (.escaped true) cur s
    else words .double (some (cur.getD [] ++ [c])) s
  | .escaped false, cur, c :: s =>
    if c = 10 then words .plain cur s else words .plain (some (cur.getD [] ++ [c])) s
  | .escaped true, cur, c :: s =>
    if c = 10 then words .double cur s
    else if c ∈ [36, 96, 34, 92] then words .double (some (cur.getD [] ++ [c])) s
    else words .double (some (cur.getD [] ++ [92, c])) s

end Shell

end Warphold.Fleet
