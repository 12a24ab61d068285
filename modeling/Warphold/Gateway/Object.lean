import Warphold.Lib.Encoding
import Warphold.Lib.Reader

/-!
# Object keys

The storage boundary of the gateway: the errors of an object store and the check every key passes
before a backend sees it. The key space is flat, `<device-id>/<blob-name>`.
-/

namespace Warphold.Gateway

def maxKeyLen : ℕ := 1024

def tmpDir : Str := str ".tmp"

inductive BadKey where
  | empty
  | tooLong (n : ℕ)
  | absolute
  | notUTF8
  | forbiddenCharacter
  | notFlat
  | badSegment
  | reserved
  | prefixNoSlash
  | prefixReserved
  | outsidePrefix
  deriving DecidableEq, Repr

inductive StoreErr where
  | errExists
  | errNotFound
  | errRange
  | errBadKey
  | errTooLarge
  | errIncompleteBody
  | errBadDigest
  | other
  deriving DecidableEq, Repr

structure ObjectInfo where
  key : Str
  size : ℤ
  etag : Str
  lastModified : ℤ
  deriving DecidableEq, Repr

def forbiddenRune (r : ℕ) : Bool := r < 0x20 || r = 0x7f || (0x80 ≤ r && r ≤ 0x9f) || r = 92

def badSegment (seg : Str) : Bool := seg = [] || seg = str "." || seg = str ".."

/-- The half of `normalizeKey` that does not depend on the prefix; `none` is acceptance. -/
def checkKey (key : Str) : Option BadKey :=
  if key = [] then some .empty
  else if maxKeyLen < key.length then some (.tooLong key.length)
  else if key.head? = some 47 then some .absolute
  else if !Utf8.validString key then some .notUTF8
  else if (Utf8.runes key).any forbiddenRune then some .forbiddenCharacter
  else
    let c := Strings.cut key 47
    if !c.2.2 || c.2.1.contains 47 then some .notFlat
    else if badSegment c.1 || badSegment c.2.1 then some .badSegment
    else if c.1 = tmpDir then some .reserved
    else none

def normalizeKey (key pre : Str) : Except BadKey Str :=
  match checkKey key with
  | some e => .error e
  | none =>
    if pre ≠ [] ∧ !Strings.hasSuffix pre [47] then .error .prefixNoSlash
    else if pre ≠ [] ∧ Strings.trimSuffix pre [47] = tmpDir then .error .prefixReserved
    else if !Strings.hasPrefix key pre then .error .outsidePrefix
    else .ok key

/-- A key that passes the check is a device and a blob name, neither of them empty or holding a
slash, and the device is not the staging directory. -/
lemma checkKey_none {key : Str} (h : checkKey key = none) :
    ∃ device name : Str, key = device ++ 47 :: name ∧ 47 ∉ device ∧ 47 ∉ name ∧ device ≠ []
      ∧ name ≠ [] ∧ device ≠ tmpDir := by
  unfold checkKey at h
  split_ifs at h with h1 h2 h3 h4 h5
  simp only [] at h
  split_ifs at h with h6 h7 h8
  rcases hc : Strings.cut key 47 with ⟨device, name, found⟩
  rw [hc] at h6 h7 h8
  simp only [Bool.or_eq_true, Bool.not_eq_eq_eq_not, Bool.not_true, List.contains_eq_mem,
    decide_eq_true_eq, not_or, Bool.not_eq_false] at h6 h7
  obtain ⟨rfl, hname⟩ := h6
  obtain ⟨hkey, hdev⟩ := Strings.cut_found_iff.1 hc
  refine ⟨device, name, hkey, hdev, hname, ?_, ?_, h8⟩
  · rintro rfl
    exact h7.1 (by decide)
  · rintro rfl
    exact h7.2 (by decide)

lemma normalizeKey_ok {key pre full : Str} (h : normalizeKey key pre = .ok full) :
    full = key ∧ checkKey key = none ∧ pre <+: key := by
  unfold normalizeKey at h
  rcases hc : checkKey key with _ | e <;> rw [hc] at h <;> simp only [] at h
  · split_ifs at h with h1 h2 h3
    cases h
    refine ⟨rfl, rfl, ?_⟩
    simpa [Strings.hasPrefix_iff] using h3
  · cases h

end Warphold.Gateway
