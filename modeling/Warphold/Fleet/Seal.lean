import Warphold.Lib.Encoding

/-!
# Sealed values and key files

Secrets are stored sealed under one key, derived from a passphrase and a salt. The key is kept in a
key file; a rotation writes the next key beside it, tagged with its salt, so that a restart can tell
whether the rotation's transaction committed.
-/

namespace Warphold.Fleet

structure Key where
  bytes : Str
  size : bytes.length = 32
  deriving DecidableEq

structure Crypto where
  derive : Str → Str → Key
  sealPlain : Key → Str → Str → Str
  openSealed : Key → Str → Option Str

def Crypto.Lawful (c : Crypto) : Prop :=
  ∀ k nonce plain, c.openSealed k (c.sealPlain k nonce plain) = some plain

namespace KeyFile

def content (k : Key) : Str := Hex.encodeToString k.bytes ++ [10]

def pendingContent (k : Key) (salt : Str) : Str :=
  Hex.encodeToString k.bytes ++ [32] ++ Hex.encodeToString salt ++ [10]

/-- `readKeyFile`: the key, and its salt if the file is tagged with one. -/
def parse (b : Str) : Option (Key × Str) :=
  match Strings.fields b with
  | [k] => do
    let raw ← Hex.decodeString k
    if h : raw.length = 32 then some (⟨raw, h⟩, []) else none
  | [k, s] => do
    let raw ← Hex.decodeString k
    if h : raw.length = 32 then
      let salt ← Hex.decodeString s
      if salt = [] then none else some (⟨raw, h⟩, salt)
    else none
  | _ => none

def readKey (b : Str) : Option Key := (parse b).map (·.1)

def readPending (b : Str) : Option (Key × Str) := (parse b).filter fun ks => ks.2 ≠ []

lemma parse_pendingContent (k : Key) {salt : Str} (h : salt ≠ []) :
    parse (pendingContent k salt) = some (k, salt) := by
  have hk : k.bytes ≠ [] := fun h0 => by
    have := k.size
    simp [h0] at this
  have hf : Strings.fields (pendingContent k salt)
      = [Hex.encodeToString k.bytes, Hex.encodeToString salt] :=
    Strings.fields_pair (Hex.encodeToString_ne_nil hk) (Hex.encodeToString_ne_nil h)
      Hex.encodeToString_printable Hex.encodeToString_printable
  simp [parse, hf, Hex.decodeString_encodeToString, k.size, h]

lemma readPending_pendingContent (k : Key) {salt : Str} (h : salt ≠ []) :
    readPending (pendingContent k salt) = some (k, salt) := by
  simp [readPending, parse_pendingContent k h, Option.filter, h]

lemma readKey_of_readPending {b : Str} {k : Key} {salt : Str}
    (h : readPending b = some (k, salt)) : readKey b = some k := by
  rw [readPending, Option.filter_eq_some_iff] at h
  simp [readKey, h.1]

end KeyFile

end Warphold.Fleet
