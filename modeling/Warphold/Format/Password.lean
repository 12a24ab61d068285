import Warphold.Lib.Strings

/-!
# The format blobs and the change of their password

A repository has two blobs that are encrypted under a key derived from its password: one with its
configuration and one with the configuration of its storage. Opening a repository reads both and needs
both to decrypt; changing the password replaces one after the other.
-/

namespace Warphold.Format

inductive BlobID where
  | repository
  | blobCfg
  deriving DecidableEq, Repr

structure KopiaRepositoryJSON where
  tool : Str
  buildVersion : Str
  buildInfo : Str
  uniqueID : Str
  keyDerivationAlgorithm : Str
  encryptionAlgorithm : Str
  encryptedFormatBytes : Str
  deriving DecidableEq

structure BlobStorageConfiguration where
  retentionMode : Str
  retentionPeriod : ℤ
  deriving DecidableEq

structure Codec (α : Type) where
  encode : α → Str
  decode : Str → Option α
  decode_encode : ∀ a, decode (encode a) = some a

structure Suite (ρ : Type) where
  json : Codec KopiaRepositoryJSON
  config : Codec ρ
  blobCfg : Codec BlobStorageConfiguration
  deriveKey : (password uniqueID algorithm : Str) → Option Str
  encrypt : (nonce data key id : Str) → Str
  decrypt : (data key id : Str) → Option Str
  decrypt_encrypt : ∀ nonce data key id, decrypt (encrypt nonce data key id) key id = some data
  length_encrypt : ∀ nonce data key id, (encrypt nonce data key id).length = data.length + 28
  length_json : ∀ (j : KopiaRepositoryJSON) (x y : Str), x.length = y.length →
    (json.encode { j with encryptedFormatBytes := x }).length
      = (json.encode { j with encryptedFormatBytes := y }).length
  enablePasswordChange : ρ → Bool
  /-- Whether `NewFormattingOptionsProvider` takes the configuration. -/
  provides : ρ → Bool

def Suite.Separates {ρ : Type} (S : Suite ρ) (key key' : Str) : Prop :=
  ∀ data id, S.decrypt data key id = none ∨ S.decrypt data key' id = none

inductive FormatErr where
  | readFormat
  | parse
  | checksum
  | deriveKey
  | errInvalidPassword
  | blobCfg
  | provider
  | unsupported
  | encrypt
  deriving DecidableEq, Repr

abbrev Storage := BlobID → Option Str

def aes256GcmEncryption : Str := str "AES256_GCM"

def none_ : Str := str "NONE"

def maxChecksummedFormatBytesLength : ℕ := 65000

def formatBlobChecksumSize : ℕ := 32

structure Manager (ρ : Type) where
  formatEncryptionKey : Str
  j : KopiaRepositoryJSON
  repoConfig : ρ
  blobCfgBlob : BlobStorageConfiguration
  deriving DecidableEq

variable {ρ : Type} (S : Suite ρ)

def decryptRepositoryConfig (j : KopiaRepositoryJSON) (key : Str) : Option ρ :=
  if j.encryptionAlgorithm = aes256GcmEncryption then
    (S.decrypt j.encryptedFormatBytes key j.uniqueID).bind S.config.decode
  else none

def encryptRepositoryConfig (j : KopiaRepositoryJSON) (format : ρ) (key nonce : Str) :
    Option KopiaRepositoryJSON :=
  if j.encryptionAlgorithm = aes256GcmEncryption then
    some { j with encryptedFormatBytes := S.encrypt nonce (S.config.encode format) key j.uniqueID }
  else none

def serializeBlobCfgBytes (j : KopiaRepositoryJSON) (r : BlobStorageConfiguration)
    (key nonce : Str) : Option Str :=
  if j.encryptionAlgorithm = none_ then some (S.blobCfg.encode r)
  else if j.encryptionAlgorithm = aes256GcmEncryption then
    some (S.encrypt nonce (S.blobCfg.encode r) key j.uniqueID)
  else none

def deserializeBlobCfgBytes (j : KopiaRepositoryJSON) (b key : Str) :
    Option BlobStorageConfiguration :=
  if j.encryptionAlgorithm = none_ then S.blobCfg.decode b
  else if j.encryptionAlgorithm = aes256GcmEncryption then
    (S.decrypt b key j.uniqueID).bind S.blobCfg.decode
  else none

def refresh (st : Storage) (password : Str) : Except FormatErr (Manager ρ) :=
  match st .repository with
  | none => .error .readFormat
  | some b =>
    match S.json.decode b with
    | none => .error .parse
    | some j =>
      if maxChecksummedFormatBytesLength < b.length + formatBlobChecksumSize then .error .checksum
      else match S.deriveKey password j.uniqueID j.keyDerivationAlgorithm with
        | none => .error .deriveKey
        | some key =>
          match decryptRepositoryConfig S j key with
          | none => .error .errInvalidPassword
          | some repoConfig =>
            -- a repository without the second blob has the zero configuration
            match match st .blobCfg with
              | none => some ⟨[], 0⟩
              | some b2 => deserializeBlobCfgBytes S j b2 key with
            | none => .error .blobCfg
            | some blobCfgBlob =>
              if S.provides repoConfig then .ok ⟨key, j, repoConfig, blobCfgBlob⟩
              else .error .provider

def changePassword (m : Manager ρ) (newPassword nonce nonce' : Str) :
    Except FormatErr (List (BlobID × Str)) :=
  if !S.enablePasswordChange m.repoConfig then .error .unsupported
  else match S.deriveKey newPassword m.j.uniqueID m.j.keyDerivationAlgorithm with
    | none => .error .deriveKey
    | some key =>
      match encryptRepositoryConfig S m.j m.repoConfig key nonce with
      | none => .error .encrypt
      | some j =>
        match serializeBlobCfgBytes S j m.blobCfgBlob key nonce' with
        | none => .error .encrypt
        | some b => .ok [(.blobCfg, b), (.repository, S.json.encode j)]

def put (st : Storage) (w : BlobID × Str) : Storage := Function.update st w.1 (some w.2)

/-- The storage when the process stops, or a write fails, after some of the writes. -/
def stopped (st : Storage) (writes : List (BlobID × Str)) (done : ℕ) : Storage :=
  (writes.take done).foldl put st

def opens (st : Storage) (password : Str) : Bool := (refresh S st password).isOk

end Warphold.Format
