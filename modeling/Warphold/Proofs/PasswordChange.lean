import Warphold.Format.Password

/-!
# Stopping in the middle of a password change

The first write puts the storage configuration under the new key while the repository configuration
is still under the old one. Each password then opens one of the two blobs, and opening needs both.
-/

namespace Warphold.Format

open List Option Function

variable {ρ : Type} {S : Suite ρ} {st : Storage} {password : Str} {m : Manager ρ}

lemma aes_ne_none : aes256GcmEncryption ≠ none_ := by decide

lemma refresh_ok (h : refresh S st password = .ok m) : ∃ b, st .repository = some b
    ∧ S.json.decode b = some m.j
    ∧ S.deriveKey password m.j.uniqueID m.j.keyDerivationAlgorithm = some m.formatEncryptionKey
    ∧ m.j.encryptionAlgorithm = aes256GcmEncryption
    ∧ decryptRepositoryConfig S m.j m.formatEncryptionKey = some m.repoConfig
    ∧ S.provides m.repoConfig = true
    ∧ b.length + formatBlobChecksumSize ≤ maxChecksummedFormatBytesLength := by
  unfold refresh at h
  split at h
  · cases h
  next b hb =>
  split at h
  · cases h
  next j hj =>
  split_ifs at h with hsize
  split at h
  · cases h
  next key hkey =>
  split at h
  · cases h
  next rc hrc =>
  split at h
  · cases h
  next bc hbc =>
  split_ifs at h with hprov
  cases h
  have halg : j.encryptionAlgorithm = aes256GcmEncryption := by
    unfold decryptRepositoryConfig at hrc
    split_ifs at hrc with halg
    exact halg
  exact ⟨b, hb, hj, hkey, halg, hrc, hprov, not_lt.1 hsize⟩

lemma opens_iff {b : Str} {j : KopiaRepositoryJSON} {key : Str} (hb : st .repository = some b)
    (hj : S.json.decode b = some j)
    (hkey : S.deriveKey password j.uniqueID j.keyDerivationAlgorithm = some key) :
    opens S st password = true ↔ b.length + formatBlobChecksumSize ≤ maxChecksummedFormatBytesLength
      ∧ (∃ rc, decryptRepositoryConfig S j key = some rc ∧ S.provides rc = true)
      ∧ ∀ b2, st .blobCfg = some b2 → (deserializeBlobCfgBytes S j b2 key).isSome := by
  unfold opens refresh
  simp only [hb, hj, hkey]
  split_ifs with hsize
  · simp only [Except.isOk, Except.toBool, Bool.false_eq_true, false_iff, not_and]
    exact fun hle => absurd hsize (not_lt.2 hle)
  · simp only [not_lt.1 hsize, true_and]
    cases hrc : decryptRepositoryConfig S j key with
    | none => simp [Except.isOk, Except.toBool]
    | some rc =>
      cases hcfg : st .blobCfg with
      | none => by_cases hp : S.provides rc = true <;> simp [hp, Except.isOk, Except.toBool]
      | some b2 =>
        cases hd : deserializeBlobCfgBytes S j b2 key <;>
          by_cases hp : S.provides rc = true <;> simp [hd, hp, Except.isOk, Except.toBool]

/-- The size of the blob with the configuration once it is written again. -/
def Manager.formatSize (S : Suite ρ) (m : Manager ρ) : ℕ :=
  (S.json.encode { m.j with
    encryptedFormatBytes := List.replicate ((S.config.encode m.repoConfig).length + 28) 0 }).length

lemma put_of_ne {w : BlobID × Str} {id : BlobID} (h : id ≠ w.1) : put st w id = st id :=
  update_of_ne h ..

section Change

variable {newPassword nonce nonce' : Str} {writes : List (BlobID × Str)}

lemma changePassword_ok (h : changePassword S m newPassword nonce nonce' = .ok writes)
    (halg : m.j.encryptionAlgorithm = aes256GcmEncryption) :
    ∃ key, S.deriveKey newPassword m.j.uniqueID m.j.keyDerivationAlgorithm = some key
      ∧ writes = [
        (.blobCfg, S.encrypt nonce' (S.blobCfg.encode m.blobCfgBlob) key m.j.uniqueID),
        (.repository, S.json.encode { m.j with
          encryptedFormatBytes :=
            S.encrypt nonce (S.config.encode m.repoConfig) key m.j.uniqueID })] := by
  unfold changePassword encryptRepositoryConfig serializeBlobCfgBytes at h
  split_ifs at h with henable
  split at h
  · cases h
  next key hkey =>
  simp only [if_pos halg] at h
  rw [if_neg (halg ▸ aes_ne_none), Except.ok.injEq] at h
  exact ⟨key, hkey, h.symm⟩

variable {j : KopiaRepositoryJSON}

lemma deserialize_encrypt {nonce : Str} {r : BlobStorageConfiguration} {key : Str}
    (halg : j.encryptionAlgorithm = aes256GcmEncryption) :
    (deserializeBlobCfgBytes S j (S.encrypt nonce (S.blobCfg.encode r) key j.uniqueID) key).isSome
      = true := by
  unfold deserializeBlobCfgBytes
  rw [halg, if_neg aes_ne_none, if_pos rfl, S.decrypt_encrypt, bind_some,
    S.blobCfg.decode_encode, isSome_some]

lemma deserialize_other {r : BlobStorageConfiguration} {key key' : Str}
    (halg : j.encryptionAlgorithm = aes256GcmEncryption) (hsep : S.Separates key' key) :
    deserializeBlobCfgBytes S j (S.encrypt nonce (S.blobCfg.encode r) key j.uniqueID) key'
      = none := by
  unfold deserializeBlobCfgBytes
  rw [halg, if_neg aes_ne_none, if_pos rfl]
  rcases hsep (S.encrypt nonce (S.blobCfg.encode r) key j.uniqueID) j.uniqueID with hnone | hnone
  · rw [hnone, bind_none]
  · rw [S.decrypt_encrypt] at hnone
    cases hnone

lemma decryptConfig_other {rc : ρ} {key key' : Str}
    (h : decryptRepositoryConfig S j key = some rc) (hsep : S.Separates key key') :
    decryptRepositoryConfig S j key' = none := by
  unfold decryptRepositoryConfig at h ⊢
  split_ifs at h ⊢ with halg
  rcases hsep j.encryptedFormatBytes j.uniqueID with hnone | hnone
  · rw [hnone] at h
    cases h
  · rw [hnone, bind_none]

variable {key : Str} (hopen : refresh S st password = .ok m)
  (hkey : S.deriveKey newPassword m.j.uniqueID m.j.keyDerivationAlgorithm = some key)
include hopen hkey

lemma opens_between {b : Str} (hcfg : b = S.encrypt nonce' (S.blobCfg.encode m.blobCfgBlob) key
      m.j.uniqueID) (hsep : key ≠ m.formatEncryptionKey → S.Separates m.formatEncryptionKey key) :
    (opens S (put st (.blobCfg, b)) password = true
        ∨ opens S (put st (.blobCfg, b)) newPassword = true)
      ↔ key = m.formatEncryptionKey := by
  obtain ⟨b₀, hb₀, hj, hold, halg, hrc, hprov, hsize⟩ := refresh_ok hopen
  have hrepo : put st (.blobCfg, b) .repository = some b₀ := by
    rw [put_of_ne (by simp), hb₀]
  have hblob : put st (.blobCfg, b) .blobCfg = some b := update_self ..
  rw [opens_iff hrepo hj hold, opens_iff hrepo hj hkey, hblob]
  constructor
  · intro h
    by_contra hne
    rcases h with ⟨-, -, h⟩ | ⟨-, ⟨rc, h, -⟩, -⟩
    · have := h b rfl
      rw [hcfg, deserialize_other halg (hsep hne)] at this
      cases this
    · rw [decryptConfig_other hrc (hsep hne)] at h
      cases h
  · rintro rfl
    refine .inl ⟨hsize, ⟨m.repoConfig, hrc, hprov⟩, fun b2 hb2 => ?_⟩
    cases hb2
    rw [hcfg]
    exact deserialize_encrypt halg

lemma opens_after {b : Str} (hcfg : b = S.encrypt nonce' (S.blobCfg.encode m.blobCfgBlob) key
      m.j.uniqueID) (hj : j = { m.j with
        encryptedFormatBytes := S.encrypt nonce (S.config.encode m.repoConfig) key m.j.uniqueID }) :
    (opens S (put (put st (.blobCfg, b)) (.repository, S.json.encode j)) password = true
        ∨ opens S (put (put st (.blobCfg, b)) (.repository, S.json.encode j)) newPassword = true)
      ↔ m.formatSize S + formatBlobChecksumSize ≤ maxChecksummedFormatBytesLength := by
  obtain ⟨-, -, -, hold, halg, -, hprov, -⟩ := refresh_ok hopen
  have hrepo : put (put st (.blobCfg, b)) (.repository, S.json.encode j) .repository
      = some (S.json.encode j) := update_self ..
  have hblob : put (put st (.blobCfg, b)) (.repository, S.json.encode j) .blobCfg = some b := by
    rw [put_of_ne (by simp)]
    exact update_self ..
  have hlen : (S.json.encode j).length = m.formatSize S := by
    rw [hj]
    exact S.length_json m.j _ _ (by rw [S.length_encrypt, length_replicate])
  have hjold : S.deriveKey password j.uniqueID j.keyDerivationAlgorithm
      = some m.formatEncryptionKey := by rw [hj]; exact hold
  have hjkey : S.deriveKey newPassword j.uniqueID j.keyDerivationAlgorithm = some key := by
    rw [hj]
    exact hkey
  rw [opens_iff hrepo (S.json.decode_encode j) hjold, opens_iff hrepo (S.json.decode_encode j) hjkey,
    hblob, hlen]
  constructor
  · rintro (⟨h, -⟩ | ⟨h, -⟩) <;> exact h
  · intro hsize
    refine .inr ⟨hsize, ⟨m.repoConfig, ?_, hprov⟩, fun b2 hb2 => ?_⟩
    · subst hj
      unfold decryptRepositoryConfig
      rw [if_pos halg, S.decrypt_encrypt, bind_some, S.config.decode_encode]
    · cases hb2
      have hid : j.uniqueID = m.j.uniqueID := by rw [hj]
      rw [hcfg, ← hid]
      exact deserialize_encrypt (by rw [hj]; exact halg)

/-- After a password change that stopped, the repository opens unless exactly the first of its two
writes was made; with both, the rewritten blob must not be too long. -/
theorem opens_stopped_iff (hchange : changePassword S m newPassword nonce nonce' = .ok writes)
    (hsep : key ≠ m.formatEncryptionKey → S.Separates m.formatEncryptionKey key) (done : ℕ) :
    (opens S (stopped st writes done) password = true
        ∨ opens S (stopped st writes done) newPassword = true)
      ↔ done = 0 ∨ (done = 1 ∧ key = m.formatEncryptionKey)
        ∨ (2 ≤ done ∧ m.formatSize S + formatBlobChecksumSize ≤ maxChecksummedFormatBytesLength) := by
  obtain ⟨-, -, -, -, halg, -⟩ := refresh_ok hopen
  obtain ⟨key', hkey', rfl⟩ := changePassword_ok hchange halg
  obtain rfl : key' = key := Option.some.inj (hkey'.symm.trans hkey)
  match done with
  | 0 =>
    have hzero : opens S st password = true := by
      rw [opens, hopen]
      rfl
    simp [stopped, hzero]
  | 1 => simpa [stopped] using opens_between hopen hkey rfl hsep
  | n + 2 => simpa [stopped] using opens_after hopen hkey rfl rfl

end Change

section Sample

def Sample.encode (fields : List Str) : Str :=
  fields.flatMap fun f => f.flatMap (fun c => [1, c]) ++ [0]

def Sample.decode : Str → Str → List Str
  | _, [] => []
  | cur, 0 :: rest => cur :: decode [] rest
  | cur, _ :: c :: rest => decode (cur ++ [c]) rest
  | _, [_] => []

lemma Sample.decode_field (rest : Str) : ∀ (f cur : Str),
    Sample.decode cur (f.flatMap (fun c => [1, c]) ++ 0 :: rest) = (cur ++ f) :: decode [] rest
  | [], cur => by simp [Sample.decode]
  | c :: f, cur => by simp [Sample.decode, decode_field rest f]

lemma Sample.decode_encode : ∀ fields : List Str, Sample.decode [] (Sample.encode fields) = fields
  | [] => rfl
  | f :: fields => by
    rw [Sample.encode, flatMap_cons, append_assoc]
    refine (decode_field _ f []).trans ?_
    rw [nil_append]
    exact congrArg (f :: ·) (decode_encode fields)

lemma Sample.length_json (j : KopiaRepositoryJSON) (x y : Str) (h : x.length = y.length) :
    (encode [j.tool, j.buildVersion, j.buildInfo, j.uniqueID, j.keyDerivationAlgorithm,
      j.encryptionAlgorithm, x]).length = (encode [j.tool, j.buildVersion, j.buildInfo, j.uniqueID,
      j.keyDerivationAlgorithm, j.encryptionAlgorithm, y]).length := by
  simp [encode, h]

def Sample.suite : Suite Bool where
  json :=
    { encode := fun j => encode [j.tool, j.buildVersion, j.buildInfo, j.uniqueID,
        j.keyDerivationAlgorithm, j.encryptionAlgorithm, j.encryptedFormatBytes]
      decode := fun s => match decode [] s with
        | [a, b, c, d, e, f, g] => some ⟨a, b, c, d, e, f, g⟩
        | _ => none
      decode_encode := fun j => by simp only [decode_encode] }
  config :=
    { encode := fun b => [if b then 1 else 0]
      decode := fun s => if s = [1] then some true else if s = [0] then some false else none
      decode_encode := by decide }
  blobCfg :=
    { encode := fun r => encode [r.retentionMode, if r.retentionPeriod < 0 then [1] else [],
        List.replicate r.retentionPeriod.natAbs 0]
      decode := fun s => match decode [] s with
        | [mode, sign, period] =>
          some ⟨mode, if sign = [] then period.length else -(period.length : ℤ)⟩
        | _ => none
      decode_encode := fun r => by
        rcases r with ⟨mode, period⟩
        simp only [decode_encode, List.length_replicate, Option.some.injEq,
          BlobStorageConfiguration.mk.injEq, true_and]
        by_cases hneg : period < 0
        · simp only [if_pos hneg, List.cons_ne_self, ↓reduceIte]
          omega
        · simp only [if_neg hneg, ↓reduceIte]
          omega }
  deriveKey := fun password _ _ => some password
  encrypt := fun _ data key _ => (key ++ List.replicate 28 0).take 28 ++ data
  decrypt := fun data key _ =>
    if data.take 28 = (key ++ List.replicate 28 0).take 28 then some (data.drop 28) else none
  decrypt_encrypt := fun _ data key _ => by
    have : ((key ++ List.replicate 28 (0 : UInt8)).take 28).length = 28 := by simp
    rw [if_pos (List.take_left' this), List.drop_left' this]
  length_encrypt := fun _ data key _ => by
    simp
    omega
  length_json := length_json
  enablePasswordChange := id
  provides := fun _ => true

def Sample.old : Str := [7]

def Sample.new : Str := [8]

def Sample.j : KopiaRepositoryJSON where
  tool := []
  buildVersion := []
  buildInfo := []
  uniqueID := [3]
  keyDerivationAlgorithm := []
  encryptionAlgorithm := aes256GcmEncryption
  encryptedFormatBytes := suite.encrypt [] [1] old [3]

def Sample.manager : Manager Bool := ⟨old, j, true, ⟨[], 0⟩⟩

def Sample.storage : Storage
  | .repository => some (suite.json.encode j)
  | .blobCfg => some (suite.encrypt [] (suite.blobCfg.encode ⟨[], 0⟩) old [3])

def Sample.writes : List (BlobID × Str) :=
  [(.blobCfg, suite.encrypt [] (suite.blobCfg.encode ⟨[], 0⟩) new [3]),
    (.repository, suite.json.encode { j with encryptedFormatBytes := suite.encrypt [] [1] new [3] })]

lemma Sample.separates : suite.Separates old new := by
  intro data id
  simp only [suite]
  by_cases h : data.take 28 = (old ++ replicate 28 0).take 28
  · right
    rw [if_neg]
    rw [h]
    decide
  · left
    rw [if_neg h]

lemma Sample.opened : refresh suite storage old = .ok manager := by decide

lemma Sample.changed : changePassword suite manager new [] [] = .ok writes := by decide

/-- With the first write made, neither password opens the repository. -/
theorem stopped_between_writes :
    refresh Sample.suite Sample.storage Sample.old = .ok Sample.manager
      ∧ changePassword Sample.suite Sample.manager Sample.new [] [] = .ok Sample.writes
      ∧ opens Sample.suite (stopped Sample.storage Sample.writes 1) Sample.old = false
      ∧ opens Sample.suite (stopped Sample.storage Sample.writes 1) Sample.new = false :=
  ⟨Sample.opened, Sample.changed, by decide, by decide +kernel⟩

theorem opens_stopped_after_writes :
    opens Sample.suite (stopped Sample.storage Sample.writes 2) Sample.old = true
      ∨ opens Sample.suite (stopped Sample.storage Sample.writes 2) Sample.new = true :=
  (opens_stopped_iff Sample.opened rfl Sample.changed (fun _ => Sample.separates) 2).2
    (.inr (.inr ⟨le_rfl, by decide⟩))

end Sample

end Warphold.Format
