import Warphold.Fleet.Reseal
import Warphold.Proofs.Rotation

/-!
# What resealing keeps

Row by row, a reseal that succeeds gives every sealed value a new one that opens to the same
plaintext under the new key, and leaves the rest.
-/

namespace Warphold.Fleet.Reseal

open Option List Strings Hex Subset

variable {c : Crypto} {old new : Key}

section Rows

def ColumnKept (c : Crypto) (old new : Key) : Option Str → Option Str → Prop
  | none, v' => v' = none
  | some v, v' => if v = [] then v' = some [] else ∃ w plain, v' = some w ∧
      c.openSealed old v = some plain ∧ c.openSealed new w = some plain

structure BlobKept (c : Crypto) (old new : Key) (row row' : BlobRow) : Prop where
  id : row'.id = row.id
  rest : row'.rest = row.rest
  sealedValue : ColumnKept c old new (some row.sealedValue) (some row'.sealedValue)

structure TargetKept (c : Crypto) (old new : Key) (row row' : TargetRow) : Prop where
  id : row'.id = row.id
  rest : row'.rest = row.rest
  admin : ColumnKept c old new row.sealedAdminKey row'.sealedAdminKey
  mirror : ColumnKept c old new row.sealedMirrorKey row'.sealedMirrorKey

def SettingKept (c : Crypto) (old new : Key) (row row' : Str × Str) : Prop :=
  row'.1 = row.1 ∧
    if Strings.hasPrefix row.1 sealedSettingPrefix then
      (Hex.decodeString row.2 = some [] ∧ row'.2 = row.2) ∨
      ∃ raw raw' plain, Hex.decodeString row.2 = some raw ∧ Hex.decodeString row'.2 = some raw' ∧
        c.openSealed old raw = some plain ∧ c.openSealed new raw' = some plain
    else row'.2 = row.2

def TargetOk (row : TargetRow) : Prop :=
  (absent row.sealedAdminKey && absent row.sealedMirrorKey) = true ∨
    (row.sealedAdminKey ≠ some [] ∧ row.sealedMirrorKey ≠ some [])

def SettingOk (row : Str × Str) : Prop :=
  sealedSetting row.1 = true → Strings.hasPrefix row.1 sealedSettingPrefix = true ∨
    Hex.decodeString row.2 = some []

variable {ns ns' : List Str} {v : Option Str}

lemma resealValue_spec {v w : Str} (h : resealValue c old new v ns = some (w, ns')) :
    (v = [] ∧ w = [] ∧ ns' = ns) ∨ (v ≠ [] ∧ ∃ plain nonce, ns = nonce :: ns' ∧
      c.openSealed old v = some plain ∧ w = c.sealPlain new nonce plain) := by
  unfold resealValue at h
  split_ifs at h with hv
  · cases h
    exact .inl ⟨hv, rfl, rfl⟩
  · split at h
    · next plain nonce rest hopen =>
      cases h
      exact .inr ⟨hv, plain, nonce, rfl, hopen, rfl⟩
    · cases h

lemma resealValue_opened {v w : Str}
    (h : resealValue c old new v ns = some (w, ns')) (hv : v ≠ []) :
    (c.openSealed old v).isSome := by
  rcases resealValue_spec h with ⟨hnil, -, -⟩ | ⟨-, plain, nonce, -, hopen, -⟩
  · exact absurd hnil hv
  · rw [hopen]
    rfl

lemma resealBlob_kept (hc : c.Lawful) {row row' : BlobRow}
    (h : resealBlob c old new row ns = some (row', ns')) :
    BlobKept c old new row row' ∧ ns' ⊆ ns := by
  unfold resealBlob at h
  split_ifs at h with hv
  · cases h
    exact ⟨⟨rfl, rfl, by rw [ColumnKept, if_pos hv, hv]⟩, refl _⟩
  · obtain ⟨⟨w, ns₁⟩, hw, h⟩ := bind_eq_some_iff.1 h
    cases h
    rcases resealValue_spec hw with ⟨hnil, -, -⟩ | ⟨-, plain, nonce, rfl, hopen, rfl⟩
    · exact absurd hnil hv
    · refine ⟨⟨rfl, rfl, ?_⟩, subset_cons_self _ _⟩
      rw [ColumnKept, if_neg hv]
      exact ⟨_, plain, rfl, hopen, hc _ _ _⟩

lemma nullBlob_kept (hc : c.Lawful) (hbox : ∀ k nonce plain, c.sealPlain k nonce plain ≠ [])
    {w : Str}
    (h : resealValue c old new (v.getD []) ns = some (w, ns')) :
    (ColumnKept c old new v (nullBlob w) ↔ v ≠ some []) ∧ ns' ⊆ ns := by
  rcases resealValue_spec h with ⟨hnil, rfl, rfl⟩ | ⟨hv, plain, nonce, rfl, hopen, rfl⟩
  · refine ⟨?_, refl _⟩
    cases v with
    | none => simp [ColumnKept, nullBlob]
    | some s =>
      obtain rfl : s = [] := hnil
      simp [ColumnKept, nullBlob]
  · refine ⟨?_, subset_cons_self _ _⟩
    cases v with
    | none => exact absurd rfl hv
    | some s =>
      have hs : s ≠ [] := hv
      refine iff_of_true ?_ (fun heq => hs (some.inj heq))
      rw [ColumnKept, if_neg hs, nullBlob, if_neg (hbox _ _ _)]
      exact ⟨_, plain, rfl, hopen, hc _ _ _⟩

lemma columnKept_absent (h : absent v = true) : ColumnKept c old new v v := by
  cases v with
  | none => rfl
  | some s =>
    obtain rfl : s = [] := of_decide_eq_true h
    rw [ColumnKept, if_pos rfl]

def TargetRow.keys (row : TargetRow) : List Str :=
  row.sealedAdminKey.toList ++ row.sealedMirrorKey.toList

lemma eq_nil_of_absent (h : absent v = true) : ∀ s ∈ v.toList, s = [] := by
  intro s hs
  obtain rfl := mem_toList.1 hs
  exact of_decide_eq_true h

structure TargetSpec (c : Crypto) (old new : Key) (row row' : TargetRow) : Prop where
  kept_iff : TargetKept c old new row row' ↔ TargetOk row
  opens : ∀ s ∈ row.keys, s ≠ [] → (c.openSealed old s).isSome

lemma resealTarget_spec (hc : c.Lawful) (hbox : ∀ k nonce plain, c.sealPlain k nonce plain ≠ [])
    {row row' : TargetRow}
    (h : resealTarget c old new row ns = some (row', ns')) :
    TargetSpec c old new row row' ∧ ns' ⊆ ns := by
  unfold resealTarget at h
  split_ifs at h with habs
  · cases h
    obtain ⟨habs₁, habs₂⟩ := Bool.and_eq_true_iff.1 habs
    refine ⟨⟨iff_of_true ⟨rfl, rfl, columnKept_absent habs₁, columnKept_absent habs₂⟩ (.inl habs),
      fun s hs hne => ?_⟩, refl _⟩
    rcases mem_append.1 hs with hs | hs
    · exact absurd (eq_nil_of_absent habs₁ s hs) hne
    · exact absurd (eq_nil_of_absent habs₂ s hs) hne
  · obtain ⟨⟨a, ns₁⟩, ha, h⟩ := bind_eq_some_iff.1 h
    obtain ⟨⟨m, ns₂⟩, hm, h⟩ := bind_eq_some_iff.1 h
    cases h
    obtain ⟨hadmin, hsub₁⟩ := nullBlob_kept hc hbox ha
    obtain ⟨hmirror, hsub₂⟩ := nullBlob_kept hc hbox hm
    refine ⟨⟨⟨fun hk => .inr ⟨hadmin.1 hk.admin, hmirror.1 hk.mirror⟩, fun hok => ?_⟩,
      fun s hs hne => ?_⟩, Subset.trans hsub₂ hsub₁⟩
    · obtain ⟨hna, hnm⟩ := hok.resolve_left habs
      exact ⟨rfl, rfl, hadmin.2 hna, hmirror.2 hnm⟩
    · rcases mem_append.1 hs with hs | hs
      · rw [mem_toList.1 hs] at ha
        exact resealValue_opened ha hne
      · rw [mem_toList.1 hs] at hm
        exact resealValue_opened hm hne

lemma sealedSetting_of_marked {key : Str}
    (h : hasPrefix key sealedSettingPrefix = true) : sealedSetting key = true := by
  have hlower : toLower sealedSettingPrefix = sealedSettingPrefix := by decide
  rw [sealedSetting, hasPrefix_iff]
  have := (hasPrefix_iff.1 h).map lowerByte
  rw [toLower] at hlower ⊢
  rwa [hlower] at this

/-- A setting row keeps its key; its value is kept if the prefix is right, and only then unless the new
ciphertext happens to be the old value. -/
structure SettingSpec (c : Crypto) (old new : Key) (all : List Str) (row row' : Str × Str) : Prop where
  key : row'.1 = row.1
  kept : SettingOk row → SettingKept c old new row row'
  ok : (∀ nonce ∈ all, ∀ plain, row.2 ≠ Hex.encodeToString (c.sealPlain new nonce plain)) →
    SettingKept c old new row row' → SettingOk row
  opens : ∀ raw, sealedSetting row.1 = true → Hex.decodeString row.2 = some raw → raw ≠ [] →
    (c.openSealed old raw).isSome

lemma resealSettingRow_eq {row row' : Str × Str}
    (h : resealSettingRow c old new row ns = some (row', ns')) :
    (sealedSetting row.1 = false ∧ row' = row ∧ ns' = ns) ∨
    (decodeString row.2 = some [] ∧ row' = row ∧ ns' = ns) ∨
    (sealedSetting row.1 = true ∧ ∃ raw plain nonce, decodeString row.2 = some raw ∧ raw ≠ [] ∧
      ns = nonce :: ns' ∧ c.openSealed old raw = some plain ∧
      row' = (row.1, encodeToString (c.sealPlain new nonce plain))) := by
  unfold resealSettingRow at h
  split_ifs at h with hsealed
  · obtain ⟨⟨raw, ns₁⟩, hraw, h⟩ := bind_eq_some_iff.1 h
    obtain ⟨raw₀, hdec, hraw⟩ := bind_eq_some_iff.1 hraw
    cases hraw
    dsimp only at h
    split_ifs at h with hnil
    · cases h
      exact .inr (.inl ⟨hdec.trans (congrArg some hnil), rfl, rfl⟩)
    · obtain ⟨⟨w, ns₂⟩, hw, h⟩ := bind_eq_some_iff.1 h
      cases h
      obtain ⟨hv, plain, nonce, rfl, hopen, rfl⟩ :=
        (resealValue_spec hw).resolve_left fun hl => hnil hl.1
      exact .inr (.inr ⟨hsealed, raw, plain, nonce, hdec, hnil, rfl, hopen, rfl⟩)
  · cases h
    exact .inl ⟨Bool.eq_false_iff.2 hsealed, rfl, rfl⟩

lemma settingKept_self {row : Str × Str}
    (h : sealedSetting row.1 = false ∨ decodeString row.2 = some []) :
    SettingKept c old new row row := by
  refine ⟨rfl, ?_⟩
  split_ifs with hp
  · rcases h with hf | hd
    · rw [sealedSetting_of_marked hp] at hf
      cases hf
    · exact .inl ⟨hd, rfl⟩
  · rfl

lemma resealSetting_spec (hc : c.Lawful) {all : List Str} {row row' : Str × Str} (hall : ns ⊆ all)
    (h : resealSettingRow c old new row ns = some (row', ns')) :
    SettingSpec c old new all row row' ∧ ns' ⊆ ns := by
  rcases resealSettingRow_eq h with ⟨hf, rfl, rfl⟩ | ⟨hd, rfl, rfl⟩ |
    ⟨hsealed, raw, plain, nonce, hdec, hnil, rfl, hopen, rfl⟩
  · refine ⟨⟨rfl, fun _ => settingKept_self (.inl hf), fun _ _ hs => ?_, fun _ hs => ?_⟩,
      refl _⟩
    all_goals
      rw [hf] at hs
      cases hs
  · refine ⟨⟨rfl, fun _ => settingKept_self (.inr hd), fun _ _ _ => .inr hd, fun raw _ hr hne => ?_⟩,
      refl _⟩
    rw [hd] at hr
    exact absurd (some.inj hr).symm hne
  · refine ⟨⟨rfl, fun hok => ⟨rfl, ?_⟩, fun hfresh hk hs => ?_, fun raw' _ hr _ => ?_⟩,
      subset_cons_self _ _⟩
    · split_ifs with hp
      · exact .inr ⟨raw, _, plain, hdec, decodeString_encodeToString _, hopen, hc _ _ _⟩
      · have hd := (hok hsealed).resolve_left hp
        rw [hdec] at hd
        exact absurd (some.inj hd) hnil
    · by_contra hno
      have hp : ¬ hasPrefix row.1 sealedSettingPrefix = true := fun hp => hno (.inl hp)
      have hsame := hk.2
      rw [if_neg hp] at hsame
      exact hfresh nonce (hall mem_cons_self) plain hsame.symm
    · rw [hdec] at hr
      cases hr
      rw [hopen]
      rfl

end Rows

section Transaction

lemma mapM_forall₂ {α β : Type} {f : α → Draw β} {R : α → β → Prop} {all : List Str}
    (hf : ∀ a ns b ns', ns ⊆ all → f a ns = some (b, ns') → R a b ∧ ns' ⊆ ns) :
    ∀ (l : List α) {ns : List Str} {bs : List β} {ns' : List Str}, ns ⊆ all →
      (l.mapM f : Draw (List β)) ns = some (bs, ns') → Forall₂ R l bs ∧ ns' ⊆ ns
  | [], ns, bs, ns', _, h => by
    cases h
    exact ⟨.nil, refl _⟩
  | a :: l, ns, bs, ns', hall, h => by
    rw [mapM_cons] at h
    obtain ⟨⟨b, ns₁⟩, h₁, h⟩ := bind_eq_some_iff.1 h
    obtain ⟨⟨bs', ns₂⟩, h₂, h⟩ := bind_eq_some_iff.1 h
    cases h
    obtain ⟨hr, hsub₁⟩ := hf _ _ _ _ hall h₁
    obtain ⟨hrest, hsub₂⟩ := mapM_forall₂ hf l (Subset.trans hsub₁ hall) h₂
    exact ⟨.cons hr hrest, Subset.trans hsub₂ hsub₁⟩

def Db.otherSettings (db : Db) : List (Str × Str) :=
  db.settings.filter fun row => row.1 ≠ sealSaltSetting

/-- Every sealed value of the store that is not empty, sealed settings decoded. -/
def Db.sealedValues (db : Db) : List Str :=
  (db.agents.map (·.sealedValue) ++ db.targets.flatMap TargetRow.keys
    ++ db.deviceKeys.map (·.sealedValue)
    ++ (db.settings.filter (Strings.hasPrefix ·.1 sealedSettingPrefix)).filterMap fun row =>
        Hex.decodeString row.2).filter (· ≠ [])

/-- `db'` is `db` with every sealed value sealed under the new key, and the new salt. -/
structure Resealed (c : Crypto) (old new : Key) (newSalt : Str) (db db' : Db) : Prop where
  agents : List.Forall₂ (BlobKept c old new) db.agents db'.agents
  targets : List.Forall₂ (TargetKept c old new) db.targets db'.targets
  deviceKeys : List.Forall₂ (BlobKept c old new) db.deviceKeys db'.deviceKeys
  settings : List.Forall₂ (SettingKept c old new) db.otherSettings db'.otherSettings
  salt : setting db'.settings sealSaltSetting = some newSalt
  others : db'.others = db.others

/-- Neither of the two exceptions is in the store. -/
def Db.Ordinary (db : Db) : Prop :=
  (∀ row ∈ db.targets, TargetOk row) ∧ ∀ row ∈ db.settings, SettingOk row

/-- No setting is the ciphertext that one of the nonces gives. -/
def Db.Fresh (c : Crypto) (new : Key) (nonces : List Str) (db : Db) : Prop :=
  ∀ row ∈ db.settings, ∀ nonce ∈ nonces, ∀ plain,
    row.2 ≠ Hex.encodeToString (c.sealPlain new nonce plain)

/-- What the statements of a transaction do to the rows of every table. -/
structure WorkSpec (c : Crypto) (old new : Key) (newSalt : Str) (nonces : List Str) (db db' : Db) :
    Prop where
  agents : List.Forall₂ (BlobKept c old new) db.agents db'.agents
  targets : List.Forall₂ (TargetSpec c old new) db.targets db'.targets
  deviceKeys : List.Forall₂ (BlobKept c old new) db.deviceKeys db'.deviceKeys
  settings : ∃ rows, List.Forall₂ (SettingSpec c old new nonces) db.settings rows ∧
    db'.settings = setSetting rows sealSaltSetting newSalt
  others : db'.others = db.others

variable {newSalt : Str} {nonces : List Str} {db db' : Db}

lemma work_spec (hc : c.Lawful) (hbox : ∀ k nonce plain, c.sealPlain k nonce plain ≠ [])
    {counts : ResealCounts} {ns' : List Str}
    (h : (work c old new newSalt db).run nonces = some ((db', counts), ns')) :
    WorkSpec c old new newSalt nonces db db' := by
  obtain ⟨⟨agents, ns₁⟩, h₁, h⟩ := bind_eq_some_iff.1 h
  obtain ⟨⟨targets, ns₂⟩, h₂, h⟩ := bind_eq_some_iff.1 h
  obtain ⟨⟨deviceKeys, ns₃⟩, h₃, h⟩ := bind_eq_some_iff.1 h
  obtain ⟨⟨settings, ns₄⟩, h₄, h⟩ := bind_eq_some_iff.1 h
  cases h
  have hsub₀ : nonces ⊆ nonces := refl _
  obtain ⟨hagents, hsub⟩ := mapM_forall₂ (f := resealBlob c old new)
    (fun _ _ _ _ _ h => resealBlob_kept hc h) _ hsub₀ h₁
  have hsub₁ := Subset.trans hsub hsub₀
  obtain ⟨htargets, hsub⟩ := mapM_forall₂ (f := resealTarget c old new)
    (fun _ _ _ _ _ h => resealTarget_spec hc hbox h) _ hsub₁ h₂
  have hsub₂ := Subset.trans hsub hsub₁
  obtain ⟨hkeys, hsub⟩ := mapM_forall₂ (f := resealBlob c old new)
    (fun _ _ _ _ _ h => resealBlob_kept hc h) _ hsub₂ h₃
  have hsub₃ := Subset.trans hsub hsub₂
  obtain ⟨hsettings, -⟩ := mapM_forall₂ (f := resealSettingRow c old new)
    (fun _ _ _ _ hs h => resealSetting_spec hc hs h) _ hsub₃ h₄
  exact ⟨hagents, htargets, hkeys, ⟨settings, hsettings, rfl⟩, rfl⟩

lemma forall₂_of_rel {α β : Type} {R P : α → β → Prop} {l : List α} {l' : List β}
    (h : Forall₂ R l l') (hR : ∀ a ∈ l, ∀ b, R a b → P a b) : Forall₂ P l l' := by
  induction h with
  | nil => exact .nil
  | cons hab _ ih =>
    exact .cons (hR _ mem_cons_self _ hab) (ih fun a ha => hR a (mem_cons_of_mem _ ha))

lemma forall_of_rel {α β : Type} {R P : α → β → Prop} {Q : α → Prop} {l : List α} {l' : List β}
    (h : Forall₂ R l l') (hp : Forall₂ P l l')
    (hR : ∀ a ∈ l, ∀ b, R a b → P a b → Q a) : ∀ a ∈ l, Q a := by
  induction h with
  | nil => simp
  | cons hab _ ih =>
    cases hp with
    | cons hpab hprest =>
      intro a ha
      rcases mem_cons.1 ha with rfl | ha
      · exact hR _ mem_cons_self _ hab hpab
      · exact ih hprest (fun a ha => hR a (mem_cons_of_mem _ ha)) a ha

lemma sealSalt_ok {row : Str × Str} (h : row.1 = sealSaltSetting) : SettingOk row := by
  intro hs
  rw [h] at hs
  exact absurd hs (by decide)

namespace WorkSpec

variable (w : WorkSpec c old new newSalt nonces db db')
include w

lemma otherSettings :
    Forall₂ (SettingSpec c old new nonces) db.otherSettings db'.otherSettings := by
  obtain ⟨rows, hrows, heq⟩ := w.settings
  have hfilter : db'.otherSettings = rows.filter fun row => row.1 ≠ sealSaltSetting := by
    simp [Db.otherSettings, heq, setSetting]
  rw [hfilter]
  exact rel_filter (fun {row row'} hr => by simp [hr.key]) hrows

lemma resealed (hok : db.Ordinary) : Resealed c old new newSalt db db' where
  __ := w
  targets := forall₂_of_rel w.targets fun row hrow _ hr => hr.kept_iff.2 (hok.1 row hrow)
  settings := forall₂_of_rel w.otherSettings fun row hrow _ hr =>
    hr.kept (hok.2 row (mem_filter.1 hrow).1)
  salt := by
    obtain ⟨rows, -, heq⟩ := w.settings
    simp [heq, setting, setSetting]

lemma ordinary (hfresh : db.Fresh c new nonces) (h : Resealed c old new newSalt db db') :
    db.Ordinary := by
  refine ⟨forall_of_rel w.targets h.targets fun row _ _ hr hk => hr.kept_iff.1 hk, ?_⟩
  intro row hrow
  by_cases hsalt : row.1 = sealSaltSetting
  · exact sealSalt_ok hsalt
  · exact forall_of_rel w.otherSettings h.settings
      (fun r hr _ hs hk => hs.ok (hfresh r (mem_filter.1 hr).1) hk) row
      (mem_filter.2 ⟨hrow, decide_eq_true hsalt⟩)

lemma opens : ∀ v ∈ db.sealedValues, (c.openSealed old v).isSome := by
  intro v hv
  simp only [Db.sealedValues, mem_filter, mem_append, decide_eq_true_eq] at hv
  have hblob : ∀ {rows rows'}, Forall₂ (BlobKept c old new) rows rows' →
      v ∈ rows.map (·.sealedValue) → v ≠ [] → (c.openSealed old v).isSome := by
    intro rows rows' hrows hmem hne
    obtain ⟨row, hrow, rfl⟩ := mem_map.1 hmem
    refine forall_of_rel (Q := fun r => r.sealedValue ≠ [] → (c.openSealed old _).isSome)
      hrows hrows (fun r _ _ hk _ hr => ?_) row hrow hne
    have hcol := hk.sealedValue
    rw [ColumnKept, if_neg hr] at hcol
    obtain ⟨_, plain, -, hopen, -⟩ := hcol
    rw [hopen]
    rfl
  obtain ⟨((hv | hv) | hv) | hv, hne⟩ := hv
  · exact hblob w.agents hv hne
  · obtain ⟨row, hrow, hv⟩ := mem_flatMap.1 hv
    exact forall_of_rel w.targets w.targets
      (fun r _ _ hr _ => hr.opens) row hrow v hv hne
  · exact hblob w.deviceKeys hv hne
  · obtain ⟨row, hrow, hraw⟩ := mem_filterMap.1 hv
    obtain ⟨hrow, hp⟩ := mem_filter.1 hrow
    obtain ⟨rows, hrows, -⟩ := w.settings
    exact forall_of_rel hrows hrows (fun r _ _ hr _ => hr.opens) row hrow v
      (sealedSetting_of_marked hp) hraw hne

end WorkSpec

lemma work_counts {nonces₁ nonces₂ ns₁ ns₂ : List Str} {db₁ db₂ : Db} {counts₁ counts₂ : ResealCounts}
    (h₁ : (work c old new newSalt db).run nonces₁ = some ((db₁, counts₁), ns₁))
    (h₂ : (work c old new newSalt db).run nonces₂ = some ((db₂, counts₂), ns₂)) :
    counts₁ = counts₂ := by
  iterate 4 obtain ⟨_, -, h₁⟩ := bind_eq_some_iff.1 h₁
  iterate 4 obtain ⟨_, -, h₂⟩ := bind_eq_some_iff.1 h₂
  cases h₁
  cases h₂
  rfl

lemma reseal_some {dryRun : Bool} {fault : Option TxFault} {counts : ResealCounts}
    (h : reseal c old new newSalt dryRun fault nonces db = (db', some counts)) :
    ∃ db₁ ns', (work c old new newSalt db).run nonces = some ((db₁, counts), ns') ∧
      db' = if dryRun then db else db₁ := by
  rcases hw : (work c old new newSalt db).run nonces with _ | ⟨⟨db₁, counts₁⟩, ns'⟩
  · simp only [reseal, hw, ite_self] at h
    cases h
  · simp only [reseal, hw] at h
    split_ifs at h with hsalt hst hdry hcommit
    all_goals cases h
    · exact ⟨_, ns', rfl, (if_pos hdry).symm⟩
    · exact ⟨_, ns', rfl, (if_neg hdry).symm⟩

lemma reseal_none {dryRun : Bool} {fault : Option TxFault}
    (h : (reseal c old new newSalt dryRun fault nonces db).2 = none) :
    (reseal c old new newSalt dryRun fault nonces db).1 = db := by
  rcases hw : (work c old new newSalt db).run nonces with _ | ⟨⟨db₁, counts₁⟩, ns'⟩
  all_goals
    simp only [reseal, hw] at h ⊢
    split_ifs at h ⊢
    all_goals rfl

def sampleDb (key : Str) : Db where
  agents := [⟨str "a", (sampleKey 0).bytes ++ str "s", str "r"⟩]
  targets := []
  deviceKeys := []
  settings := [(key, Hex.encodeToString ((sampleKey 0).bytes ++ str "p"))]
  others := []

lemma Crypto.sample_ne_nil (k : Key) (nonce plain : Str) :
    Crypto.sample.sealPlain k nonce plain ≠ [] := by
  intro h
  have hlen := congrArg length (append_eq_nil_iff.1 h).1
  rw [k.size] at hlen
  cases hlen

end Transaction

end Warphold.Fleet.Reseal
