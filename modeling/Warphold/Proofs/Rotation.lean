import Warphold.Fleet.Rotate

/-!
# Rotation and recovery keep a key that opens the store

The live key opens the store, or the pending file carries the stored salt and its key does
(`Server.Inv`). A restart reads exactly that off the salts.
-/

namespace Warphold.Fleet

open List Option KeyFile

variable {c : Crypto}

section Reseal
variable {old new : Key}

def Opens (c : Crypto) (k : Key) (db : SealedDb) : Prop :=
  ∀ v ∈ db.sealedValues, (c.openSealed k v).isSome

instance (k : Key) (db : SealedDb) : Decidable (Opens c k db) :=
  inferInstanceAs (Decidable (∀ v ∈ db.sealedValues, _))

lemma mapM_forall {α β : Type} {f : α → Draw β} {Q : β → Prop}
    (hf : ∀ a ns b ns', f a ns = some (b, ns') → Q b) :
    ∀ (l : List α) {ns : List Str} {bs : List β} {ns' : List Str},
      (l.mapM f : Draw (List β)) ns = some (bs, ns') → ∀ b ∈ bs, Q b
  | [], ns, bs, ns', h => by
    cases h
    simp
  | a :: l, ns, bs, ns', h => by
    rw [mapM_cons] at h
    obtain ⟨⟨b, ns₁⟩, h₁, h⟩ := bind_eq_some_iff.1 h
    obtain ⟨⟨bs', ns₂⟩, h₂, h⟩ := bind_eq_some_iff.1 h
    cases h
    intro x hx
    rcases mem_cons.1 hx with rfl | hx
    · exact hf _ _ _ _ h₁
    · exact mapM_forall hf l h₂ x hx

variable {ns ns' : List Str}

lemma resealValue_opens (hc : c.Lawful) {sealed v : Str}
    (h : resealValue c old new sealed ns = some (v, ns')) :
    v = [] ∨ (c.openSealed new v).isSome := by
  unfold resealValue at h
  split_ifs at h
  · cases h
    exact .inl rfl
  · split at h
    · cases h
      exact .inr (by rw [hc]; rfl)
    · cases h

lemma resealBlobs_opens (hc : c.Lawful) {rows rows' : List (Str × Str)}
    (h : resealBlobs c old new rows ns = some (rows', ns')) :
    ∀ row ∈ rows', row.2 = [] ∨ (c.openSealed new row.2).isSome := by
  refine mapM_forall (fun row ns row' ns' h => ?_) rows h
  obtain ⟨⟨v, ns₁⟩, h₁, h⟩ := bind_eq_some_iff.1 h
  cases h
  exact resealValue_opens hc h₁

lemma resealTargets_opens (hc : c.Lawful) {rows rows' : List (ℤ × Str × Str)}
    (h : resealTargets c old new rows ns = some (rows', ns')) :
    ∀ row ∈ rows', (row.2.1 = [] ∨ (c.openSealed new row.2.1).isSome)
      ∧ (row.2.2 = [] ∨ (c.openSealed new row.2.2).isSome) := by
  refine mapM_forall (fun row ns row' ns' h => ?_) rows h
  obtain ⟨⟨v, ns₁⟩, h₁, h⟩ := bind_eq_some_iff.1 h
  obtain ⟨⟨w, ns₂⟩, h₂, h⟩ := bind_eq_some_iff.1 h
  cases h
  exact ⟨resealValue_opens hc h₁, resealValue_opens hc h₂⟩

lemma resealSettings_opens (hc : c.Lawful) {rows rows' : List (Str × Str)}
    (h : resealSettings c old new rows ns = some (rows', ns')) :
    ∀ row ∈ rows', sealedSetting row.1 = true → ∀ raw, Hex.decodeString row.2 = some raw →
      raw = [] ∨ (c.openSealed new raw).isSome := by
  refine mapM_forall (fun row ns row' ns' h => ?_) rows h
  intro hsealed raw hraw
  unfold resealSetting at h
  split_ifs at h with hrow
  · obtain ⟨⟨raw₀, ns₀⟩, h₀, h⟩ := bind_eq_some_iff.1 h
    obtain ⟨⟨v, ns₁⟩, h₁, h⟩ := bind_eq_some_iff.1 h
    cases h
    rw [Hex.decodeString_encodeToString] at hraw
    cases hraw
    exact resealValue_opens hc h₁
  · cases h
    exact absurd hsealed hrow

lemma reseal_opens (hc : c.Lawful) {newSalt : Str} {db db' : SealedDb} {counts : ResealCounts}
    (h : reseal c old new newSalt db ns = some ((db', counts), ns')) :
    db'.salt = newSalt ∧ Opens c new db' := by
  obtain ⟨⟨agents, ns₁⟩, h₁, h⟩ := bind_eq_some_iff.1 h
  obtain ⟨⟨targets, ns₂⟩, h₂, h⟩ := bind_eq_some_iff.1 h
  obtain ⟨⟨deviceKeys, ns₃⟩, h₃, h⟩ := bind_eq_some_iff.1 h
  obtain ⟨⟨settings, ns₄⟩, h₄, h⟩ := bind_eq_some_iff.1 h
  cases h
  refine ⟨by simp [SealedDb.salt, setting, setSetting], ?_⟩
  intro v hv
  simp only [SealedDb.sealedValues, mem_filter, mem_append, decide_eq_true_eq] at hv
  obtain ⟨((hv | hv) | hv) | hv, hne⟩ := hv
  · obtain ⟨row, hrow, rfl⟩ := mem_map.1 hv
    exact (resealBlobs_opens hc h₁ row hrow).resolve_left hne
  · obtain ⟨row, hrow, hv⟩ := mem_flatMap.1 hv
    have hrow' := resealTargets_opens hc h₂ row hrow
    simp only [mem_cons, not_mem_nil, or_false] at hv
    rcases hv with rfl | rfl
    · exact hrow'.1.resolve_left hne
    · exact hrow'.2.resolve_left hne
  · obtain ⟨row, hrow, rfl⟩ := mem_map.1 hv
    exact (resealBlobs_opens hc h₃ row hrow).resolve_left hne
  · obtain ⟨row, hrow, hraw⟩ := mem_filterMap.1 hv
    obtain ⟨hrow, hsealed⟩ := mem_filter.1 hrow
    rcases mem_cons.1 hrow with rfl | hrow
    · exact absurd hsealed (show ¬ sealedSetting sealSaltSetting = true by decide)
    · exact (resealSettings_opens hc h₄ row (mem_filter.1 hrow).1 hsealed v hraw).resolve_left
        hne

end Reseal

namespace Server

/-- The live key file opens the store. -/
def LiveOpens (c : Crypto) (s : Server) : Prop := ∃ k ∈ KeyFile.readKey s.live, Opens c k s.db

def PendingMatches (s : Server) : Prop :=
  (s.pending.bind KeyFile.readPending).map (fun ks => Hex.encodeToString ks.2) = some s.db.salt

variable {s s' : Server} {r : Rotation} {i : ℕ}

lemma pendingMatches_iff : PendingMatches s ↔ ∃ b k salt, s.pending = some b
    ∧ readPending b = some (k, salt) ∧ s.db.salt = Hex.encodeToString salt := by
  simp only [PendingMatches, map_eq_some_iff, bind_eq_some_iff, Prod.exists]
  constructor
  · rintro ⟨k, salt, ⟨b, hb, hk⟩, hs⟩
    exact ⟨b, k, salt, hb, hk, hs.symm⟩
  · rintro ⟨b, k, salt, hb, hk, hs⟩
    exact ⟨k, salt, ⟨b, hb, hk⟩, hs.symm⟩

/-- A key on disk, in the live file or in the pending one, opens every sealed value. -/
def DiskOpens (c : Crypto) (s : Server) : Prop :=
  LiveOpens c s ∨ ∃ ks ∈ s.pending.bind KeyFile.readPending, Opens c ks.1 s.db

/-- A server that runs on the key of its live file, with no rotation under way. -/
def Fresh (c : Crypto) (s : Server) : Prop :=
  LiveOpens c s ∧ s.mem = KeyFile.readKey s.live ∧ s.pending = none ∧ (∀ i, s.rot i = none)
    ∧ s.lock = none

def InFlight (s : Server) (i : ℕ) (r : Rotation) : Prop :=
  r.newSalt ≠ [] ∧ match r.phase with
    | .derived => True
    | .locked _ => s.lock = some i
    | .written _ => s.lock = some i
      ∧ (r.dryRun = false → s.pending = some (KeyFile.pendingContent r.newKey r.newSalt))
    | .committed => s.lock = some i
      ∧ s.pending = some (KeyFile.pendingContent r.newKey r.newSalt)
      ∧ s.db.salt = Hex.encodeToString r.newSalt

structure Inv (c : Crypto) (s : Server) : Prop where
  covered : LiveOpens c s ∨ PendingMatches s
  matching : ∀ b k salt, s.pending = some b → KeyFile.readPending b = some (k, salt) →
    s.db.salt = Hex.encodeToString salt → Opens c k s.db
  inFlight : ∀ i r, s.rot i = some r → s.mem.isSome ∧ InFlight s i r

/-- The condition on a step: a pending file is written only where there is none, or one whose salt
is not the stored one, and the salt it is tagged with is not the stored one either. -/
def Safe (s : Server) : Action → Prop
  | .writePending i true => ¬ PendingMatches s
    ∧ (s.rot i).map (fun r => Hex.encodeToString r.newSalt) ≠ some s.db.salt
  | _ => True

lemma Inv.diskOpens (h : Inv c s) : DiskOpens c s := by
  rcases h.covered with h' | h'
  · exact .inl h'
  · obtain ⟨b, k, salt, hb, hk, hs⟩ := pendingMatches_iff.1 h'
    refine .inr ⟨(k, salt), ?_, h.matching b k salt hb hk hs⟩
    rw [hb]
    exact hk

lemma Fresh.inv (h : Fresh c s) : Inv c s := by
  obtain ⟨hlive, -, hpending, hrot, -⟩ := h
  refine ⟨.inl hlive, fun b k salt hb => ?_, fun i r hr => ?_⟩
  · rw [hpending] at hb
    cases hb
  · rw [hrot i] at hr
    cases hr

lemma InFlight.of_lock_ne {j : ℕ} (h : InFlight s j r)
    (hl : s.lock ≠ some j) : InFlight s' j r := by
  unfold InFlight at h ⊢
  refine ⟨h.1, ?_⟩
  split at h
  · trivial
  · exact absurd h.2 hl
  · exact absurd h.2.1 hl
  · exact absurd h.2.1 hl

lemma InFlight.congr {j : ℕ} (h : InFlight s j r)
    (hl : s'.lock = s.lock) (hp : s'.pending = s.pending) (hd : s'.db = s.db) :
    InFlight s' j r := by
  unfold InFlight at h ⊢
  rw [hl, hp, hd]
  exact h

/-- A step that leaves the files and the store alone keeps the invariant, whatever it does to its
own rotation, if no other rotation relied on the lock it changed. -/
lemma Inv.of_files (h : Inv c s) (hl : s'.live = s.live)
    (hp : s'.pending = s.pending) (hd : s'.db = s.db)
    (hr : ∀ i r, s'.rot i = some r → s'.mem.isSome ∧ InFlight s' i r) : Inv c s' := by
  obtain ⟨hcov, hmatch, -⟩ := h
  refine ⟨?_, ?_, hr⟩
  · simpa only [LiveOpens, PendingMatches, hl, hp, hd] using hcov
  · simpa only [hp, hd] using hmatch

lemma inFlight_setRot {r' : Option Rotation} (h : Inv c s)
    (hrot : s'.rot = (s.setRot i r').rot) (hmem : s'.mem.isSome)
    (hother : ∀ j r, j ≠ i → InFlight s j r → InFlight s' j r)
    (hi : ∀ r, r' = some r → InFlight s' i r) :
    ∀ j r, s'.rot j = some r → s'.mem.isSome ∧ InFlight s' j r := by
  intro j r hr
  refine ⟨hmem, ?_⟩
  simp only [hrot, setRot, Function.update_apply] at hr
  split_ifs at hr with hj
  · exact hj ▸ hi r hr
  · exact hother j r hj (h.inFlight j r hr).2

lemma inFlight_of_held (hlock : s.lock = some i) {j : ℕ}
    (hj : j ≠ i) (h : InFlight s j r) : InFlight s' j r := by
  refine h.of_lock_ne ?_
  rw [hlock]
  exact fun he => hj (some.inj he).symm

lemma Inv.finish (h : Inv c s) (hmem : s.mem.isSome)
    (hlock : s.lock = some i) : Inv c (s.finish i) :=
  h.of_files rfl rfl rfl
    (inFlight_setRot h rfl hmem (fun _ _ hj hr => inFlight_of_held hlock hj hr) (by simp))

lemma inv_begin (h : Inv c s) {newSalt : Str} (hmem : s.mem.isSome) (hsalt : newSalt.length = 16)
    (current next : Str) (dryRun : Bool) : Inv c (s.begin c i current next newSalt dryRun) := by
  unfold begin
  split_ifs
  · exact h
  · split
    · exact h
    · split_ifs
      · exact h
      · refine h.of_files rfl rfl rfl
          (inFlight_setRot h rfl hmem (fun _ _ _ hr => hr.congr rfl rfl rfl) ?_)
        rintro r hr
        cases hr
        refine ⟨fun h0 : newSalt = [] => ?_, trivial⟩
        simp [h0] at hsalt

lemma inv_acquire (h : Inv c s) (hr : s.rot i = some r)
    (hlock : s.lock = none) (old : Key) : Inv c (s.acquire i r old) := by
  obtain ⟨hmem, hsalt, -⟩ := h.inFlight i r hr
  unfold acquire
  split_ifs
  · exact h.of_files rfl rfl rfl
      (inFlight_setRot h rfl hmem (fun _ _ _ hr => hr.congr rfl rfl rfl) (by simp))
  · refine h.of_files rfl rfl rfl
      (inFlight_setRot h rfl hmem (fun _ _ _ hr => hr.of_lock_ne (by simp [hlock])) ?_)
    intro r' hr'
    cases hr'
    exact ⟨hsalt, rfl⟩

lemma inv_writePending (h : Inv c s) {old : Key}
    (hr : s.rot i = some r) (hphase : r.phase = .locked old) {ok : Bool}
    (hsafe : Safe s (.writePending i ok)) : Inv c (s.writePending i r old ok) := by
  obtain ⟨hmem, hfl⟩ := h.inFlight i r hr
  unfold InFlight at hfl
  rw [hphase] at hfl
  obtain ⟨hsalt, hlock⟩ := hfl
  unfold writePending
  split_ifs with hdry hok
  · refine h.of_files rfl rfl rfl
      (inFlight_setRot h rfl hmem (fun _ _ hj hr => inFlight_of_held hlock hj hr) ?_)
    intro r' hr'
    cases hr'
    exact ⟨hsalt, hlock, fun hd => absurd hdry (by simpa using hd)⟩
  · subst hok
    obtain ⟨hpend, hfresh⟩ := hsafe
    refine ⟨.inl (h.covered.resolve_right hpend), ?_,
      inFlight_setRot h rfl hmem (fun _ _ hj hr => inFlight_of_held hlock hj hr) ?_⟩
    · intro b k salt hb hk hs
      cases hb
      rw [readPending_pendingContent _ hsalt] at hk
      cases hk
      exact absurd (by rw [hr]; exact congrArg some hs.symm) hfresh
    · intro r' hr'
      cases hr'
      exact ⟨hsalt, hlock, fun _ => rfl⟩
  · exact h.finish hmem hlock

lemma inv_of_committed {old : Key} {nonces ns' : List Str}
    {counts : ResealCounts} (hc : c.Lawful) (hsalt : r.newSalt ≠ [])
    (hreseal : reseal c old r.newKey (Hex.encodeToString r.newSalt) s.db nonces
      = some ((s'.db, counts), ns'))
    (hp : s'.pending = some (pendingContent r.newKey r.newSalt))
    (hr : ∀ i r, s'.rot i = some r → s'.mem.isSome ∧ InFlight s' i r) : Inv c s' := by
  obtain ⟨hdbsalt, hopens⟩ := reseal_opens hc hreseal
  have hread := readPending_pendingContent r.newKey hsalt
  refine ⟨.inr (pendingMatches_iff.2 ⟨_, _, _, hp, hread, hdbsalt⟩), ?_, hr⟩
  intro b k salt hb hk _
  rw [hp] at hb
  cases hb
  rw [hread] at hk
  cases hk
  exact hopens

lemma inv_commitReseal (hc : c.Lawful) (h : Inv c s)
    {old : Key} (hr : s.rot i = some r) (hphase : r.phase = .written old) (nonces : List Str)
    (commit : Commit) : Inv c (s.commitReseal c i r old nonces commit) := by
  obtain ⟨hmem, hfl⟩ := h.inFlight i r hr
  unfold InFlight at hfl
  rw [hphase] at hfl
  obtain ⟨hsalt, hlock, hpend⟩ := hfl
  unfold commitReseal
  split
  · exact h.finish hmem hlock
  · rename_i db counts ns' hreseal
    split_ifs with hdry
    · exact h.finish hmem hlock
    · have hp := hpend (by simpa using hdry)
      split
      · refine inv_of_committed hc hsalt hreseal hp
          (inFlight_setRot h rfl hmem (fun _ _ hj hr => inFlight_of_held hlock hj hr) ?_)
        intro r' hr'
        cases hr'
        exact ⟨hsalt, hlock, hp, (reseal_opens hc hreseal).1⟩
      · exact inv_of_committed hc hsalt hreseal hp
          (inFlight_setRot h rfl hmem (fun _ _ hj hr => inFlight_of_held hlock hj hr) (by simp))
      · exact h.finish hmem hlock

lemma inv_rename (h : Inv c s) (hr : s.rot i = some r)
    (hphase : r.phase = .committed) (ok : Bool) : Inv c (s.rename i r ok) := by
  obtain ⟨hmem, hfl⟩ := h.inFlight i r hr
  unfold InFlight at hfl
  rw [hphase] at hfl
  obtain ⟨hsalt, hlock, hp, hdb⟩ := hfl
  have hread := readPending_pendingContent r.newKey hsalt
  have hopens := h.matching _ _ _ hp hread hdb
  have hfin := h.finish hmem hlock
  unfold rename
  rw [hp]
  simp only []
  split_ifs
  · refine ⟨.inl ⟨r.newKey, readKey_of_readPending hread, hopens⟩, ?_, ?_⟩
    · intro b k salt hb
      cases hb
    · exact inFlight_setRot h rfl rfl (fun _ _ hj hr => inFlight_of_held hlock hj hr) (by simp)
  · exact hfin.of_files rfl rfl rfl fun j r' hr' =>
      ⟨rfl, (hfin.inFlight j r' hr').2.congr rfl rfl rfl⟩

lemma inv_crash (h : Inv c s) :
    Inv c { s with mem := none, rot := fun _ => none, lock := none } :=
  h.of_files rfl rfl rfl (by simp)

lemma recoverPendingKey_spec (h : Inv c s) (f : StartFaults) :
    (recoverPendingKey f s = (s.live, s.pending, false))
      ∨ ∃ live k, recoverPendingKey f s = (live, none, true) ∧ readKey live = some k
        ∧ Opens c k s.db := by
  unfold recoverPendingKey
  split
  · rename_i hp
    rcases h.covered with ⟨k, hk, hopens⟩ | hm
    · exact .inr ⟨s.live, k, rfl, hk, hopens⟩
    · simp [PendingMatches, hp] at hm
  · rename_i b hp
    split
    · exact .inl (by rw [hp])
    · rename_i k salt hread
      have hread' : readPending b = some (k, salt) := by
        split_ifs at hread
        exact hread
      split_ifs with h1 h2 h3 h4
      · exact .inl (by rw [hp])
      · exact .inl (by rw [hp])
      · exact .inr ⟨b, k, rfl, readKey_of_readPending hread',
          h.matching b k salt hp hread' h2⟩
      · exact .inl (by rw [hp])
      · rcases h.covered with ⟨k', hk', hopens⟩ | hm
        · exact .inr ⟨s.live, k', rfl, hk', hopens⟩
        · simp only [PendingMatches, hp, bind_some, hread', map_some,
            some.injEq] at hm
          exact absurd hm.symm h2

lemma inv_load (h : Inv c s) (hmem : s.mem = none) (f : StartFaults) :
    Inv c (s.load f) ∧ ((s.load f).mem.isSome → LiveOpens c (s.load f)) := by
  have hrot : ∀ i r, s.rot i ≠ some r := fun i r hr => by
    have := (h.inFlight i r hr).1
    rw [hmem] at this
    cases this
  unfold load
  rcases recoverPendingKey_spec h f with hrec | ⟨live, k, hrec, hk, hopens⟩ <;> rw [hrec]
  · exact ⟨h.of_files rfl rfl rfl fun i r hr => absurd hr (hrot i r), fun hm => by cases hm⟩
  · refine ⟨⟨.inl ⟨k, hk, hopens⟩, fun b k salt hb => ?_, fun i r hr => absurd hr (hrot i r)⟩,
      fun _ => ⟨k, hk, hopens⟩⟩
    cases hb

lemma inv_step (hc : c.Lawful) {a : Action} (h : Inv c s) (hsafe : Safe s a)
    (hs : step c s a = some s') : Inv c s' := by
  cases a <;> simp only [step] at hs
  case begin i current next newSalt dryRun =>
    split_ifs at hs with hg
    cases hs
    exact inv_begin h hg.1 hg.2.2 current next dryRun
  case acquire i =>
    split at hs
    · rename_i r old hr hmem
      split_ifs at hs with hg
      cases hs
      exact inv_acquire h hr hg.2 old
    · cases hs
  case writePending i ok =>
    split at hs
    · rename_i r hr
      split at hs
      · cases hs
        exact inv_writePending h hr ‹_› hsafe
      · cases hs
    · cases hs
  case reseal i nonces commit =>
    split at hs
    · rename_i r hr
      split at hs
      · cases hs
        exact inv_commitReseal hc h hr ‹_› nonces commit
      · cases hs
    · cases hs
  case rename i ok =>
    split at hs
    · rename_i r hr
      split_ifs at hs with hphase
      cases hs
      exact inv_rename h hr hphase ok
    · cases hs
  case crash =>
    split_ifs at hs
    cases hs
    exact inv_crash h
  case restart f =>
    split_ifs at hs with hmem
    cases hs
    exact (inv_load h hmem f).1

/-- Every run of rotations, crashes and restarts whose pending files are written safely keeps a key
on disk that opens every sealed value, and a start that succeeds runs on it. -/
theorem reach_diskOpens (hc : c.Lawful) {s : Server}
    (h : Runs.Reach (step c) Safe (Fresh c) s) :
    DiskOpens c s ∧ ∀ f s', step c s (.restart f) = some s' →
      DiskOpens c s' ∧ (s'.mem.isSome → LiveOpens c s') := by
  have hinv : Inv c s := h.invariant (fun _ h0 => h0.inv) fun _ _ _ h hok hs => inv_step hc h hok hs
  refine ⟨hinv.diskOpens, fun f s' hs => ⟨(inv_step hc hinv (by trivial) hs).diskOpens, fun hm => ?_⟩⟩
  simp only [step] at hs
  split_ifs at hs with hmem
  cases hs
  exact (inv_load hinv hmem f).2 hm

instance (s : Server) : Decidable (PendingMatches s) := inferInstanceAs (Decidable (_ = _))

instance (s : Server) : Decidable (LiveOpens c s) :=
  inferInstanceAs (Decidable (∃ k ∈ KeyFile.readKey s.live, _))

instance (s : Server) : Decidable (DiskOpens c s) :=
  inferInstanceAs (Decidable (_ ∨ ∃ ks ∈ s.pending.bind KeyFile.readPending, _))

instance (s : Server) : ∀ a, Decidable (Safe s a)
  | .writePending _ true => inferInstanceAs (Decidable (_ ∧ _))
  | .writePending _ false => isTrue trivial
  | .begin .. => isTrue trivial
  | .acquire _ => isTrue trivial
  | .reseal .. => isTrue trivial
  | .rename .. => isTrue trivial
  | .crash => isTrue trivial
  | .restart _ => isTrue trivial

end Server

lemma length_sample (p salt : Str) : ((p ++ salt ++ List.replicate 32 0).take 32).length = 32 := by
  simp
  omega

/-- A stand-in for the sealing package: a key is its passphrase and salt, and stands before what it
seals. -/
def Crypto.sample : Crypto where
  derive := fun p salt => ⟨(p ++ salt ++ List.replicate 32 0).take 32, length_sample p salt⟩
  sealPlain := fun k _ plain => k.bytes ++ plain
  openSealed := fun k v => if Strings.hasPrefix v k.bytes then some (v.drop 32) else none

lemma Crypto.sample_lawful : Crypto.sample.Lawful := by
  intro k nonce plain
  have hk := k.size
  simp [Crypto.sample, Strings.hasPrefix_iff, ← hk]

def sampleSalt (n : UInt8) : Str := List.replicate 16 n

def sampleKey (n : UInt8) : Key := Crypto.sample.derive (List.replicate 12 n) (sampleSalt n)

def Server.sample : Server where
  live := KeyFile.content (sampleKey 0)
  pending := none
  db := ⟨[(str "a", (sampleKey 0).bytes ++ str "secret")], [], [],
    [(sealSaltSetting, Hex.encodeToString (sampleSalt 0))]⟩
  mem := some (sampleKey 0)
  rot := fun _ => none
  lock := none

lemma Server.sample_fresh : Server.sample.Fresh Crypto.sample :=
  ⟨by decide +kernel, by decide +kernel, rfl, fun _ => rfl, rfl⟩

def sampleRotation (i : ℕ) (n : UInt8) : List Action :=
  [.begin i (List.replicate 12 n) (List.replicate 12 (n + 1)) (sampleSalt (n + 1)) false,
    .acquire i, .writePending i true]

/-- A rotation commits but its rename fails; the next one writes its own pending file over the only
copy of the key the store is sealed with, and crashes. The restart drops that file, since its salt
is not the stored one, and comes up on a key that opens nothing. -/
theorem rotation_loses_key : ∃ c : Crypto, c.Lawful ∧ ∃ s s', Runs.Reach (Server.step c) Runs.Free
    (Server.Fresh c) s ∧ Server.step c s (.restart ⟨false, false, false, false, false⟩) = some s'
      ∧ s'.mem.isSome ∧ ¬ Server.DiskOpens c s' := by
  refine ⟨.sample, Crypto.sample_lawful, ?_⟩
  have hrun : ∃ s ∈ Runs.run (Server.step .sample) Runs.Free .sample
      (sampleRotation 0 0 ++ [.reseal 0 [[]] .ok, .rename 0 false] ++ sampleRotation 1 1 ++ [.crash]),
      ∃ s' ∈ Server.step .sample s (.restart ⟨false, false, false, false, false⟩),
        s'.mem.isSome ∧ ¬ Server.DiskOpens .sample s' := by decide +kernel
  obtain ⟨s, hs, s', hs', hmem, hlost⟩ := hrun
  exact ⟨s, s', Runs.reach_of_run _ (.init Server.sample_fresh) hs, hs', hmem, hlost⟩

/-- A rotation that crashes between its commit and its rename is finished by the next start. -/
theorem reach_diskOpens_sample :
    ∃ s ∈ Runs.run (Server.step .sample) Server.Safe .sample
      (sampleRotation 0 0 ++ [.reseal 0 [[]] .ok, .crash]),
      ∃ s' ∈ Server.step .sample s (.restart ⟨false, false, false, false, false⟩),
        s'.mem.isSome ∧ Server.LiveOpens .sample s' := by
  have hrun : ∃ s ∈ Runs.run (Server.step .sample) Server.Safe .sample
      (sampleRotation 0 0 ++ [.reseal 0 [[]] .ok, .crash]),
      ∃ s' ∈ Server.step .sample s (.restart ⟨false, false, false, false, false⟩),
        s'.mem.isSome := by decide +kernel
  obtain ⟨s, hs, s', hs', hmem⟩ := hrun
  have hreach := Runs.reach_of_run _ (.init Server.sample_fresh) hs
  exact ⟨s, hs, s', hs', hmem,
    ((Server.reach_diskOpens Crypto.sample_lawful hreach).2 _ s' hs').2 hmem⟩

end Warphold.Fleet
