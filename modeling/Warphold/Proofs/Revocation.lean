import Warphold.Fleet.Keys
import Warphold.Lib.Lists

/-!
# What a lookup can still find after a revocation

A cached key was read from the table after the last invalidation of its agent: the lookup that wrote
it saw one generation throughout, so no invalidation fell between its read and its write.
-/

namespace Warphold.Fleet

open Option List KeyService Gateway

namespace KeyService

def Undisabled (keys : List DeviceKey) (id : Str) (t : ℕ) : Prop :=
  ∀ k ∈ keys, k.accessKeyID = id → ∀ d ∈ k.disabledAt, t ≤ d

/-- The entry is one of a key in the table. -/
def Sound (keys : List DeviceKey) (id : Str) (e : KeyEntry) : Prop :=
  ∃ k ∈ keys, k.accessKeyID = id ∧ k.agentID = e.agentID ∧ k.readOnly = e.readOnly

def DisabledBy (keys : List DeviceKey) (agentID : Str) (d : ℕ) : Prop :=
  ∀ k ∈ keys, k.agentID = agentID → k.createdAt < d → ∃ d' ∈ k.disabledAt, d' ≤ d

def Stamped (st : Store) (agentID : Str) : Prop :=
  ∃ a, st.agents.find? (fun a => a.id = agentID) = some a ∧ a.revoked = true

def Known (st : Store) (agentID : Str) : Prop :=
  (st.agents.find? fun a => a.id = agentID).isSome

structure Evolves (t : ℕ) (k k' : DeviceKey) : Prop where
  id : k'.accessKeyID = k.accessKeyID
  agent : k'.agentID = k.agentID
  readOnly : k'.readOnly = k.readOnly
  created : k'.createdAt = k.createdAt
  disabled : k'.disabledAt = k.disabledAt ∨ k.disabledAt = none ∧ k'.disabledAt = some t

structure Grows (t : ℕ) (keys keys' : List DeviceKey) : Prop where
  kept : ∀ k ∈ keys, ∃ k' ∈ keys', Evolves t k k'
  origin : ∀ k' ∈ keys', (∃ k ∈ keys, Evolves t k k')
    ∨ (k'.createdAt = t ∧ k'.readOnly = true ∧ k'.disabledAt = none)
  ids : (keys.map (·.accessKeyID)).Nodup → (keys'.map (·.accessKeyID)).Nodup

section Grows

variable {t : ℕ} {keys keys' : List DeviceKey}

lemma Evolves.refl (k : DeviceKey) : Evolves t k k := ⟨rfl, rfl, rfl, rfl, .inl rfl⟩

lemma Grows.refl : Grows t keys keys :=
  ⟨fun k hk => ⟨k, hk, .refl k⟩, fun k hk => .inl ⟨k, hk, .refl k⟩, id⟩

lemma Grows.sound (h : Grows t keys keys') {id : Str} {e : KeyEntry} (hs : Sound keys id e) :
    Sound keys' id e := by
  obtain ⟨k, hk, hid, hagent, hro⟩ := hs
  obtain ⟨k', hk', hev⟩ := h.kept k hk
  exact ⟨k', hk', hev.id.trans hid, hev.agent.trans hagent, hev.readOnly.trans hro⟩

lemma Grows.undisabled (h : Grows t keys keys') {id : Str} {t₀ : ℕ} (ht : t₀ ≤ t)
    (hu : Undisabled keys id t₀) : Undisabled keys' id t₀ := by
  intro k' hk' hid d hd
  rcases h.origin k' hk' with ⟨k, hk, hev⟩ | ⟨-, -, hnone⟩
  · rcases hev.disabled with heq | ⟨-, hsome⟩
    · exact hu k hk (hev.id ▸ hid) d (heq ▸ hd)
    · rw [hsome, mem_some_iff] at hd
      omega
  · simp [hnone] at hd

lemma Grows.disabledBy (h : Grows t keys keys') {agentID : Str} {d : ℕ} (hd : d ≤ t)
    (hb : DisabledBy keys agentID d) : DisabledBy keys' agentID d := by
  intro k' hk' hagent hcreated
  rcases h.origin k' hk' with ⟨k, hk, hev⟩ | ⟨hnew, -, -⟩
  · obtain ⟨d', hd', hle⟩ := hb k hk (hev.agent ▸ hagent) (hev.created ▸ hcreated)
    rcases hev.disabled with heq | ⟨hnone, -⟩
    · exact ⟨d', heq ▸ hd', hle⟩
    · simp [hnone] at hd'
  · omega

lemma evolves_disable (p : DeviceKey → Bool) (k : DeviceKey) : Evolves t k
    (if p k && k.disabledAt.isNone then { k with disabledAt := some t } else k) := by
  split_ifs with h
  · simp only [Bool.and_eq_true, isNone_iff_eq_none] at h
    exact ⟨rfl, rfl, rfl, rfl, .inr ⟨h.2, rfl⟩⟩
  · exact .refl k

lemma grows_disableWhere (s : KeyService) (p : DeviceKey → Bool) :
    Grows s.clock s.keys (s.disableWhere p).keys := by
  refine ⟨fun k hk => ⟨_, mem_map_of_mem hk, evolves_disable p k⟩, fun k' hk' => ?_, ?_⟩
  · obtain ⟨k, hk, rfl⟩ := mem_map.1 hk'
    exact .inl ⟨k, hk, evolves_disable p k⟩
  · intro hnd
    have hids : (s.disableWhere p).keys.map (·.accessKeyID) = s.keys.map (·.accessKeyID) := by
      simp only [disableWhere, List.map_map]
      exact List.map_congr_left fun k _ => (evolves_disable (t := s.clock) p k).id
    rwa [hids]

lemma grows_createReadOnlyKey {s s' : KeyService} {id agentID sealedSecret pre : Str}
    (h : s.createReadOnlyKey id agentID sealedSecret pre = some s') :
    Grows s.clock s.keys s'.keys := by
  unfold createReadOnlyKey at h
  split_ifs at h with hany
  cases h
  refine ⟨fun k hk => ⟨k, mem_cons_of_mem _ hk, .refl k⟩, fun k' hk' => ?_, fun hnd => ?_⟩
  · rcases mem_cons.1 hk' with rfl | hk'
    · exact .inr ⟨rfl, rfl, rfl⟩
    · exact .inl ⟨k', hk', .refl k'⟩
  · simp only [List.map_cons, List.nodup_cons, List.mem_map, not_exists, not_and]
    refine ⟨fun k hk hid => hany ?_, hnd⟩
    simp only [List.any_eq_true]
    exact ⟨k, hk, by simpa using hid⟩

lemma disabledBy_disableDeviceKeysForAgent (s : KeyService) (agentID : Str)
    (hb : ∀ k ∈ s.keys, ∀ d ∈ k.disabledAt, d < s.clock) :
    DisabledBy (s.disableDeviceKeysForAgent agentID).keys agentID s.clock := by
  intro k' hk' hagent _
  obtain ⟨k, hk, rfl⟩ := mem_map.1 hk'
  have hk_agent : k.agentID = agentID :=
    (evolves_disable (fun k => decide (k.agentID = agentID)) k).agent.symm.trans hagent
  cases hd : k.disabledAt with
  | none => exact ⟨s.clock, by simp [hk_agent], le_rfl⟩
  | some d => exact ⟨d, by simp [hd], (hb k hk d hd).le⟩

end Grows

def QueryOk (s : KeyService) (q : Query) : Prop :=
  q.startedAt < s.clock ∧ q.gen ≤ s.gen
    ∧ (q.gen = s.gen → ∀ v ∈ s.invalidations, v.at_ < q.startedAt)

def LookingOk (s : KeyService) : Looking → Prop
  | .missed q => QueryOk s q
  | .loaded q e =>
    QueryOk s q ∧ Sound s.keys q.accessKeyID e ∧ Undisabled s.keys q.accessKeyID q.startedAt
  | .failed _ => True

def CacheOk (s : KeyService) (id : Str) (e : KeyEntry) : Prop :=
  Sound s.keys id e
    ∧ ∀ v ∈ s.invalidations, v.Covers e.agentID → Undisabled s.keys id v.at_

def FoundOk (s : KeyService) (f : Found) : Prop :=
  f.startedAt < s.clock ∧ Sound s.keys f.accessKeyID f.entry
    ∧ ∀ v ∈ s.invalidations, v.Covers f.entry.agentID → v.at_ < f.startedAt →
      Undisabled s.keys f.accessKeyID v.at_

def DisabledAt (s : KeyService) (agentID : Str) (d : ℕ) : Prop :=
  0 < d ∧ d < s.clock ∧ DisabledBy s.keys agentID d ∧ Known s.store agentID

def InvalidatedBetween (s : KeyService) (agentID : Str) (d t : ℕ) : Prop :=
  ∃ v ∈ s.invalidations, v.Covers agentID ∧ d < v.at_ ∧ v.at_ < t

def RevokingOk (s : KeyService) : Revoking → Prop
  | .disabled a d => DisabledAt s a d
  | .invalidated a d => DisabledAt s a d ∧ InvalidatedBetween s a d s.clock
  | .stamped a d => DisabledAt s a d ∧ InvalidatedBetween s a d s.clock ∧ Stamped s.store a

def RevocationOk (s : KeyService) (r : Revocation) : Prop :=
  DisabledAt s r.agentID r.disabledAt ∧ InvalidatedBetween s r.agentID r.disabledAt r.returnedAt
    ∧ Stamped s.store r.agentID

def KeyOk (s : KeyService) (k : DeviceKey) : Prop :=
  k.createdAt < s.clock ∧ (k.createdAt ≠ 0 → k.readOnly = true) ∧ ∀ d ∈ k.disabledAt, d < s.clock

structure Inv (s : KeyService) : Prop where
  clock : 0 < s.clock
  ids : (s.keys.map (·.accessKeyID)).Nodup
  keys : ∀ k ∈ s.keys, KeyOk s k
  invalidations : ∀ v ∈ s.invalidations, v.at_ < s.clock
  cache : ∀ id e, (id, e) ∈ s.cache → CacheOk s id e
  looking : ∀ i l, s.looking i = some l → LookingOk s l
  found : ∀ f ∈ s.found, FoundOk s f
  revoking : ∀ i r, s.revoking i = some r → RevokingOk s r
  revocations : ∀ r ∈ s.revocations, RevocationOk s r

/-- What every step does to the parts of the state that facts about requests rest on. -/
structure Moves (s s' : KeyService) : Prop where
  clock : s'.clock = s.clock + 1
  keys : Grows s.clock s.keys s'.keys
  gen : s.gen ≤ s'.gen
  same : s'.gen = s.gen → s'.invalidations = s.invalidations
  kept : ∀ v ∈ s.invalidations, v ∈ s'.invalidations
  origin : ∀ v ∈ s'.invalidations, v ∈ s.invalidations ∨ v.at_ = s.clock
  known : ∀ a, Known s.store a → Known s'.store a
  stamped : ∀ a, Stamped s.store a → Stamped s'.store a

section Moves

variable {s s' : KeyService} (m : Moves s s')
include m

lemma Moves.queryOk {q : Query} (h : QueryOk s q) : QueryOk s' q := by
  obtain ⟨hstart, hgen, hlast⟩ := h
  refine ⟨by have := m.clock; omega, hgen.trans m.gen, fun heq => ?_⟩
  have hs : s'.gen = s.gen := le_antisymm (heq ▸ hgen) m.gen
  rw [m.same hs]
  exact hlast (heq.trans hs)

lemma Moves.lookingOk {l : Looking} (h : LookingOk s l) : LookingOk s' l := by
  cases l with
  | missed q => exact m.queryOk h
  | loaded q e =>
    obtain ⟨hq, hs, hu⟩ := h
    exact ⟨m.queryOk hq, m.keys.sound hs, m.keys.undisabled hq.1.le hu⟩
  | failed q => trivial

lemma Moves.foundOk (hv : ∀ v ∈ s.invalidations, v.at_ < s.clock) {f : Found}
    (h : FoundOk s f) : FoundOk s' f := by
  obtain ⟨hstart, hs, hall⟩ := h
  have hclock := m.clock
  refine ⟨by omega, m.keys.sound hs, fun v hv' hcov hlt => ?_⟩
  rcases m.origin v hv' with hold | hnew
  · exact m.keys.undisabled (hv v hold).le (hall v hold hcov hlt)
  · omega

lemma Moves.cacheOk (hv : ∀ v ∈ s.invalidations, v.at_ < s.clock) {id : Str} {e : KeyEntry}
    (hnew : ∀ v ∈ s'.invalidations, v ∈ s.invalidations ∨ ¬ v.Covers e.agentID)
    (h : CacheOk s id e) : CacheOk s' id e := by
  obtain ⟨hs, hall⟩ := h
  refine ⟨m.keys.sound hs, fun v hv' hcov => ?_⟩
  have hold := (hnew v hv').resolve_right (not_not_intro hcov)
  exact m.keys.undisabled (hv v hold).le (hall v hold hcov)

lemma Moves.disabledAt {a : Str} {d : ℕ} (h : DisabledAt s a d) : DisabledAt s' a d := by
  obtain ⟨hpos, hlt, hby, hknown⟩ := h
  have hclock := m.clock
  exact ⟨hpos, by omega, m.keys.disabledBy hlt.le hby, m.known a hknown⟩

lemma Moves.invalidatedBetween {a : Str} {d t t' : ℕ} (ht : t ≤ t')
    (h : InvalidatedBetween s a d t) : InvalidatedBetween s' a d t' := by
  obtain ⟨v, hv, hcov, hlt, hlt'⟩ := h
  exact ⟨v, m.kept v hv, hcov, hlt, hlt'.trans_le ht⟩

lemma Moves.revokingOk {r : Revoking} (h : RevokingOk s r) : RevokingOk s' r := by
  have hclock : s.clock ≤ s'.clock := by have := m.clock; omega
  cases r with
  | disabled a d => exact m.disabledAt h
  | invalidated a d => exact ⟨m.disabledAt h.1, m.invalidatedBetween hclock h.2⟩
  | stamped a d =>
    exact ⟨m.disabledAt h.1, m.invalidatedBetween hclock h.2.1, m.stamped a h.2.2⟩

lemma Moves.revocationOk {r : Revocation} (h : RevocationOk s r) : RevocationOk s' r :=
  ⟨m.disabledAt h.1, m.invalidatedBetween le_rfl h.2.1, m.stamped _ h.2.2⟩

lemma Moves.keyOk (hk : ∀ k ∈ s.keys, KeyOk s k) :
    ∀ k ∈ s'.keys, KeyOk s' k := by
  intro k' hk'
  have hclock := m.clock
  rcases m.keys.origin k' hk' with ⟨k, hk₀, hev⟩ | ⟨hc, hro, hnone⟩
  · obtain ⟨hcreated, hro, hdis⟩ := hk k hk₀
    refine ⟨by have := hev.created; omega, fun h0 => hev.readOnly.trans (hro (hev.created ▸ h0)), ?_⟩
    intro d hd
    rcases hev.disabled with heq | ⟨-, hsome⟩
    · have := hdis d (heq ▸ hd)
      omega
    · rw [hsome, mem_some_iff] at hd
      omega
  · exact ⟨by omega, fun _ => hro, by simp [hnone]⟩

lemma Inv.move (h : Inv s) (hcache : ∀ id e, (id, e) ∈ s'.cache → CacheOk s' id e)
    (hlooking : ∀ i l, s'.looking i = some l → s.looking i = some l ∨ LookingOk s' l)
    (hfound : ∀ f ∈ s'.found, f ∈ s.found ∨ FoundOk s' f)
    (hrevoking : ∀ i r, s'.revoking i = some r → s.revoking i = some r ∨ RevokingOk s' r)
    (hrevocations : ∀ r ∈ s'.revocations, r ∈ s.revocations ∨ RevocationOk s' r) : Inv s' where
  clock := by have := m.clock; omega
  ids := m.keys.ids h.ids
  keys := m.keyOk h.keys
  invalidations v hv := by
    have hclock := m.clock
    rcases m.origin v hv with hold | hnew
    · have := h.invalidations v hold
      omega
    · omega
  cache := hcache
  looking i l hl := (hlooking i l hl).elim (fun ho => m.lookingOk (h.looking i l ho)) id
  found f hf := (hfound f hf).elim (fun ho => m.foundOk h.invalidations (h.found f ho)) id
  revoking i r hr := (hrevoking i r hr).elim (fun ho => m.revokingOk (h.revoking i r ho)) id
  revocations r hr := (hrevocations r hr).elim (fun ho => m.revocationOk (h.revocations r ho)) id

end Moves

section Steps

variable {s s' : KeyService}

variable {i : ℕ} {st : Store} {id : Str} {e : KeyEntry} {q : Query} {openSealed : Str → Option Str}

lemma update_eq_some {β : Type} {f : ℕ → Option β} {j : ℕ} {v : Option β} {b : β}
    (h : Function.update f i v j = some b) : f j = some b ∨ v = some b :=
  (Runs.update_eq_some h).symm.imp And.right And.right

lemma moves_of_grows (hclock : s'.clock = s.clock + 1) (hkeys : Grows s.clock s.keys s'.keys)
    (hgen : s'.gen = s.gen) (hinv : s'.invalidations = s.invalidations)
    (hstore : s'.store = s.store) : Moves s s' where
  clock := hclock
  keys := hkeys
  gen := hgen.ge
  same _ := hinv
  kept _ hv := hinv ▸ hv
  origin _ hv := .inl (hinv ▸ hv)
  known _ ha := hstore ▸ ha
  stamped _ ha := hstore ▸ ha

lemma moves_of_invalidation {v : Invalidation} (hclock : s'.clock = s.clock + 1)
    (hkeys : s'.keys = s.keys) (hgen : s'.gen = s.gen + 1)
    (hinv : s'.invalidations = v :: s.invalidations) (hv : v.at_ = s.clock)
    (hstore : s'.store = s.store) : Moves s s' where
  clock := hclock
  keys := hkeys ▸ .refl
  gen := by omega
  same h := by omega
  kept w hw := hinv ▸ mem_cons_of_mem _ hw
  origin w hw := by
    rw [hinv, mem_cons] at hw
    exact hw.elim (fun h => .inr (h ▸ hv)) .inl
  known _ ha := hstore ▸ ha
  stamped _ ha := hstore ▸ ha

lemma find?_revokeAgent (st : Store) (id a : Str) :
    (st.revokeAgent id).agents.find? (fun r => r.id = a)
      = (st.agents.find? fun r => r.id = a).map fun r =>
        if r.id = id then { r with revoked := true } else r := by
  simp only [Store.revokeAgent, Store.modifyAgent, find?_map]
  congr 2
  funext r
  simp only [Function.comp_apply]
  split_ifs <;> rfl

lemma Known.revokeAgent {a : Str} (h : Known st a) (id : Str) : Known (st.revokeAgent id) a := by
  rw [Known, find?_revokeAgent, isSome_map]
  exact h

lemma Stamped.revokeAgent {a : Str} (h : Stamped st a) (id : Str) :
    Stamped (st.revokeAgent id) a := by
  obtain ⟨r, hr, hrev⟩ := h
  refine ⟨_, by rw [find?_revokeAgent, hr]; rfl, ?_⟩
  dsimp only
  split_ifs
  · rfl
  · exact hrev

lemma Known.stamped {a : Str} (h : Known st a) : Stamped (st.revokeAgent a) a := by
  obtain ⟨r, hr⟩ := isSome_iff_exists.1 h
  have hid : r.id = a := by simpa using find?_some hr
  exact ⟨_, by rw [find?_revokeAgent, hr]; rfl, by simp [hid]⟩

lemma Inv.cache_of_subset (h : Inv s) (m : Moves s s')
    (hinv : s'.invalidations = s.invalidations) (hsub : ∀ c ∈ s'.cache, c ∈ s.cache) :
    ∀ id e, (id, e) ∈ s'.cache → CacheOk s' id e := fun id e hc =>
  m.cacheOk h.invalidations (fun _ hv => .inl (hinv ▸ hv)) (h.cache id e (hsub _ hc))

lemma CacheOk.foundOk {t : ℕ} (h : CacheOk s id e) (ht : t < s.clock) : FoundOk s ⟨id, e, t⟩ :=
  ⟨ht, h.1, fun v hv hcov _ => h.2 v hv hcov⟩

lemma LookingOk.foundOk (h : LookingOk s (.loaded q e)) :
    FoundOk s ⟨q.accessKeyID, e, q.startedAt⟩ :=
  ⟨h.1.1, h.2.1, fun _ _ _ hlt k hk hid d hd => hlt.le.trans (h.2.2 k hk hid d hd)⟩

lemma LookingOk.cacheOk (h : LookingOk s (.loaded q e))
    (hgen : s.gen = q.gen) : CacheOk s q.accessKeyID e :=
  ⟨h.2.1, fun v hv _ k hk hid d hd => (h.1.2.2 hgen.symm v hv).le.trans (h.2.2 k hk hid d hd)⟩

lemma mem_drop {c : Str × KeyEntry} (h : c ∈ s.drop id) : c ∈ s.cache :=
  mem_of_mem_filter h

lemma undisabled_of_deviceKey (hids : (s.keys.map (·.accessKeyID)).Nodup)
    {k : DeviceKey} (h : s.deviceKey id = some k) (t : ℕ) : Undisabled s.keys id t := by
  have hp := find?_some h
  simp only [Bool.and_eq_true, decide_eq_true_eq, isNone_iff_eq_none] at hp
  intro k' hk' hid d hd
  have : k' = k := inj_on_of_nodup_map hids hk' (mem_of_find?_eq_some h)
    (hid.trans hp.1.symm)
  rw [this, hp.2] at hd
  cases hd

lemma sound_of_deviceKey (h : (s.deviceKey q.accessKeyID).bind (entryOf openSealed q) = some e) :
    Sound s.keys q.accessKeyID e := by
  obtain ⟨k, hk, he⟩ := bind_eq_some_iff.1 h
  obtain ⟨secret, -, rfl⟩ := map_eq_some_iff.1 he
  have hp := find?_some hk
  simp only [Bool.and_eq_true, decide_eq_true_eq] at hp
  exact ⟨k, mem_of_find?_eq_some hk, hp.1, rfl, rfl⟩

lemma moves_tick {t : KeyService} (hclock : t.clock = s.clock) (hkeys : t.keys = s.keys)
    (hgen : t.gen = s.gen) (hinv : t.invalidations = s.invalidations)
    (hstore : t.store = s.store) : Moves s t.tick :=
  moves_of_grows (congrArg (· + 1) hclock) (show Grows _ _ t.keys from hkeys ▸ .refl) hgen hinv
    hstore

lemma Inv.setLooking (h : Inv s) (i : ℕ) {l : Option Looking}
    (hl : ∀ l', l = some l' → LookingOk s.tick l') : Inv (s.setLooking i l).tick := by
  have m : Moves s (s.setLooking i l).tick := moves_tick rfl rfl rfl rfl rfl
  refine h.move m (h.cache_of_subset m rfl fun _ hc => hc) (fun j l' hl' => ?_)
    (fun _ => .inl) (fun _ _ => .inl) fun _ => .inl
  exact (update_eq_some hl').imp_right fun hnew => hl l' hnew

lemma Inv.lookup (h : Inv s) {now : ℤ}
    (hs : stepLookup openSealed s (.lookup i id now) = some s') : Inv s'.tick := by
  simp only [stepLookup] at hs
  split_ifs at hs
  split at hs <;> cases hs
  · next e he =>
    have m : Moves s (s.addFound ⟨id, e, s.clock⟩).tick := moves_tick rfl rfl rfl rfl rfl
    have hc := h.cache_of_subset m rfl fun _ hc => hc
    have hmem := Lists.mem_of_lookup (filter_eq_some_iff.1 he).1
    refine h.move m hc (fun _ _ => .inl) (fun f hf => ?_) (fun _ _ => .inl) fun _ => .inl
    rcases mem_cons.1 hf with rfl | hf
    · exact .inr ((hc id e hmem).foundOk (Nat.lt_succ_self s.clock))
    · exact .inl hf
  · refine h.setLooking i fun l hl => ?_
    cases hl
    exact ⟨Nat.lt_succ_self s.clock, le_rfl, fun _ => h.invalidations⟩

lemma Inv.readStore (h : Inv s) {ok : Bool}
    (hs : stepLookup openSealed s (.readStore i ok) = some s') : Inv s'.tick := by
  simp only [stepLookup] at hs
  split at hs
  · next q hq =>
    have m : Moves s s.tick := moves_tick rfl rfl rfl rfl rfl
    split at hs <;> cases hs
    · next e he =>
      split_ifs at he
      refine h.setLooking i fun l hl => ?_
      cases hl
      obtain ⟨k, hk, -⟩ := bind_eq_some_iff.1 he
      exact ⟨m.queryOk (h.looking i _ hq), sound_of_deviceKey he,
        undisabled_of_deviceKey h.ids hk q.startedAt⟩
    · exact h.setLooking i fun l hl => by cases hl; trivial
  · cases hs

lemma Inv.forget (h : Inv s)
    (hs : stepLookup openSealed s (.forget i) = some s') : Inv s'.tick := by
  simp only [stepLookup] at hs
  split at hs <;> cases hs
  next q hq =>
  have m : Moves s ({ s with cache := s.drop q.accessKeyID }.setLooking i none).tick :=
    moves_tick rfl rfl rfl rfl rfl
  refine h.move m (h.cache_of_subset m rfl fun _ hc => mem_drop hc) (fun j l hl => ?_)
    (fun _ => .inl) (fun _ _ => .inl) fun _ => .inl
  exact (update_eq_some hl).imp_right fun hnew => by cases hnew

lemma Inv.finishLookup (h : Inv s)
    (hq : s.looking i = some (.loaded q e)) (cache : List (Str × KeyEntry))
    (hcache : ∀ c ∈ cache, c ∈ s.cache ∨ c = (q.accessKeyID, e) ∧ s.gen = q.gen) :
    Inv (({ s with cache }.addFound ⟨q.accessKeyID, e, q.startedAt⟩).setLooking i none).tick := by
  have m : Moves s
      (({ s with cache }.addFound ⟨q.accessKeyID, e, q.startedAt⟩).setLooking i none).tick :=
    moves_tick rfl rfl rfl rfl rfl
  have hl := m.lookingOk (h.looking i _ hq)
  refine h.move m (fun id e' hc => ?_) (fun j l hl => ?_) (fun f hf => ?_) (fun _ _ => .inl)
    fun _ => .inl
  · rcases hcache _ hc with hold | ⟨heq, hgen⟩
    · exact m.cacheOk h.invalidations (fun _ => .inl) (h.cache id e' hold)
    · cases heq
      exact hl.cacheOk hgen
  · exact (update_eq_some hl).imp_right fun hnew => by cases hnew
  · rcases mem_cons.1 hf with rfl | hf
    · exact .inr hl.foundOk
    · exact .inl hf

lemma Inv.writeCache (h : Inv s)
    (hs : stepLookup openSealed s (.writeCache i) = some s') : Inv s'.tick := by
  simp only [stepLookup] at hs
  split at hs <;> cases hs
  next q e hq =>
  split_ifs with hgen
  · refine h.finishLookup hq _ fun c hc => ?_
    rcases mem_cons.1 hc with rfl | hc
    · exact .inr ⟨rfl, hgen⟩
    · split_ifs at hc
      · cases hc
      · exact .inl (mem_drop hc)
  · exact h.finishLookup hq s.cache fun c hc => .inl hc

lemma Inv.setRevoking (h : Inv s) (i : ℕ) {r : Option Revoking}
    (hr : ∀ r', r = some r' → RevokingOk s r') : Inv (s.setRevoking i r) :=
  { h with revoking := fun j r' hr' => (update_eq_some hr').elim (h.revoking j r') (hr r') }

lemma Inv.setMinting (h : Inv s) (i : ℕ) (m : Option Minting) : Inv (s.setMinting i m) :=
  { h with }

lemma Inv.setKeys (h : Inv s) {keys : List DeviceKey} (hg : Grows s.clock s.keys keys) :
    Inv { s with keys }.tick := by
  have m : Moves s { s with keys }.tick := moves_of_grows rfl hg rfl rfl rfl
  exact h.move m (h.cache_of_subset m rfl fun _ hc => hc) (fun _ _ => .inl) (fun _ => .inl)
    (fun _ _ => .inl) fun _ => .inl

lemma Inv.tick (h : Inv s) : Inv s.tick := h.setKeys .refl

lemma moves_invalidate (s : KeyService) (a : Str) : Moves s (s.invalidate a).tick :=
  moves_of_invalidation rfl rfl rfl rfl rfl rfl

lemma Inv.invalidate (h : Inv s) (a : Str) : Inv (s.invalidate a).tick := by
  refine h.move (moves_invalidate s a) (fun id e hc => ?_) (fun _ _ => .inl) (fun _ => .inl)
    (fun _ _ => .inl) fun _ => .inl
  obtain ⟨hc, hne⟩ := mem_filter.1 hc
  refine (moves_invalidate s a).cacheOk h.invalidations (fun v hv => ?_) (h.cache id e hc)
  rcases mem_cons.1 hv with rfl | hv
  · refine .inr fun hcov => ?_
    simp [hcov a rfl] at hne
  · exact .inl hv

lemma Inv.invalidateAll (h : Inv s) : Inv s.invalidateAll.tick := by
  have m : Moves s s.invalidateAll.tick := moves_of_invalidation rfl rfl rfl rfl rfl rfl
  exact h.move m (fun id e hc => by cases hc) (fun _ _ => .inl) (fun _ => .inl)
    (fun _ _ => .inl) fun _ => .inl

lemma moves_revokeAgent (s : KeyService) (a : Str) :
    Moves s { s with store := s.store.revokeAgent a }.tick :=
  ⟨rfl, .refl, le_rfl, fun _ => rfl, fun _ => id, fun _ => .inl,
    fun _ hb => hb.revokeAgent a, fun _ hb => hb.revokeAgent a⟩

lemma Inv.revokeAgent (h : Inv s) (a : Str) :
    Inv { s with store := s.store.revokeAgent a }.tick := by
  have m := moves_revokeAgent s a
  exact h.move m (h.cache_of_subset m rfl fun _ hc => hc) (fun _ _ => .inl) (fun _ => .inl)
    (fun _ _ => .inl) fun _ => .inl

variable {a : KeyAction}

lemma Inv.stepRevoke (h : Inv s) (hs : stepRevoke s a = some s') :
    Inv s'.tick := by
  have m : Moves s s.tick := moves_tick rfl rfl rfl rfl rfl
  cases a <;> simp only [stepRevoke, reduceCtorEq] at hs
  case disableKeys i a ok =>
    split_ifs at hs with hidle hok <;> cases hs
    · refine (h.setKeys (grows_disableWhere s _)).setRevoking i fun r hr => ?_
      cases hr
      refine ⟨h.clock, Nat.lt_succ_self s.clock, ?_, ?_⟩
      · exact disabledBy_disableDeviceKeysForAgent s a fun k hk => (h.keys k hk).2.2
      · simp only [not_or, Bool.not_eq_true', Bool.not_eq_false] at hidle
        exact find?_isSome.2 (any_eq_true.1 hidle.2)
    · exact h.tick
  case invalidateKeys i =>
    split at hs <;> cases hs
    next a d hr =>
    refine (h.invalidate a).setRevoking i fun r hr' => ?_
    cases hr'
    have hd : DisabledAt s a d := h.revoking i _ hr
    exact ⟨(moves_invalidate s a).disabledAt hd, ⟨some a, s.clock⟩, mem_cons_self,
      fun _ hb => (some.inj hb).symm, hd.2.1, Nat.lt_succ_self s.clock⟩
  case revokeAgent i ok =>
    split at hs
    · next a d hr =>
      split_ifs at hs <;> cases hs
      · refine (h.revokeAgent a).setRevoking i fun r hr' => ?_
        cases hr'
        obtain ⟨hd, hi⟩ := (moves_revokeAgent s a).revokingOk (h.revoking i _ hr)
        exact ⟨hd, hi, (h.revoking i _ hr).1.2.2.2.stamped⟩
      · exact h.tick.setRevoking i nofun
    · cases hs
  case scheduleReap i ok =>
    split at hs
    · next a d hr =>
      split_ifs at hs <;> cases hs
      · refine Inv.setRevoking (r := none)
          (s := { s with revocations := ⟨a, d, s.clock⟩ :: s.revocations }.tick) ?_ i nofun
        refine Inv.move (s := s) (moves_tick rfl rfl rfl rfl rfl) h h.tick.cache
          (fun _ _ => .inl) (fun _ => .inl) (fun _ _ => .inl) fun r hr' => ?_
        rcases mem_cons.1 hr' with rfl | hold
        · obtain ⟨hd, hi, hst⟩ := h.revoking i _ hr
          exact .inr ⟨m.disabledAt hd, hi, hst⟩
        · exact .inl hold
      · exact h.tick.setRevoking i nofun
    · cases hs

lemma Inv.stepKit (h : Inv s) (hs : stepKit s a = some s') :
    Inv s'.tick := by
  cases a <;> simp only [stepKit, reduceCtorEq] at hs
  case kitKeys i a pre rotate =>
    split_ifs at hs <;> cases hs
    · exact h.tick.setMinting i _
    · exact h.tick.setMinting i _
    · exact h.tick
  case kitDisable i ok =>
    split at hs
    · split_ifs at hs <;> cases hs
      · exact (h.setKeys (grows_disableWhere s _)).setMinting i _
      · exact h.tick.setMinting i _
    · cases hs
  case kitInvalidate i =>
    split at hs <;> cases hs
    exact (h.invalidate _).setMinting i _
  case kitCreate i id sealedSecret =>
    split at hs <;> cases hs
    next a pre hm =>
    refine Inv.setMinting (s := ((s.createReadOnlyKey id a sealedSecret pre).getD s).tick) ?_ i none
    cases hc : s.createReadOnlyKey id a sealedSecret pre with
    | none => exact h.tick
    | some t =>
      have hg := grows_createReadOnlyKey hc
      unfold createReadOnlyKey at hc
      split_ifs at hc
      cases hc
      exact h.setKeys hg

lemma Inv.step (h : Inv s)
    (hs : step openSealed s a = some s') : Inv s' := by
  obtain ⟨t, ht, rfl⟩ := map_eq_some_iff.1 hs
  cases a with
  | lookup i id now => exact h.lookup ht
  | readStore i ok => exact h.readStore ht
  | forget i => exact h.forget ht
  | writeCache i => exact h.writeCache ht
  | disableKeys _ _ _ | invalidateKeys _ | revokeAgent _ _ | scheduleReap _ _ =>
    exact h.stepRevoke ht
  | kitKeys _ _ _ _ | kitDisable _ _ | kitInvalidate _ | kitCreate _ _ _ => exact h.stepKit ht
  | invalidateAll => cases ht; exact h.invalidateAll

end Steps

/-- A server that has just started: nothing cached, nothing in flight, any tables. -/
structure Starts (s : KeyService) : Prop where
  clock : s.clock = 1
  ids : (s.keys.map (·.accessKeyID)).Nodup
  keys : ∀ k ∈ s.keys, k.createdAt = 0 ∧ ∀ d ∈ k.disabledAt, d = 0
  cache : s.cache = []
  looking : ∀ i, s.looking i = none
  revoking : ∀ i, s.revoking i = none
  minting : ∀ i, s.minting i = none
  history : s.found = [] ∧ s.invalidations = [] ∧ s.revocations = []

lemma Starts.inv {s : KeyService} (h : Starts s) : Inv s := by
  obtain ⟨hf, hi, hr⟩ := h.history
  refine ⟨by rw [h.clock]; decide, h.ids, fun k hk => ?_, by simp [hi], by simp [h.cache],
    by simp [h.looking], by simp [hf], by simp [h.revoking], by simp [hr]⟩
  obtain ⟨hc, hd⟩ := h.keys k hk
  refine ⟨by rw [hc, h.clock]; decide, fun h0 => absurd hc h0, fun d hd' => ?_⟩
  rw [hd d hd', h.clock]
  decide

lemma storeForAgent_of_stamped {st : Store} {a : Str} (h : Stamped st a)
    (targetStore : ℤ → Except StoreForErr Unit) :
    storeForAgent targetStore st a = .error .errAccessDenied := by
  obtain ⟨r, hr, hrev⟩ := h
  simp [storeForAgent, hr, hrev]

@[simp] lemma writeError_status (r : Request) (n : ℕ) (c : Code) (msg : Str) :
    (writeError r n c msg).status = n := by
  unfold writeError
  split_ifs <;> rfl

lemma serveAs_denied {p : Prims} {g : Config} {env : Env} {t : Tree} {r : Request}
    {cred : Credential} (h : env.storeFor cred.agentID = .error .errAccessDenied) :
    (serveAs p g env t r cred).1 = t ∧ 400 ≤ (serveAs p g env t r cred).2.status := by
  unfold serveAs
  simp only [h]
  repeat' split
  all_goals exact ⟨rfl, by simp [writeSlowDown, writeNotImplemented]⟩

lemma serve_denied {p : Prims} {g : Config} {env : Env} {t : Tree} {r : Request} {akid : Str}
    {cred : Credential} (hauth : authenticate p g env r = .ok (akid, cred))
    (h : env.storeFor cred.agentID = .error .errAccessDenied) :
    (serve p g env t r).1 = t ∧ 400 ≤ (serve p g env t r).2.status := by
  unfold serve
  simp only [hauth]
  split_ifs
  · exact ⟨rfl, by simp⟩
  · exact ⟨rfl, by simp [writeSlowDown]⟩
  · exact ⟨rfl, by simp⟩
  · exact serveAs_denied h

/-- A lookup that starts after an invalidation never finds a key disabled before it. Once a revocation
has succeeded, a lookup that starts later finds no key of the agent but a read-only one minted since
the revocation disabled the others, and the gateway refuses every request that authenticates as the
agent. -/
theorem reach_revoked {openSealed : Str → Option Str} {s : KeyService}
    (h : Runs.Reach (step openSealed) Runs.Free Starts s) :
    (∀ f ∈ s.found, ∀ v ∈ s.invalidations, v.Covers f.entry.agentID → v.at_ < f.startedAt →
      ∀ k ∈ s.keys, k.accessKeyID = f.accessKeyID → ∀ d ∈ k.disabledAt, ¬ d < v.at_)
    ∧ (∀ f ∈ s.found, ∀ rv ∈ s.revocations, f.entry.agentID = rv.agentID →
      rv.returnedAt < f.startedAt → f.entry.readOnly = true
        ∧ ∃ k ∈ s.keys, k.accessKeyID = f.accessKeyID ∧ k.agentID = rv.agentID
          ∧ k.readOnly = true ∧ rv.disabledAt ≤ k.createdAt)
    ∧ ∀ rv ∈ s.revocations, ∀ (targetStore : ℤ → Except StoreForErr Unit) (p : Prims) (g : Config)
      (env : Env) (t : Tree) (r : Request) (akid : Str) (cred : Credential),
      env.storeFor = storeForAgent targetStore s.store →
      authenticate p g env r = .ok (akid, cred) → cred.agentID = rv.agentID →
      (serve p g env t r).1 = t ∧ 400 ≤ (serve p g env t r).2.status := by
  have hinv : Inv s := h.invariant (fun _ => Starts.inv) fun _ _ _ hi _ hs => hi.step hs
  refine ⟨fun f hf v hv hcov hlt k hk hid d hd => ?_, fun f hf rv hrv hagent hlt => ?_, ?_⟩
  · exact not_lt.2 ((hinv.found f hf).2.2 v hv hcov hlt k hk hid d hd)
  · obtain ⟨-, ⟨k, hk, hid, hka, hro⟩, hall⟩ := hinv.found f hf
    obtain ⟨⟨hpos, -, hby, -⟩, ⟨v, hv, hcov, hdv, hvr⟩, -⟩ := hinv.revocations rv hrv
    have hnew : rv.disabledAt ≤ k.createdAt := by
      by_contra hlt'
      obtain ⟨d, hd, hle⟩ := hby k hk (hka.trans hagent) (by omega)
      have := hall v hv (hagent ▸ hcov) (by omega) k hk hid d hd
      omega
    have hkro := (hinv.keys k hk).2.1 (by omega)
    exact ⟨hro ▸ hkro, k, hk, hid, hka.trans hagent, hkro, hnew⟩
  · intro rv hrv targetStore p g env t r akid cred henv hauth hagent
    refine serve_denied hauth ?_
    rw [henv, hagent]
    exact storeForAgent_of_stamped (hinv.revocations rv hrv).2.2 targetStore

end KeyService

def KeyService.sample : KeyService where
  store := ⟨fun _ => none, [], [⟨str "a1", 1, false, false, some 10⟩]⟩
  keys := [⟨str "WHRW", str "a1", str "rw", str "a1/", false, 0, none⟩]
  gen := 0
  cache := []
  looking _ := none
  revoking _ := none
  minting _ := none
  clock := 1
  found := []
  invalidations := []
  revocations := []

lemma KeyService.sample_starts : sample.Starts :=
  ⟨rfl, by decide, by decide, rfl, fun _ => rfl, fun _ => rfl, fun _ => rfl, rfl, rfl, rfl⟩

/-- A lookup answers and is cached; the agent is revoked while another lookup of the key is between
its read and its write; a kit is minted, and a lookup of the kit's key answers. -/
def revokeThenMint : List KeyAction :=
  [.lookup 0 (str "WHRW") 0, .readStore 0 true, .writeCache 0,
    .lookup 1 (str "WHRW") (10 ^ 12), .readStore 1 true,
    .disableKeys 0 (str "a1") true, .invalidateKeys 0, .writeCache 1,
    .revokeAgent 0 true, .scheduleReap 0 true,
    .lookup 2 (str "WHRW") 0, .readStore 2 true, .forget 2,
    .kitKeys 0 (str "a1") (str "a1/") false, .kitCreate 0 (str "WHRO") (str "ro"),
    .lookup 3 (str "WHRO") 0, .readStore 3 true, .writeCache 3]

lemma reach_revokeThenMint :
    ∃ s, Runs.Reach (step some) Runs.Free Starts s
      ∧ ∃ f ∈ s.found, ∃ rv ∈ s.revocations,
        f.entry.agentID = rv.agentID ∧ rv.returnedAt < f.startedAt :=
  Runs.exists_reach sample_starts revokeThenMint (by decide)

/-- A lookup that starts after a revocation has succeeded finds a key of the revoked agent. -/
theorem lookup_after_revoke :
    ∃ s, Runs.Reach (KeyService.step some) Runs.Free KeyService.Starts s
      ∧ ∃ f ∈ s.found, ∃ rv ∈ s.revocations,
        f.entry.agentID = rv.agentID ∧ rv.returnedAt < f.startedAt :=
  reach_revokeThenMint

theorem reach_revoked_sample :
    ∃ s, Runs.Reach (KeyService.step some) Runs.Free KeyService.Starts s
      ∧ (∃ f ∈ s.found, ∃ rv ∈ s.revocations,
        f.entry.agentID = rv.agentID ∧ rv.returnedAt < f.startedAt)
      ∧ ∀ f ∈ s.found, ∀ rv ∈ s.revocations, f.entry.agentID = rv.agentID →
        rv.returnedAt < f.startedAt → f.entry.readOnly = true := by
  obtain ⟨s, hreach, hfound⟩ := reach_revokeThenMint
  exact ⟨s, hreach, hfound, fun f hf rv hrv ha hlt =>
    ((KeyService.reach_revoked hreach).2.1 f hf rv hrv ha hlt).1⟩

end Warphold.Fleet
