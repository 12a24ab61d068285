import Warphold.Format.Monitor

/-!
# No operation after the upgrade time

A format without the lock was read no later than the lock was stored, on the client's clock, give or
take the drift; a check that saw the lock and let the operation through was made before the drain
began.
-/

namespace Warphold.Upgrade.Monitor

open State Option UpgradeLockIntent

variable {S : Setting}

/-- The lock is valid, its durations do not overflow, and the drain covers the time for which the
client trusts a format. -/
structure Covers (S : Setting) : Prop where
  valid : S.lock.validate = .ok ()
  notice_lt : S.lock.advanceNoticeDuration < 2 ^ 63
  total_lt : S.lock.maxPermittedClockDrift + 2 * S.lock.ioDrainTimeout < 2 ^ 63
  trust : S.validDuration + 2 * S.lock.maxPermittedClockDrift ≤ 2 * S.lock.ioDrainTimeout

/-- The lock is stored early enough, and an operation is one that is checked, on a format that has
not expired or is checked now. -/
def Watched (S : Setting) (s : State) : MonitorAction → Prop
  | .place => s.ownerNow + S.validDuration + 2 * S.lock.maxPermittedClockDrift ≤ S.lock.upgradeTime
  | .operate op => op.checked = true ∧ ∀ l ∈ s.manager, s.lastCheckTime = some l.time →
    s.clientNow < l.time + S.validDuration
  | _ => True

instance (s : State) (action : MonitorAction) : Decidable (Watched S s action) := by
  cases action <;> unfold Watched <;> infer_instance

section Lock

lemma durations_of_validate {l : UpgradeLockIntent} (h : l.validate = .ok ()) :
    0 < l.maxPermittedClockDrift ∧ 0 < l.ioDrainTimeout ∧ 0 ≤ l.advanceNoticeDuration := by
  unfold validate at h
  split_ifs at h <;> refine ⟨?_, ?_, ?_⟩ <;> omega

variable (h : Covers S)
include h

lemma Covers.drift : 0 < S.lock.maxPermittedClockDrift := (durations_of_validate h.valid).1

lemma Covers.drain : 0 < S.lock.ioDrainTimeout := (durations_of_validate h.valid).2.1

lemma Covers.totalDrainInterval :
    S.lock.totalDrainInterval = S.lock.maxPermittedClockDrift + 2 * S.lock.ioDrainTimeout := by
  have := h.drift
  have := h.drain
  have := h.total_lt
  unfold UpgradeLockIntent.totalDrainInterval wrap64
  omega

lemma Covers.lt_of_not_isLocked {now : ℤ} (hn : S.lock.isLocked now = false) :
    now + S.lock.maxPermittedClockDrift + 2 * S.lock.ioDrainTimeout < S.lock.upgradeTime := by
  have htotal := h.totalDrainInterval
  have hdrift := h.drift
  have hdrain := h.drain
  have hlt := h.notice_lt
  simp only [isLocked, Bool.or_eq_false_iff, decide_eq_false_iff_not,
    Bool.not_eq_false', decide_eq_true_eq, htotal, wrap64] at hn
  unfold upgradeTime
  rw [htotal]
  split_ifs <;> omega

end Lock

/-- The owner's time up to which there was no lock. -/
def State.limit (s : State) : ℤ := s.placed.getD s.ownerNow

def Old (S : Setting) (limit m : ℤ) : Prop := m ≤ limit + S.lock.maxPermittedClockDrift

def Cleared (S : Setting) (m : ℤ) : Prop :=
  m + 2 * S.lock.ioDrainTimeout < S.lock.upgradeTime + S.lock.maxPermittedClockDrift

structure Genuine (S : Setting) (limit now : ℤ) (l : Loaded) : Prop where
  past : l.time ≤ now + S.lock.maxPermittedClockDrift
  old : l.locked = false → Old S limit l.time

structure Inv (S : Setting) (s : State) : Prop where
  clocks : |s.clientNow - s.ownerNow| ≤ S.lock.maxPermittedClockDrift
  placed : ∀ p ∈ s.placed, p ≤ s.ownerNow
    ∧ p + S.validDuration + 2 * S.lock.maxPermittedClockDrift ≤ S.lock.upgradeTime
  cache : ∀ l ∈ s.cache, Genuine S s.limit s.ownerNow l
  manager : ∀ l ∈ s.manager, Genuine S s.limit s.ownerNow l
  check : ∀ m ∈ s.lastCheckTime, Old S s.limit m ∨ Cleared S m
  passed : ∀ t ∈ s.passed, t < S.lock.upgradeTime

section Steps

variable {s : State} {l : Loaded}

lemma Inv.clientNow_le (h : Inv S s) :
    s.clientNow ≤ s.ownerNow + S.lock.maxPermittedClockDrift := by
  have := (abs_le.1 h.clocks).2
  omega

lemma Inv.ownerNow_le (h : Inv S s) :
    s.ownerNow ≤ s.clientNow + S.lock.maxPermittedClockDrift := by
  have := (abs_le.1 h.clocks).1
  omega

lemma Inv.current (h : Inv S s) : Genuine S s.limit s.ownerNow s.current := by
  refine ⟨h.clientNow_le, fun hlocked => ?_⟩
  have hnone : s.placed = none := by simpa [State.current] using hlocked
  rw [Old, State.limit, hnone]
  exact h.clientNow_le

lemma Inv.refresh (h : Inv S s) (ignoreCache : Bool) : ∃ c l,
    s.refresh S ignoreCache = { s with cache := c, manager := some l }
      ∧ (∀ l' ∈ c, Genuine S s.limit s.ownerNow l') ∧ Genuine S s.limit s.ownerNow l
      ∧ (l = s.current ∨ s.clientNow < l.time + S.validDuration) := by
  have hcurrent : ∀ l' ∈ some s.current, Genuine S s.limit s.ownerNow l' := fun l' hl' => by
    cases hl'
    exact h.current
  unfold State.refresh
  cases hc : s.cache with
  | none => exact ⟨_, _, rfl, hcurrent, h.current, Or.inl rfl⟩
  | some l =>
    simp only
    split_ifs with hvalid
    · simp only [Bool.and_eq_true, decide_eq_true_eq] at hvalid
      refine ⟨some l, l, by rw [← hc], fun l' hl' => h.cache l' (hc ▸ hl'),
        h.cache l (by rw [hc]; rfl), Or.inr ?_⟩
      omega
    · exact ⟨_, _, rfl, hcurrent, h.current, Or.inl rfl⟩

/-- What a client has before it checks the lock. If there is no lock in it, what it had before was
read no later. -/
lemma Inv.maybeRefresh (h : Inv S s) (hl : s.manager = some l) : ∃ c l',
    s.maybeRefresh S l = { s with cache := c, manager := some l' }
      ∧ (∀ l ∈ c, Genuine S s.limit s.ownerNow l) ∧ Genuine S s.limit s.ownerNow l'
      ∧ (l' = s.current ∨ s.clientNow < l'.time + S.validDuration)
      ∧ (l'.locked = false → Old S s.limit l.time) := by
  have hgen := h.manager l hl
  unfold State.maybeRefresh
  split_ifs with hvalid
  · exact ⟨s.cache, l, by rw [← hl], h.cache, hgen, Or.inr hvalid, hgen.old⟩
  · obtain ⟨c, l', heq, hc, hl', hfresh⟩ := h.refresh false
    refine ⟨c, l', heq, hc, hl', hfresh, fun hlocked => ?_⟩
    have hold := hl'.old hlocked
    unfold Old at hold ⊢
    rcases hfresh with rfl | hfresh
    · have hnone : s.placed = none := by simpa [State.current] using hlocked
      rw [State.limit, hnone]
      exact hgen.past
    · omega

lemma Inv.pass (h : Inv S s) (ht : s.placed ≠ none → s.ownerNow < S.lock.upgradeTime) :
    Inv S s.pass := by
  unfold State.pass
  split_ifs with hp
  · refine { h with passed := fun t hmem => ?_ }
    rcases List.mem_cons.1 hmem with rfl | hmem
    · exact ht (isSome_iff_ne_none.1 hp)
    · exact h.passed t hmem
  · exact h

lemma Inv.lt_of_old (h : Inv S s) {m : ℤ} (hold : Old S s.limit m)
    (hvalid : s.clientNow < m + S.validDuration) (hp : s.placed ≠ none) :
    s.ownerNow < S.lock.upgradeTime := by
  obtain ⟨p, hp⟩ := ne_none_iff_exists'.1 hp
  have hbound := (h.placed p hp).2
  have howner := h.ownerNow_le
  rw [Old, limit, hp, getD_some] at hold
  omega

lemma Inv.checked (hS : Covers S) (hother : S.upgradeOwnerID ≠ S.lock.ownerID) (h : Inv S s)
    (hl : s.manager = some l)
    (hvalid : s.lastCheckTime = some l.time → s.clientNow < l.time + S.validDuration) :
    Inv S (s.checked S l) := by
  have htrust := hS.trust
  unfold State.checked
  split_ifs with hlast
  · refine h.pass fun hp => ?_
    rcases h.check l.time hlast with hold | hcleared
    · exact h.lt_of_old hold (hvalid hlast) hp
    · have howner := h.ownerNow_le
      have := hvalid hlast
      unfold Cleared at hcleared
      omega
  · obtain ⟨c, l', heq, hc, hl', hfresh, hold⟩ := h.maybeRefresh hl
    have hmanager : ∀ x ∈ some l', Genuine S s.limit s.ownerNow x := fun x hx => by
      cases hx
      exact hl'
    have hinv : Inv S { s with cache := c, manager := some l' } :=
      { h with cache := hc, manager := hmanager }
    -- The check is recorded under the time of what was loaded before.
    have hrecord : (Old S s.limit l.time ∨ Cleared S l.time) →
        Inv S { s with cache := c, manager := some l', lastCheckTime := some l.time } := fun hcheck =>
      { hinv with check := fun m hm => by cases hm; exact hcheck }
    simp only [heq, any_some]
    split_ifs with hlocked hpanic hdeny
    · exact { hinv with manager := fun x hx => by cases hx }
    · exact hinv
    · have hfree : S.lock.isLocked s.clientNow = false := by
        by_contra hne
        exact hdeny ⟨by simpa using hne, hother⟩
      have hbefore := hS.lt_of_not_isLocked hfree
      have howner := h.ownerNow_le
      have hpast := (h.manager l hl).past
      refine (hrecord (Or.inr ?_)).pass fun _ => ?_
      · unfold Cleared
        omega
      · have := hS.drain
        show s.ownerNow < _
        omega
    · have hlocked : l'.locked = false := by simpa using hlocked
      refine (hrecord (Or.inl (hold hlocked))).pass fun hp => ?_
      rcases hfresh with rfl | hfresh
      · exact absurd (by simpa [State.current] using hlocked) hp
      · exact hinv.lt_of_old (hl'.old hlocked) hfresh hp

lemma Inv.step {s' : State} {action : MonitorAction} (hS : Covers S)
    (hother : S.upgradeOwnerID ≠ S.lock.ownerID) (h : Inv S s) (hok : Watched S s action)
    (hstep : s.step S action = some s') : Inv S s' := by
  cases action with
  | tick owner client =>
    simp only [State.step] at hstep
    split_ifs at hstep with ht
    cases hstep
    have hold : ∀ m, Old S s.limit m → Old S (s.placed.getD owner) m := by
      intro m hm
      unfold Old limit at hm
      unfold Old
      cases hp : s.placed with
      | none =>
        simp only [hp, getD_none] at hm ⊢
        omega
      | some p => simpa only [hp, getD_some] using hm
    have hgen : ∀ l, Genuine S s.limit s.ownerNow l →
        Genuine S (s.placed.getD owner) owner l := fun l hl =>
      ⟨hl.past.trans (by have := ht.1; omega), fun hlocked => hold _ (hl.old hlocked)⟩
    refine ⟨ht.2, fun p hp => ⟨(h.placed p hp).1.trans ht.1, (h.placed p hp).2⟩,
      fun l hl => hgen l (h.cache l hl), fun l hl => hgen l (h.manager l hl),
      fun m hm => (h.check m hm).imp_left (hold m), h.passed⟩
  | place =>
    simp only [State.step] at hstep
    split_ifs at hstep with hp
    cases hstep
    have hold : ∀ m, Old S s.limit m → Old S s.ownerNow m := by
      intro m hm
      rw [Old, limit, hp.1] at hm
      exact hm
    refine ⟨h.clocks, fun p hp' => ?_, fun l hl => ⟨(h.cache l hl).past, fun hlocked =>
      hold _ ((h.cache l hl).old hlocked)⟩, fun l hl => ⟨(h.manager l hl).past, fun hlocked =>
      hold _ ((h.manager l hl).old hlocked)⟩, fun m hm => (h.check m hm).imp_left (hold m), h.passed⟩
    cases hp'
    exact ⟨le_rfl, hok⟩
  | share =>
    cases hstep
    refine { h with cache := fun l hl => ?_ }
    cases hl
    exact h.current
  | unshare =>
    cases hstep
    exact { h with cache := fun l hl => by cases hl }
  | connect ignoreCache =>
    cases hstep
    obtain ⟨c, l, heq, hc, hl, -⟩ := h.refresh ignoreCache
    rw [heq]
    exact { h with
      cache := hc
      manager := fun x hx => by cases hx; exact hl
      check := fun m hm => by cases hm }
  | reload =>
    obtain ⟨l, hl, rfl⟩ := map_eq_some_iff.1 hstep
    obtain ⟨c, l', heq, hc, hl', -⟩ := h.maybeRefresh hl
    rw [heq]
    exact { h with cache := hc, manager := fun x hx => by cases hx; exact hl' }
  | operate op =>
    obtain ⟨l, hl, rfl⟩ := map_eq_some_iff.1 hstep
    rw [if_pos hok.1]
    exact h.checked hS hother hl (hok.2 l hl)

end Steps

/-- In a run in which the lock is stored early enough and every operation is a checked one on a
format that has not expired, no operation of another client is let through from the upgrade time
on. -/
theorem reach_passed_before_upgrade (hS : Covers S) (hother : S.upgradeOwnerID ≠ S.lock.ownerID)
    {s : State} (h : Runs.Reach (State.step S ·) (Watched S) (State.Initial S) s) :
    ∀ t ∈ s.passed, t < S.lock.upgradeTime := by
  suffices hinv : Inv S s from hinv.passed
  induction h with
  | init hi =>
    obtain ⟨hclocks, hplaced, hcache, hmanager, hlast, hpassed⟩ := hi
    constructor <;> simp [*]
  | step _ hok hstep ih => exact ih.step hS hother hok hstep

section Runs

def sampleSetting : Setting := ⟨⟨[1], 1000, 0, 900, 900, [1], 300⟩, [2], 900⟩

lemma sampleSetting_covers : Covers sampleSetting := by
  constructor <;> decide

def sampleState : State := ⟨1000, 1000, none, none, none, none, []⟩

lemma sampleState_initial : sampleState.Initial sampleSetting := by
  refine ⟨by decide, rfl, rfl, rfl, rfl, rfl⟩

/-- A client that reloads the format finds the lock; before, its operations are let through. -/
theorem reach_passed_before_upgrade_reloaded : ∃ s,
    Runs.Reach (State.step sampleSetting ·) (Watched sampleSetting) (State.Initial sampleSetting) s
      ∧ s.passed = [1001] ∧ s.ownerNow = 4000 ∧ ∀ t ∈ s.passed, t < 3100 := by
  obtain ⟨s, hreach, hpassed, hnow⟩ : ∃ s, Runs.Reach (step sampleSetting ·)
      (Watched sampleSetting) (Initial sampleSetting) s
      ∧ s.passed = [1001] ∧ s.ownerNow = 4000 :=
    Runs.exists_reach sampleState_initial
      [.connect false, .operate .getBlob, .place, .tick 1001 1001, .operate .putBlob,
        .tick 4000 4000, .reload, .operate .putBlob] (by decide)
  refine ⟨s, hreach, hpassed, hnow, ?_⟩
  exact reach_passed_before_upgrade sampleSetting_covers (by decide) hreach

/-- A client that does not reload the format has its operations let through for ever, and listings
are let through in any case. -/
theorem passed_after_upgrade :
    (∃ s, Runs.Reach (State.step sampleSetting ·) Runs.Free (State.Initial sampleSetting) s
      ∧ ∃ t ∈ s.passed, sampleSetting.lock.upgradeTime ≤ t)
    ∧ ∃ s, Runs.Reach (State.step sampleSetting ·)
        (fun _ a => a ≠ .operate .getBlob ∧ a ≠ .operate .getMetadata ∧ a ≠ .operate .putBlob
          ∧ a ≠ .operate .deleteBlob) (State.Initial sampleSetting) s
      ∧ ∃ t ∈ s.passed, sampleSetting.lock.upgradeTime ≤ t := by
  constructor
  · exact Runs.exists_reach sampleState_initial
      [.connect false, .operate .getBlob, .place, .tick 4000 4000, .operate .putBlob] (by decide)
  · exact Runs.exists_reach sampleState_initial
      [.connect false, .place, .tick 4000 4000, .reload, .operate .listBlobs] (by decide)

end Runs

end Warphold.Upgrade.Monitor
