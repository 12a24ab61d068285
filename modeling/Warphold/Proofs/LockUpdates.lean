import Warphold.Format.Upgrade

/-!
# Updates of an upgrade lock

An update is checked as it was submitted, but only its notice is stored. Updates that shorten no notice
keep the stored lock valid and its time from going back, and no others do (`submit_iff`).
-/

namespace Warphold.Upgrade

open UpgradeLockIntent

variable {l l' other : UpgradeLockIntent}

/-- What `SetUpgradeLockIntent` does to the lock that is stored. -/
def UpgradeLockIntent.submit (l other : UpgradeLockIntent) : Option UpgradeLockIntent :=
  (other.validate.bind fun _ => l.update other).toOption

def Extends (l other : UpgradeLockIntent) : Prop := l.advanceNoticeDuration ≤ other.advanceNoticeDuration

lemma validate_notice (hl : l.validate = .ok ()) (n : ℤ) :
    { l with advanceNoticeDuration := n }.validate = .ok ()
      ↔ n = 0 ∨ 0 < n ∧ l.totalDrainInterval < n := by
  unfold validate at hl ⊢
  have hdrain : { l with advanceNoticeDuration := n }.totalDrainInterval = l.totalDrainInterval := rfl
  simp only [hdrain]
  split_ifs at hl ⊢ <;> simp only [false_iff, true_iff] <;> omega

lemma submit_eq_some (h : l.submit other = some l') : other.validate = .ok ()
    ∧ l' = { l with advanceNoticeDuration := other.advanceNoticeDuration }
    ∧ (l.advanceNoticeDuration = 0 ↔ other.advanceNoticeDuration = 0) := by
  unfold submit at h
  rcases hv : other.validate with err | ⟨⟩
  · simp [hv, Except.bind, Except.toOption] at h
  · simp only [hv, Except.bind, update] at h
    split_ifs at h <;> simp_all [Except.toOption]

lemma submit_iff (hl : l.validate = .ok ()) (h : l.submit other = some l') :
    (l'.validate = .ok () ∧ l.upgradeTime ≤ l'.upgradeTime) ↔ Extends l other := by
  obtain ⟨-, rfl, hzero⟩ := submit_eq_some h
  have hold := (validate_notice hl l.advanceNoticeDuration).1 hl
  rw [validate_notice hl]
  simp only [upgradeTime, totalDrainInterval, Extends] at *
  split_ifs <;> omega

lemma isLocked_of_upgradeTime_le {now : ℤ} (h : 0 ≤ l.totalDrainInterval) (hnow : l.upgradeTime ≤ now) :
    l.isLocked now = true := by
  by_contra hn
  rw [Bool.not_eq_true, isLocked, Bool.or_eq_false_iff] at hn
  have hlong := of_decide_eq_false hn.1
  rw [Bool.not_eq_false'] at hn
  have hlt := of_decide_eq_true hn.2
  simp only [upgradeTime, wrap64] at hnow hlt
  split_ifs at hnow <;> omega

/-- Whatever updates extend the notice of a valid lock, the stored lock stays valid and its time does
not go back, and of the next update this holds only if it extends the notice, too. -/
theorem reach_lock_valid (hl : l.validate = .ok ())
    (h : Runs.Reach UpgradeLockIntent.submit Extends (· = l) l') :
    l'.validate = .ok () ∧ l.upgradeTime ≤ l'.upgradeTime
      ∧ (∀ other s, l'.submit other = some s →
        ((s.validate = .ok () ∧ l'.upgradeTime ≤ s.upgradeTime) ↔ Extends l' other))
      ∧ (0 ≤ l.totalDrainInterval → ∀ now, l'.upgradeTime ≤ now → l'.isLocked now = true) := by
  have hinv : l'.validate = .ok () ∧ l.upgradeTime ≤ l'.upgradeTime
      ∧ l'.totalDrainInterval = l.totalDrainInterval := by
    induction h with
    | init hs =>
      rw [hs]
      exact ⟨hl, le_rfl, rfl⟩
    | step _ hext hsub ih =>
      obtain ⟨hv, htime⟩ := (submit_iff ih.1 hsub).2 hext
      obtain ⟨-, rfl, -⟩ := submit_eq_some hsub
      exact ⟨hv, ih.2.1.trans htime, ih.2.2⟩
  refine ⟨hinv.1, hinv.2.1, fun other s hs => submit_iff hinv.1 hs, fun hdrain now hnow => ?_⟩
  exact isLocked_of_upgradeTime_le (hinv.2.2 ▸ hdrain) hnow

section Sample

/-- A lock of a total drain interval of 3. -/
def noticed (creationTime notice : ℤ) : UpgradeLockIntent :=
  ⟨str "o", creationTime, notice, 1, 1, str "m", 1⟩

theorem noticed_extended : ∃ s, (noticed 1 10).submit (noticed 5 20) = some s
    ∧ s.validate = .ok () ∧ (noticed 1 10).upgradeTime ≤ s.upgradeTime := by
  have hs : (noticed 1 10).submit (noticed 5 20) = some (noticed 1 20) := by decide
  have hreach : Runs.Reach UpgradeLockIntent.submit Extends (· = noticed 1 10) (noticed 1 20) :=
    .step (.init rfl) (by simp [Extends, noticed]) hs
  have hvalid := reach_lock_valid (by decide) hreach
  exact ⟨_, hs, hvalid.1, hvalid.2.1⟩

/-- An update made later, with a shorter notice: the stored lock's time goes back by six. -/
theorem noticed_shortened : (noticed 1 10).validate = .ok ()
    ∧ (noticed 1 10).submit (noticed 9 4) = some (noticed 1 4)
    ∧ (noticed 1 4).upgradeTime < (noticed 1 10).upgradeTime := by
  decide

end Sample

end Warphold.Upgrade
