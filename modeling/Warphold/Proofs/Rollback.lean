import Warphold.Format.Upgrade

/-!
# Rolling back an upgrade

While there is a lock there is one backup, of the format that was in place before the lock, as long as
every operation works on the format that is stored and no other owner's backup is left over when a
lock is set. Rolling back then has no choice.
-/

namespace Warphold.Upgrade

open List Option Manager

variable {ρ : Type} [DecidableEq ρ]

/-- The operation works on the format that is stored, and where it sets a new lock there is no
backup but its owner's. -/
def Orderly (w : World ρ) : UpgradeAction ρ → Prop
  | .connect _ _ => True
  | .run c refresh op _ =>
    (∀ m ∈ ((w.clients c).refresh w.storage refresh).bind (·.manager),
      m = .loaded w.storage.repository)
    ∧ match op with
      | .setLock l _ _ => w.storage.repository.config.upgradeLock = none →
        ∀ b ∈ w.storage.backups, b.ownerID = l.ownerID
      | _ => True

instance (w : World ρ) (action : UpgradeAction ρ) : Decidable (Orderly w action) :=
  match action with
  | .connect _ _ => isTrue trivial
  | .run _ _ (.setLock _ _ _) _ => inferInstanceAs (Decidable (_ ∧ _))
  | .run _ _ (.commit _) _ => inferInstanceAs (Decidable (_ ∧ _))
  | .run _ _ (.rollback _) _ => inferInstanceAs (Decidable (_ ∧ _))
  | .run _ _ (.setParameters _ _ _) _ => inferInstanceAs (Decidable (_ ∧ _))

def Backed (st : Storage ρ) (before : Option (FormatBlob ρ)) : Prop :=
  st.repository.config.upgradeLock ≠ none →
    ∃ b, st.backups = [b] ∧ before = some b.blob ∧ b.blob.config.upgradeLock = none

section Writes

variable {st : Storage ρ} {before : Option (FormatBlob ρ)} {l : UpgradeLockIntent} {nonce : Str}

lemma Backed.putRepository (h : Backed st before) {b : FormatBlob ρ}
    (hlock : b.config.upgradeLock ≠ none → st.repository.config.upgradeLock ≠ none) :
    Backed (st.write (.putRepository b)) (trackBefore before st.repository b) := by
  intro (hb : b.config.upgradeLock ≠ none)
  obtain ⟨x, hx, hbefore, hnone⟩ := h (hlock hb)
  refine ⟨x, hx, ?_, hnone⟩
  rw [trackBefore, if_neg hb, if_neg (hlock hb)]
  exact hbefore

lemma Backed.same (h : Backed st before) :
    Backed st (trackBefore before st.repository st.repository) := by
  intro hlock
  rw [trackBefore, if_neg hlock, if_neg hlock]
  exact h hlock

lemma backed_of_unlocked (hlock : st.repository.config.upgradeLock = none) : Backed st before :=
  fun h => absurd hlock h

lemma backed_setLock {b : Backup ρ} {new : FormatBlob ρ}
    (hlock : st.repository.config.upgradeLock = none) (hb : b.blob = st.repository)
    (howner : ∀ x ∈ st.backups, x.ownerID = b.ownerID) :
    Backed ((st.write (.putBackup b)).write (.putRepository new))
      (trackBefore before st.repository new) := by
  intro (hnew : new.config.upgradeLock ≠ none)
  have hfilter : st.backups.filter (·.ownerID ≠ b.ownerID) = [] := by
    simpa [filter_eq_nil_iff] using howner
  refine ⟨b, ?_, ?_, ?_⟩
  · simp only [Storage.write, hfilter]
  · rw [trackBefore, if_neg hnew, if_pos hlock, hb]
  · rw [hb]
    exact hlock

end Writes

lemma Manager.setUpgradeLockIntent_ok {m : Manager ρ} {l : UpgradeLockIntent} {nonce : Str}
    {time : ℤ} {a : Attempt ρ} (h : m.setUpgradeLockIntent l nonce time = .ok a) :
    (m.repoConfig.upgradeLock = none ∧ ∃ config,
      a.writes = (.putBackup ⟨l.ownerID, m.j, time⟩, m) :: (updateRepoConfig config nonce).writes)
    ∨ m.repoConfig.upgradeLock ≠ none ∧ ∃ config, a = updateRepoConfig config nonce := by
  unfold setUpgradeLockIntent at h
  cases hv : l.validate with
  | error e => simp [hv, bind, Except.bind] at h
  | ok u =>
    simp only [hv, bind, Except.bind] at h
    cases hlock : m.repoConfig.upgradeLock with
    | none =>
      simp only [hlock] at h
      split_ifs at h
      cases h
      exact Or.inl ⟨rfl, _, rfl⟩
    | some old =>
      simp only [hlock] at h
      cases hu : old.update l with
      | error e => simp [hu] at h
      | ok l' =>
        simp only [hu] at h
        cases h
        exact Or.inr ⟨some_ne_none old, _, rfl⟩

lemma Backed.attempt {st : Storage ρ} {before : Option (FormatBlob ρ)} {op : UpgradeOp ρ}
    {a : Attempt ρ} (h : Backed st before)
    (ha : (loaded st.repository).attempt op = .ok a)
    (hlisted : ∀ listed, op = .rollback listed → listed.Perm st.backups)
    (howner : ∀ l nonce time, op = .setLock l nonce time →
      st.repository.config.upgradeLock = none → ∀ b ∈ st.backups, b.ownerID = l.ownerID) (k : ℕ) :
    Backed (st.writeAll (a.writes.take k))
      (trackBefore before st.repository (st.writeAll (a.writes.take k)).repository) := by
  have hupdate : ∀ (config : RepositoryConfig ρ) (nonce : Str),
      (config.upgradeLock ≠ none → st.repository.config.upgradeLock ≠ none) → ∀ k,
      Backed (st.writeAll ((updateRepoConfig config nonce).writes.take k))
        (trackBefore before st.repository
          (st.writeAll ((updateRepoConfig config nonce).writes.take k)).repository) := by
    intro config nonce hlock k
    rcases k with - | k
    · exact h.same
    · simp only [updateRepoConfig, take_succ_cons, take_nil]
      exact h.putRepository hlock
  cases op with
  | setLock l nonce time =>
    rcases setUpgradeLockIntent_ok ha with ⟨hlock, config, hwrites⟩ | ⟨hlock, config, rfl⟩
    · rw [hwrites]
      rcases k with - | - | k
      · exact h.same
      · exact backed_of_unlocked hlock
      · simp only [updateRepoConfig, take_succ_cons, take_nil]
        exact backed_setLock hlock rfl (howner l nonce time rfl hlock)
    · exact hupdate config nonce (fun _ => hlock) k
  | commit nonce =>
    simp only [Manager.attempt, Manager.commitUpgrade] at ha
    split_ifs at ha
    cases ha
    exact hupdate _ _ (fun hne => absurd rfl hne) k
  | setParameters version rest nonce =>
    cases ha
    rcases k with - | k
    · exact h.same
    · exact hupdate { st.repository.config with version := version, rest := rest } nonce
        (fun hne => hne) k
  | rollback listed =>
    simp only [Manager.attempt, Manager.rollbackUpgrade] at ha
    split_ifs at ha with hlock
    obtain ⟨b, hb, hbefore, hnone⟩ := h hlock
    have hsingle : listed = [b] := by
      have := hlisted listed rfl
      rw [hb] at this
      exact perm_singleton.1 this
    cases ha
    simp only [hsingle, selectBackup, map_nil, nil_append]
    rcases k with - | - | k
    · exact h.same
    · exact backed_of_unlocked hnone
    · simp only [take_succ_cons, take_nil]
      exact backed_of_unlocked hnone

lemma Attempt.run_storage {a : Attempt ρ} {st st' : Storage ρ} {cl cl' : Client ρ} {fate : Fate}
    (h : a.run st cl fate = some (st', cl')) : ∃ k, st' = st.writeAll (a.writes.take k) := by
  cases fate with
  | complete =>
    cases h
    exact ⟨a.writes.length, by rw [take_length]⟩
  | fails done =>
    obtain ⟨w, -, h⟩ := map_eq_some_iff.1 h
    cases h
    exact ⟨done, rfl⟩
  | dies done =>
    obtain ⟨w, -, h⟩ := map_eq_some_iff.1 h
    cases h
    exact ⟨done, rfl⟩

lemma Backed.step {w w' : World ρ} {action : UpgradeAction ρ}
    (h : Backed w.storage w.before) (hok : Orderly w action) (hstep : w.step action = some w') :
    Backed w'.storage w'.before := by
  cases action with
  | connect c refresh =>
    obtain ⟨cl, -, rfl⟩ := map_eq_some_iff.1 hstep
    exact h
  | run c refresh op fate =>
    simp only [World.step] at hstep
    split_ifs at hstep with hlist
    obtain ⟨cl, hcl, hstep⟩ := bind_eq_some_iff.1 hstep
    obtain ⟨m, hm, hstep⟩ := bind_eq_some_iff.1 hstep
    have hfresh : m = .loaded w.storage.repository :=
      hok.1 m (bind_eq_some_iff.2 ⟨cl, hcl, hm⟩)
    cases ha : m.attempt op with
    | error e =>
      simp only [ha, some.injEq] at hstep
      subst hstep
      exact h
    | ok a =>
      simp only [ha, map_eq_some_iff] at hstep
      obtain ⟨⟨st, cl'⟩, hrun, rfl⟩ := hstep
      obtain ⟨k, rfl⟩ := Attempt.run_storage hrun
      rw [hfresh] at ha
      refine h.attempt ha (fun listed hop => ?_) (fun l nonce time hop => ?_) k
      · subst hop
        simpa [World.listable] using hlist
      · subst hop
        exact hok.2

lemma Backed.reach {w : World ρ} (h : Runs.Reach World.step Orderly World.Initial w) :
    Backed w.storage w.before := by
  induction h with
  | init hi => exact backed_of_unlocked hi.1
  | step _ hok hstep ih => exact ih.step hok hstep

/-- An operation of the client returns without an error, if no write fails. -/
def World.succeeds (w : World ρ) (c : ℕ) (refresh : Refresh) (op : UpgradeOp ρ) : Bool :=
  (((w.clients c).refresh w.storage refresh).bind (·.manager)).any fun m => (m.attempt op).isOk

/-- In a run of such operations, a rollback that succeeds leaves the format that was in place before
the lock was set. -/
theorem reach_rollback_restores {w w' : World ρ}
    (h : Runs.Reach World.step Orderly World.Initial w) {c : ℕ} {refresh : Refresh}
    {listed : List (Backup ρ)} (hok : Orderly w (.run c refresh (.rollback listed) .complete))
    (hsucceeds : w.succeeds c refresh (.rollback listed) = true)
    (hstep : w.step (.run c refresh (.rollback listed) .complete) = some w') :
    w.before = some w'.storage.repository := by
  simp only [World.step] at hstep
  split_ifs at hstep with hlist
  obtain ⟨cl, hcl, hstep⟩ := Option.bind_eq_some_iff.1 hstep
  obtain ⟨m, hm, hstep⟩ := Option.bind_eq_some_iff.1 hstep
  have hfresh : m = .loaded w.storage.repository :=
    hok.1 m (Option.bind_eq_some_iff.2 ⟨cl, hcl, hm⟩)
  simp only [World.succeeds, hcl, Option.bind_some, hm, Option.any_some] at hsucceeds
  rw [hfresh] at hstep hsucceeds
  simp only [Manager.attempt, Manager.rollbackUpgrade] at hstep hsucceeds
  split_ifs at hstep hsucceeds with hlock
  · cases hsucceeds
  · obtain ⟨b, hb, hbefore, -⟩ := Backed.reach h hlock
    have hsingle : listed = [b] := by
      have hperm : listed.Perm w.storage.backups := by simpa [World.listable] using hlist
      rw [hb] at hperm
      exact List.perm_singleton.1 hperm
    simp only [hsingle, Manager.selectBackup, Attempt.run, Option.map_some,
      Option.some.injEq] at hstep
    subst hstep
    exact hbefore

section Runs

def sampleLock (owner : Str) : UpgradeLockIntent := ⟨owner, 1, 0, 15, 15, [1], 5⟩

def sampleFormat : FormatBlob ℕ := ⟨⟨1, none, 0⟩, []⟩

def sampleStart : World ℕ := ⟨⟨sampleFormat, []⟩, fun _ => ⟨none, none⟩, none⟩

lemma sampleStart_initial : sampleStart.Initial := ⟨rfl, rfl, rfl⟩

/-- Owner `[1]` sets a lock, changes a parameter and rolls back. -/
theorem reach_rollback_restores_parameters : ∃ w w' : World ℕ,
    Runs.Reach World.step Orderly World.Initial w
      ∧ w.step (.run 0 .stored (.rollback [⟨[1], sampleFormat, 7⟩]) .complete) = some w'
      ∧ w.before = some w'.storage.repository ∧ w.storage.repository.config.rest = 5 := by
  obtain ⟨w, hw, hok, hsucceeds, hrest, hsome⟩ : ∃ w ∈ Runs.run World.step Orderly sampleStart
      [.run 0 .stored (.setLock (sampleLock [1]) [1] 7) .complete,
        .run 0 .stored (.setParameters 3 5 [2]) .complete],
      Orderly w (.run 0 .stored (.rollback [⟨[1], sampleFormat, 7⟩]) .complete)
        ∧ w.succeeds 0 .stored (.rollback [⟨[1], sampleFormat, 7⟩]) = true
        ∧ w.storage.repository.config.rest = 5
        ∧ (w.step (.run 0 .stored (.rollback [⟨[1], sampleFormat, 7⟩]) .complete)).isSome = true := by
    decide
  obtain ⟨w', hstep⟩ := Option.isSome_iff_exists.1 hsome
  have hreach : Runs.Reach World.step Orderly World.Initial w :=
    Runs.reach_of_run _ (.init sampleStart_initial) hw
  exact ⟨w, w', hreach, hstep, reach_rollback_restores hreach hok hsucceeds hstep, hrest⟩

/-- Owner `[1]` stops after writing a backup. A parameter is changed, and owner `[2]` sets a lock and
rolls it back: the change of the parameter is undone. -/
theorem stale_backup_restored : ∃ w w' : World ℕ,
    Runs.Reach World.step Runs.Free World.Initial w
      ∧ w.succeeds 1 .stored (.rollback w.storage.backups) = true
      ∧ w.step (.run 1 .stored (.rollback w.storage.backups) .complete) = some w'
      ∧ w.before = some ⟨⟨1, none, 5⟩, [2]⟩ ∧ w'.storage.repository = sampleFormat := by
  obtain ⟨w, hw, hsucceeds, hbefore, hsome⟩ : ∃ w ∈ Runs.run World.step Runs.Free sampleStart
      [.run 0 .stored (.setLock (sampleLock [1]) [1] 7) (.dies 1),
        .run 1 .stored (.setParameters 1 5 [2]) .complete,
        .run 1 .stored (.setLock (sampleLock [2]) [3] 8) .complete],
      w.succeeds 1 .stored (.rollback w.storage.backups) = true
        ∧ w.before = some ⟨⟨1, none, 5⟩, [2]⟩
        ∧ (w.step (.run 1 .stored (.rollback w.storage.backups) .complete)).any
          (fun w' => w'.storage.repository = sampleFormat) = true := by
    decide
  obtain ⟨w', hstep, hrestored⟩ := (Option.any_eq_true _ _).1 hsome
  exact ⟨w, w', Runs.reach_of_run _ (.init sampleStart_initial) hw, hsucceeds, hstep, hbefore,
    of_decide_eq_true hrestored⟩

end Runs

end Warphold.Upgrade
