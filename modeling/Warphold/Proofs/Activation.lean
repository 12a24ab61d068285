import Warphold.Fleet.Activate

/-!
# What undoes an activation

Between its check and its return an activation takes the database and the key file for its own.
-/

namespace Warphold.Fleet

open StateDir List Option Function

/-- Between the check and the return of an activation. -/
def Activating.writes : Activating → Bool
  | .starting .. | .keyAbsent .. | .reloadKey | .reloadDb => false
  | _ => true

namespace StateDir

variable (c : Crypto) {s s' : StateDir} {i : ℕ} {a : Activating}

/-- The last check of an activation is made while no other is between its own and its return. -/
def Safe (s : StateDir) : ActivateAction → Prop
  | .statDb _ => s.writing = []
  | _ => True

instance (s : StateDir) (a : ActivateAction) : Decidable (s.Safe a) := by
  unfold Safe
  split <;> infer_instance

/-- A directory without a fleet, and processes that do nothing yet. -/
structure Initial (s : StateDir) : Prop where
  keyFile : s.keyFile = none
  db : s.db = none
  acting : ∀ i, s.acting i = none
  writing : s.writing = []
  succeeded : s.succeeded = []

/-- The state of an activation that returned success is in place. -/
def Settled (s : StateDir) (req : ActivationReq) : Prop :=
  ∃ f salt, s.db = some f ∧ req.email ∈ (s.files f).admins ∧ (s.files f).salt = some salt
    ∧ s.keyFile = some (c.derive req.passphrase salt)

def PhaseOk (s : StateDir) : Activating → Prop
  | .checked _ | .salted _ _ => ∀ f, s.db = some f → s.files f = ⟨[], none⟩
  | .opened _ _ f => s.db = some f ∧ s.files f = ⟨[], none⟩
  | .adminCreated req _ f => s.db = some f ∧ s.files f = ⟨[req.email], none⟩
  | .settingsSet req salt => ∃ f, s.db = some f ∧ s.files f = ⟨[req.email], some salt⟩
  | .keyWritten req salt | .keyRead req salt =>
    (∃ f, s.db = some f ∧ s.files f = ⟨[req.email], some salt⟩)
      ∧ s.keyFile = some (c.derive req.passphrase salt)
  | _ => True

structure Inv (s : StateDir) : Prop where
  one : ∀ i ∈ s.writing, ∀ j ∈ s.writing, i = j
  writer : ∀ i a, s.acting i = some a → a.writes = true → i ∈ s.writing
  phase : ∀ i a, s.acting i = some a → PhaseOk c s a
  fresh : ∀ f, s.db = some f → f < s.nextFile
  idle : s.succeeded ≠ [] → s.writing = []
  settled : ∀ req ∈ s.succeeded, Settled c s req

variable {c}

lemma phaseOk_of_reads (h : a.writes = false) : PhaseOk c s a := by
  cases a <;> trivial

lemma Initial.inv (h : Initial s) : Inv c s where
  one := by simp [h.writing]
  writer := fun i a ha => by simp [h.acting] at ha
  phase := fun i a ha => by simp [h.acting] at ha
  fresh := by simp [h.db]
  idle := fun hne => absurd h.succeeded hne
  settled := by simp [h.succeeded]

lemma Inv.go (h : Inv c s) (hw : a.writes = true → i ∈ s.writing) (hok : PhaseOk c s a) :
    Inv c (s.go i a) := by
  refine ⟨h.one, fun j b hb hbw => ?_, fun j b hb => ?_, h.fresh, h.idle, h.settled⟩
  · rcases Runs.update_eq_some hb with ⟨rfl, hab⟩ | ⟨-, hold⟩
    · cases hab
      exact hw hbw
    · exact h.writer j b hold hbw
  · rcases Runs.update_eq_some hb with ⟨-, hab⟩ | ⟨-, hold⟩
    · cases hab
      cases a <;> exact hok
    · have := h.phase j b hold
      cases b <;> exact this

lemma Inv.leave (h : Inv c s) (i : ℕ) : Inv c (s.leave i) := by
  have hsub : ∀ {j}, j ∈ s.writing.filter (· ≠ i) → j ∈ s.writing := mem_of_mem_filter
  refine ⟨fun j hj k hk => h.one j (hsub hj) k (hsub hk), fun j b hb hbw => ?_, fun j b hb => ?_,
    h.fresh, fun hne => ?_, h.settled⟩
  · rcases Runs.update_eq_some hb with ⟨-, hab⟩ | ⟨hne, hold⟩
    · cases hab
    · exact mem_filter.2 ⟨h.writer j b hold hbw, decide_eq_true hne⟩
  · rcases Runs.update_eq_some hb with ⟨-, hab⟩ | ⟨-, hold⟩
    · cases hab
    · have := h.phase j b hold
      cases b <;> exact this
  · change s.writing.filter (· ≠ i) = []
    rw [h.idle hne, filter_nil]

lemma Inv.succeeded_nil (h : Inv c s) (hi : i ∈ s.writing) : s.succeeded = [] := by
  by_contra hne
  rw [h.idle hne] at hi
  cases hi

lemma Inv.write (h : Inv c s) (hi : i ∈ s.writing) (hact : s'.acting = s.acting)
    (hwr : s'.writing = s.writing) (hsucc : s'.succeeded = s.succeeded)
    (hfresh : ∀ f, s'.db = some f → f < s'.nextFile) (hok : PhaseOk c s' a) : Inv c (s'.go i a) := by
  have hnil : s'.succeeded = [] := hsucc.trans (h.succeeded_nil hi)
  refine ⟨fun j hj k hk => h.one j (hwr ▸ hj) k (hwr ▸ hk), fun j b hb hbw => ?_, fun j b hb => ?_,
    hfresh, fun hne => absurd hnil hne, fun req hreq => ?_⟩
  · change j ∈ s'.writing
    rw [hwr]
    rcases Runs.update_eq_some hb with ⟨rfl, -⟩ | ⟨-, hold⟩
    · exact hi
    · exact h.writer j b (hact ▸ hold) hbw
  · rcases Runs.update_eq_some hb with ⟨-, hab⟩ | ⟨hne, hold⟩
    · cases hab
      cases a <;> exact hok
    · refine phaseOk_of_reads (Bool.eq_false_iff.2 fun hbw => hne ?_)
      exact h.one j (h.writer j b (hact ▸ hold) hbw) i hi
  · change req ∈ s'.succeeded at hreq
    rw [hnil] at hreq
    cases hreq

lemma Inv.finish (h : Inv c s) (hi : i ∈ s.writing) (hact : s'.acting = s.acting)
    (hwr : s'.writing = s.writing) (hfresh : ∀ f, s'.db = some f → f < s'.nextFile)
    (hsettled : ∀ req ∈ s'.succeeded, Settled c s' req) : Inv c (s'.leave i) := by
  have hnil : s'.writing.filter (· ≠ i) = [] := by
    rw [filter_eq_nil_iff]
    intro j hj
    simpa using h.one j (hwr ▸ hj) i hi
  have hothers : ∀ j b, (s'.leave i).acting j = some b → b.writes = false := fun j b hb => by
    rcases Runs.update_eq_some hb with ⟨-, hab⟩ | ⟨hne, hold⟩
    · cases hab
    · refine Bool.eq_false_iff.2 fun hbw => hne ?_
      exact h.one j (h.writer j b (hact ▸ hold) hbw) i hi
  refine ⟨?_, fun j b hb hbw => ?_, fun j b hb => phaseOk_of_reads (hothers j b hb), hfresh,
    fun _ => hnil, hsettled⟩
  · change ∀ j ∈ s'.writing.filter (· ≠ i), ∀ k ∈ s'.writing.filter (· ≠ i), j = k
    rw [hnil]
    nofun
  · rw [hothers j b hb] at hbw
    cases hbw

lemma openStore_spec (s : StateDir) : s.openStore.1.db = some s.openStore.2
    ∧ s.openStore.1.acting = s.acting ∧ s.openStore.1.writing = s.writing
    ∧ s.openStore.1.succeeded = s.succeeded ∧ s.openStore.1.keyFile = s.keyFile
    ∧ (∀ f, s.db = some f → s.openStore.1 = s)
    ∧ (s.db = none → s.openStore.1.files s.openStore.2 = ⟨[], none⟩
      ∧ s.openStore.2 < s.openStore.1.nextFile) := by
  unfold openStore
  cases hdb : s.db with
  | some f => exact ⟨hdb, rfl, rfl, rfl, rfl, fun _ _ => rfl, nofun⟩
  | none =>
    exact ⟨rfl, rfl, rfl, rfl, rfl, nofun, fun _ => ⟨update_self .., Nat.lt_succ_self _⟩⟩

lemma Inv.openStore (h : Inv c s) : Inv c s.openStore.1 := by
  obtain ⟨hdb, hact, hwr, hsucc, -, hsame, hnew⟩ := openStore_spec s
  cases hold : s.db with
  | some f =>
    rw [hsame f hold]
    exact h
  | none =>
    obtain ⟨hempty, hlt⟩ := hnew hold
    refine ⟨hwr ▸ h.one, fun j b hb => hwr ▸ h.writer j b (hact ▸ hb), fun j b hb => ?_,
      fun f hf => ?_, hsucc ▸ hwr ▸ h.idle, fun req hreq => ?_⟩
    · have hok := h.phase j b (hact ▸ hb)
      cases b with
      | checked | salted =>
        intro f hf
        rw [hdb, some.injEq] at hf
        rw [← hf, hempty]
      | opened | adminCreated =>
        rw [PhaseOk, hold] at hok
        cases hok.1
      | settingsSet =>
        obtain ⟨f, hf, -⟩ := hok
        rw [hold] at hf
        cases hf
      | keyWritten | keyRead =>
        obtain ⟨⟨f, hf, -⟩, -⟩ := hok
        rw [hold] at hf
        cases hf
      | _ => trivial
    · rw [hdb, some.injEq] at hf
      exact hf ▸ hlt
    · obtain ⟨f, salt, hf, -⟩ := h.settled req (hsucc ▸ hreq)
      rw [hold] at hf
      cases hf

variable {act : ActivateAction}

lemma Inv.stepCheck (h : Inv c s) (hsafe : s.Safe act)
    (hs : stepCheck s act = some s') : Inv c s' := by
  cases act <;> simp only [StateDir.stepCheck, reduceCtorEq] at hs
  case activate i req =>
    split_ifs at hs
    · cases hs
      exact h
    · cases hs
      exact h.go nofun trivial
  case statKey i =>
    split at hs
    · split_ifs at hs
      · cases hs
        exact h.leave i
      · cases hs
        exact h.go nofun trivial
    · cases hs
  case statDb i =>
    split at hs
    · next req hreq =>
      split_ifs at hs with hdb
      · cases hs
        exact h.leave i
      · cases hs
        have hnone : s.db = none := by simpa using hdb
        have hnil : s.writing = [] := hsafe
        have hsucc : s.succeeded = [] := by
          by_contra hne
          obtain ⟨r, hr⟩ := exists_mem_of_ne_nil _ hne
          obtain ⟨f, salt, hf, -⟩ := h.settled r hr
          rw [hnone] at hf
          cases hf
        refine Inv.go ⟨?_, fun j b hb hbw => ?_, ?_, h.fresh, ?_, ?_⟩ (fun _ => ?_) fun f hf => ?_
        · simp [hnil]
        · exact mem_cons_of_mem _ (h.writer j b hb hbw)
        · intro j b hb
          have := h.phase j b hb
          cases b <;> exact this
        · exact fun hne => absurd hsucc hne
        · intro r hr
          change r ∈ s.succeeded at hr
          rw [hsucc] at hr
          cases hr
        · exact mem_cons_self
        · change s.db = some f at hf
          rw [hnone] at hf
          cases hf
    · cases hs
  case validate i salt ok =>
    split at hs
    · next req hreq =>
      have hphase := h.phase i _ hreq
      have hmem := h.writer i _ hreq rfl
      split_ifs at hs
      · cases hs
        exact h.go (fun _ => hmem) hphase
      · cases hs
        exact h.leave i
    · cases hs

lemma Inv.stepFill (h : Inv c s) (hs : stepFill s act = some s') : Inv c s' := by
  cases act <;> simp only [StateDir.stepFill, reduceCtorEq] at hs
  case openDb i ok =>
    split at hs
    · next req salt hreq =>
      have hopen := h.openStore
      obtain ⟨hdb, hact, hwr, -⟩ := openStore_spec s
      have hphase := hopen.phase i _ (hact ▸ hreq)
      have hmem := hopen.writer i _ (hact ▸ hreq) rfl
      split_ifs at hs
      · cases hs
        exact hopen.go (fun _ => hmem) ⟨hdb, hphase _ hdb⟩
      · cases hs
        exact hopen.go (fun _ => hmem) trivial
    · cases hs
  case createAdmin i ok =>
    split at hs
    · next req salt f hreq =>
      have hmem := h.writer i _ hreq rfl
      obtain ⟨hdb, hfile⟩ := h.phase i _ hreq
      split_ifs at hs
      · cases hs
        refine h.write hmem rfl rfl rfl h.fresh ⟨hdb, ?_⟩
        rw [setFile, hfile]
        exact update_self ..
      · cases hs
        exact h.go (fun _ => hmem) trivial
    · cases hs
  case setSettings i ok =>
    split at hs
    · next req salt f hreq =>
      have hmem := h.writer i _ hreq rfl
      obtain ⟨hdb, hfile⟩ := h.phase i _ hreq
      split_ifs at hs
      · cases hs
        refine h.write hmem rfl rfl rfl h.fresh ⟨f, hdb, ?_⟩
        rw [setFile, hfile]
        exact update_self ..
      · cases hs
        exact h.go (fun _ => hmem) trivial
    · cases hs

lemma Inv.stepKey (h : Inv c s) (hs : stepKey c s act = some s') : Inv c s' := by
  cases act <;> simp only [StateDir.stepKey, reduceCtorEq] at hs
  case writeKey i ok =>
    split at hs
    · next req salt hreq =>
      have hmem := h.writer i _ hreq rfl
      have hphase := h.phase i _ hreq
      split_ifs at hs
      · cases hs
        exact h.write hmem rfl rfl rfl h.fresh ⟨hphase, rfl⟩
      · cases hs
        exact h.go (fun _ => hmem) trivial
    · cases hs
  case readKey i ok =>
    split at hs
    · next req salt hreq =>
      have hmem := h.writer i _ hreq rfl
      have hphase := h.phase i _ hreq
      split_ifs at hs
      · cases hs
        exact h.go (fun _ => hmem) hphase
      · cases hs
        exact h.go (fun _ => hmem) trivial
    · split_ifs at hs
      · cases hs
        exact h.go nofun trivial
      · cases hs
        exact h.leave i
    · cases hs
  case loadDb i ok =>
    have hopen := h.openStore
    obtain ⟨-, hact, -⟩ := openStore_spec s
    split at hs
    · next req salt hreq =>
      have hmem := hopen.writer i _ (hact ▸ hreq) rfl
      have hphase := hopen.phase i _ (hact ▸ hreq)
      split_ifs at hs
      · cases hs
        refine hopen.finish hmem rfl rfl hopen.fresh (forall_mem_cons.2 ⟨?_, fun r hr => ?_⟩)
        · obtain ⟨⟨f, hf, hfile⟩, hkey⟩ := hphase
          refine ⟨f, salt, hf, ?_, ?_, hkey⟩
          · simp only [hfile, mem_singleton]
          · simp only [hfile]
        · rw [hopen.succeeded_nil hmem] at hr
          cases hr
      · cases hs
        exact hopen.go (fun _ => hmem) trivial
    · cases hs
      refine Inv.leave ?_ i
      split_ifs
      · exact { hopen with
          phase := fun j b hb => by
            have := hopen.phase j b hb
            cases b <;> exact this }
      · exact hopen
    · cases hs
  case removeKey i ok =>
    split at hs <;> cases hs
    next hreq =>
    have hmem := h.writer i _ hreq rfl
    split_ifs
    · exact h.write hmem rfl rfl rfl h.fresh trivial
    · exact h.go (fun _ => hmem) trivial
  case removeDb i ok =>
    split at hs <;> cases hs
    next hreq =>
    have hmem := h.writer i _ hreq rfl
    split_ifs
    · refine h.finish hmem rfl rfl nofun fun r hr => ?_
      change r ∈ s.succeeded at hr
      rw [h.succeeded_nil hmem] at hr
      cases hr
    · exact h.leave i
  case reload i =>
    split_ifs at hs
    · cases hs
      exact h.go nofun trivial
    · cases hs
      exact h

lemma Inv.step (h : Inv c s) (hsafe : s.Safe act) (hs : step c s act = some s') : Inv c s' := by
  cases act with
  | activate | statKey | statDb | validate => exact h.stepCheck hsafe hs
  | openDb | createAdmin | setSettings =>
    simp only [StateDir.step] at hs
    exact h.stepFill hs
  | crash i =>
    cases hs
    have hleave := h.leave i
    exact { hleave with
      phase := fun j b hb => by
        have := hleave.phase j b hb
        cases b <;> exact this }
  | _ =>
    simp only [StateDir.step] at hs
    exact h.stepKey hs

section Sample

def Sample.crypto : Crypto where
  derive := fun passphrase salt =>
    ⟨(passphrase ++ salt ++ List.replicate 32 0).take 32, by simp; omega⟩
  sealPlain := fun _ _ plain => plain
  openSealed := fun _ sealed => some sealed

def Sample.start : StateDir where
  keyFile := none
  db := none
  files := fun _ => ⟨[], none⟩
  nextFile := 0
  acting := fun _ => none
  activated := fun _ => false
  writing := []
  succeeded := []

lemma Sample.start_initial : Initial start := ⟨rfl, rfl, fun _ => rfl, rfl, rfl⟩

def Sample.req (k : UInt8) (email : Str) : ActivationReq :=
  ⟨List.replicate 8 k, email, List.replicate 8 k⟩

def Sample.check (i : ℕ) (r : ActivationReq) : List ActivateAction :=
  [.activate i r, .statKey i, .statDb i]

def Sample.fill (i : ℕ) : List ActivateAction :=
  [.validate i [i.toUInt8] true, .openDb i true, .createAdmin i true, .setSettings i true,
    .writeKey i true, .readKey i true, .loadDb i true]

def Sample.clean (i : ℕ) : List ActivateAction :=
  [.validate i [i.toUInt8] true, .openDb i true, .createAdmin i true, .removeKey i true,
    .removeDb i true]

end Sample

end StateDir

end Warphold.Fleet
