import Warphold.Fleet.Enroll

/-!
# Agents and the targets of their groups

An agent that is not retired should sit in a live group whose target holds its repository.
-/

namespace Warphold.Fleet

open List Option Function Store

namespace Enrollments

def Placed (st : Store) (a : Agent) : Prop :=
  ∃ g ∈ st.group a.groupID, ∀ t ∈ a.repo, g.targetID = t

/-- Every agent that is not retired is placed. -/
def AllPlaced (s : Enrollments) : Prop := ∀ a ∈ s.store.agents, a.retired = false → Placed s.store a

def Between (s : Enrollments) (id : ℤ) : Prop :=
  ∃ i t, s.enrolling i = some (.readGroup id t) ∨ s.enrolling i = some (.readTarget id t)

/-- The condition on a step: no group is retargeted or deleted between the moment an enrollment read
it and the moment it inserts its agent. -/
def Safe (s : Enrollments) : EnrollAction → Prop
  | .updateGroup id _ targetID _ =>
    Between s id → ∀ g, s.store.group id = some g → targetID.getD g.targetID = g.targetID
  | .stampDeleted id _ => ¬ Between s id
  | _ => True

def Knows (st : Store) : Enrolling → Prop
  | .readGroup id t | .readTarget id t => ∃ g, st.group id = some g ∧ g.targetID = t
  | .created id t => ∀ a ∈ st.agents, a.id = id → a.retired = false →
    ∃ g, st.group a.groupID = some g ∧ g.targetID = t
  | _ => True

def agentOf : Enrolling → Option Str
  | .created id _ | .provisioned id | .failed id => some id
  | _ => none

def Owns (s : Enrollments) (i : ℕ) (id : Str) : Prop := (s.enrolling i).bind agentOf = some id

structure Inv (s : Enrollments) : Prop where
  placed : AllPlaced s
  knows : ∀ i e, s.enrolling i = some e → Knows s.store e
  exists_agent : ∀ i id, Owns s i id → ∃ a ∈ s.store.agents, a.id = id
  owner_unique : ∀ i j id, Owns s i id → Owns s j id → i = j

/-- A store that still holds every group in use with its target, and no agent that is not retired
beyond those of `s`. -/
structure Extends (s : Enrollments) (st : Store) : Prop where
  groups : ∀ id g, s.store.group id = some g → (Between s id ∨ s.store.groupHasAgents id = true) →
    ∃ g', st.group id = some g' ∧ g'.targetID = g.targetID
  agents : ∀ a ∈ st.agents, a.retired = false → ∃ a' ∈ s.store.agents, a'.retired = false
    ∧ a'.id = a.id ∧ a'.groupID = a.groupID ∧ a'.repo = a.repo
  owned : ∀ i id, Owns s i id → (∃ a ∈ s.store.agents, a.id = id) → ∃ a ∈ st.agents, a.id = id

lemma groupHasAgents_of_mem {st : Store} {a : Agent} (ha : a ∈ st.agents)
    (hr : a.retired = false) : st.groupHasAgents a.groupID = true := by
  simp only [groupHasAgents, List.any_eq_true]
  exact ⟨a, ha, by simp [hr]⟩

variable {s : Enrollments}

lemma Inv.setStore {st : Store} (h : Inv s) (he : Extends s st) : Inv (s.setStore st) := by
  refine ⟨?_, ?_, fun i id ho => he.owned i id ho (h.exists_agent i id ho), h.owner_unique⟩
  · intro a ha hr
    obtain ⟨a', ha', hr', -, hg, hrepo⟩ := he.agents a ha hr
    obtain ⟨g, hgroup, hplaced⟩ := h.placed a' ha' hr'
    obtain ⟨g', hgroup', ht⟩ := he.groups _ g hgroup (.inr (groupHasAgents_of_mem ha' hr'))
    exact ⟨g', hg ▸ hgroup', fun t hat => ht ▸ hplaced t (hrepo ▸ hat)⟩
  · intro i e hi
    have hk := h.knows i e hi
    cases e with
    | readGroup id t =>
      obtain ⟨g, hg, rfl⟩ := hk
      exact he.groups id g hg (.inl ⟨i, _, .inl hi⟩)
    | readTarget id t =>
      obtain ⟨g, hg, rfl⟩ := hk
      exact he.groups id g hg (.inl ⟨i, _, .inr hi⟩)
    | created id t =>
      intro a ha hid hr
      obtain ⟨a', ha', hr', hid', hgid, -⟩ := he.agents a ha hr
      obtain ⟨g, hg, rfl⟩ := hk a' ha' (hid'.trans hid) hr'
      rw [← hgid]
      exact he.groups _ g hg (.inr (groupHasAgents_of_mem ha' hr'))
    | consumed _ => trivial
    | provisioned _ => trivial
    | failed _ => trivial

lemma owns_setEnrolling {i j : ℕ} {e : Option Enrolling} {id : Str} :
    Owns (s.setEnrolling i e) j id ↔ if j = i then e.bind agentOf = some id else Owns s j id := by
  simp only [Owns, Enrollments.setEnrolling, update_apply]
  split_ifs <;> rfl

lemma Inv.setEnrolling (h : Inv s) {i : ℕ} {e : Option Enrolling}
    (hk : ∀ e', e = some e' → Knows s.store e')
    (ho : ∀ id, e.bind agentOf = some id → Owns s i id) : Inv (s.setEnrolling i e) := by
  have hown : ∀ j id, Owns (s.setEnrolling i e) j id → Owns s j id := by
    intro j id hj
    rw [owns_setEnrolling] at hj
    split_ifs at hj with hji
    · exact hji ▸ ho id hj
    · exact hj
  refine ⟨h.placed, fun j e' hj => ?_, fun j id hj => h.exists_agent j id (hown j id hj),
    fun j k id hj hk => h.owner_unique j k id (hown j id hj) (hown k id hk)⟩
  simp only [Enrollments.setEnrolling, update_apply] at hj
  split_ifs at hj
  · exact hk e' hj
  · exact h.knows j e' hj

section Extends
variable {s : Enrollments}

lemma extends_of_eq {st : Store} (hg : st.groups = s.store.groups)
    (ha : st.agents = s.store.agents) : Extends s st := by
  refine ⟨?_, ?_, fun i id _ hid => ha ▸ hid⟩
  · intro id g h _
    exact ⟨g, by simpa only [group, hg] using h, rfl⟩
  · intro a h hr
    exact ⟨a, ha ▸ h, hr, rfl, rfl, rfl⟩

lemma extends_modifyAgent (id : Str) {f : Agent → Agent} (hid : ∀ a, (f a).id = a.id)
    (hf : ∀ a, (f a).retired = false →
      a.retired = false ∧ (f a).groupID = a.groupID ∧ (f a).repo = a.repo) :
    Extends s (s.store.modifyAgent id f) := by
  refine ⟨fun _ g h _ => ⟨g, h, rfl⟩, ?_, ?_⟩
  · intro a ha hr
    obtain ⟨a', ha', rfl⟩ := mem_map.1 ha
    split_ifs at hr ⊢
    · obtain ⟨h1, h2, h3⟩ := hf a' hr
      exact ⟨a', ha', h1, (hid a').symm, h2.symm, h3.symm⟩
    · exact ⟨a', ha', hr, rfl, rfl, rfl⟩
  · rintro i id' - ⟨a, ha, hid'⟩
    refine ⟨_, mem_map_of_mem ha, ?_⟩
    split_ifs
    · rw [hid a, hid']
    · exact hid'

lemma extends_deleteAgent {id : Str} (h : ∀ i, ¬ Owns s i id) :
    Extends s (s.store.deleteAgent id) := by
  refine ⟨fun _ g hg _ => ⟨g, hg, rfl⟩, ?_, ?_⟩
  · exact fun a ha hr => ⟨a, (mem_filter.1 ha).1, hr, rfl, rfl, rfl⟩
  · rintro i id' ho ⟨a, ha, hid'⟩
    refine ⟨a, mem_filter.2 ⟨ha, ?_⟩, hid'⟩
    simp only [ne_eq, decide_not, Bool.not_eq_eq_eq_not, Bool.not_true, decide_eq_false_iff_not]
    rintro rfl
    exact h i (hid' ▸ ho)

lemma extends_update (id : ℤ) (row : Group)
    (h : ∀ g, s.store.group id = some g → (Between s id ∨ s.store.groupHasAgents id = true) →
      row.deleted = false ∧ row.targetID = g.targetID) :
    Extends s { s.store with groups := update s.store.groups id (some row) } := by
  refine ⟨?_, fun a ha hr => ⟨a, ha, hr, rfl, rfl, rfl⟩, fun _ _ _ hid => hid⟩
  intro id' g hg huse
  by_cases hid : id' = id
  · subst hid
    obtain ⟨hdel, ht⟩ := h g hg huse
    exact ⟨row, by simp [group, hdel], ht⟩
  · exact ⟨g, by simpa only [group, update_of_ne hid] using hg, rfl⟩

lemma extends_updateGroup {id : ℤ} {name : Option Str} {targetID templateID : Option ℤ}
    (hsafe : Safe s (.updateGroup id name targetID templateID)) :
    Extends s (s.store.updateGroup id name targetID templateID).1 := by
  unfold updateGroup
  split
  · exact extends_of_eq rfl rfl
  · rename_i g hg
    split_ifs with hguard
    · refine extends_update id _ fun g' hg' huse => ?_
      rw [hg] at hg'
      cases hg'
      have hlive : g.deleted = false := by
        simp only [group, filter_eq_some_iff, Bool.not_eq_true'] at hg
        exact hg.2
      refine ⟨hlive, ?_⟩
      rcases huse with hbetween | hagents
      · exact hsafe hbetween g hg
      · simpa [hagents] using hguard
    · exact extends_of_eq rfl rfl

lemma extends_stampDeleted {id now : ℤ} (hsafe : Safe s (.stampDeleted id now)) :
    Extends s (s.store.stampDeleted id now).1 := by
  unfold stampDeleted
  split
  · exact extends_of_eq rfl rfl
  · split_ifs with hguard
    · exact extends_of_eq rfl rfl
    · refine extends_update id _ fun g' _ huse => ?_
      simp only [Bool.or_eq_true, not_or, Bool.not_eq_true] at hguard
      rcases huse with hbetween | hagents
      · exact absurd hbetween hsafe
      · rw [hguard.1] at hagents
        cases hagents

lemma extends_createGroup {id : ℤ} (hid : s.store.groups id = none) (name : Str)
    (targetID templateID : ℤ) : Extends s (s.store.createGroup id name targetID templateID) := by
  refine extends_update id _ fun g hg => ?_
  simp [group, hid] at hg

end Extends

section Steps
variable {s : Enrollments}

lemma inv_createAgent (h : Inv s) {i : ℕ} {groupID targetID : ℤ}
    (hi : s.enrolling i = some (.readTarget groupID targetID)) {id : Str} {st : Store}
    (hst : s.store.createAgent id groupID = some st) :
    Inv ((s.setStore st).setEnrolling i (some (.created id targetID))) := by
  obtain ⟨g, hg, hgt⟩ : ∃ g, s.store.group groupID = some g ∧ g.targetID = targetID := h.knows i _ hi
  unfold createAgent at hst
  split_ifs at hst with hfree
  cases hst
  simp only [List.any_eq_true, decide_eq_true_eq, not_exists, not_and] at hfree
  have hnone : ∀ j, ¬ Owns s j id := fun j hj => by
    obtain ⟨a, ha, hid⟩ := h.exists_agent j id hj
    exact hfree a ha hid
  refine ⟨?_, ?_, ?_, ?_⟩
  · intro a ha hr
    rcases mem_cons.1 ha with rfl | ha
    · exact ⟨g, hg, fun t ht => by cases ht⟩
    · exact h.placed a ha hr
  · intro j e hj
    simp only [Enrollments.setEnrolling, update_apply] at hj
    split_ifs at hj with hji
    · cases hj
      intro a ha hid hr
      rcases mem_cons.1 ha with rfl | ha
      · exact ⟨g, hg, hgt⟩
      · exact absurd hid (hfree a ha)
    · have hk := h.knows j e hj
      cases e with
      | created id' t =>
        intro a ha hid hr
        rcases mem_cons.1 ha with rfl | ha
        · have hown : Owns s j id' := by
            rw [Owns, show s.enrolling j = _ from hj]
            rfl
          exact absurd ((show id = id' from hid) ▸ hown) (hnone j)
        · exact hk a ha hid hr
      | _ => exact hk
  · intro j id' hj
    rw [owns_setEnrolling] at hj
    split_ifs at hj
    · cases hj
      exact ⟨_, mem_cons_self, rfl⟩
    · obtain ⟨a, ha, hid⟩ := h.exists_agent j id' hj
      exact ⟨a, mem_cons_of_mem _ ha, hid⟩
  · intro j k id' hj hk
    rw [owns_setEnrolling] at hj hk
    split_ifs at hj hk with hji hki hki
    · rw [hji, hki]
    · cases hj
      exact absurd hk (hnone k)
    · cases hk
      exact absurd hj (hnone j)
    · exact h.owner_unique j k id' hj hk

lemma inv_provision (h : Inv s) {i : ℕ} {id : Str} {targetID : ℤ}
    (hi : s.enrolling i = some (.created id targetID)) :
    Inv ((s.setStore (s.store.modifyAgent id fun a => { a with repo := some targetID })).setEnrolling
      i (some (.provisioned id))) := by
  have hkn : Knows s.store (.created id targetID) := h.knows i _ hi
  have hown : Owns s i id := by
    rw [Owns, hi]
    rfl
  have hmod : Inv (s.setStore (s.store.modifyAgent id fun a => { a with repo := some targetID })) := by
    refine ⟨?_, ?_, ?_, h.owner_unique⟩
    · intro a ha hr
      obtain ⟨a', ha', rfl⟩ := mem_map.1 ha
      split_ifs at hr ⊢ with hid
      · obtain ⟨g, hg, ht⟩ := hkn a' ha' hid hr
        refine ⟨g, hg, fun t hat => ?_⟩
        cases hat
        exact ht
      · exact h.placed a' ha' hr
    · intro j e hj
      have hk := h.knows j e hj
      cases e with
      | created id' t =>
        intro a ha hid hr
        obtain ⟨a', ha', rfl⟩ := mem_map.1 ha
        split_ifs at hid hr ⊢
        · exact hk a' ha' hid hr
        · exact hk a' ha' hid hr
      | _ => exact hk
    · intro j id' hj
      obtain ⟨a, ha, hid⟩ := h.exists_agent j id' hj
      refine ⟨_, mem_map_of_mem ha, ?_⟩
      split_ifs
      · exact hid
      · exact hid
  refine hmod.setEnrolling (fun e he => ?_) fun id' hid' => ?_
  · cases he
    trivial
  · cases hid'
    exact hown

lemma inv_cleanup (h : Inv s) {i : ℕ} {id : Str} (hi : s.enrolling i = some (.failed id)) (ok : Bool) :
    Inv ((if ok then s.setStore (s.store.deleteAgent id) else s).setEnrolling i none) := by
  have hown : Owns s i id := by
    rw [Owns, hi]
    rfl
  have hdone : Inv (s.setEnrolling i none) := h.setEnrolling (by simp) (by simp)
  split_ifs
  · refine hdone.setStore (extends_deleteAgent fun j hj => ?_)
    rw [owns_setEnrolling] at hj
    split_ifs at hj with hji
    · cases hj
    · exact hji (h.owner_unique j i id hj hown)
  · exact hdone

lemma inv_step {s' : Enrollments} {a : EnrollAction} (h : Inv s) (hsafe : Safe s a)
    (hs : step s a = some s') : Inv s' := by
  cases a <;> simp only [step] at hs
  case consume i tokenID now =>
    split_ifs at hs with hi
    split at hs
    · rename_i g st hg hst
      cases hs
      have hst' : st = (s.store.consumeToken tokenID now).1 := by rw [hst]
      refine (h.setStore (extends_of_eq ?_ ?_)).setEnrolling (fun e he => ?_) (by simp [agentOf])
      · rw [hst']
        rfl
      · rw [hst']
        rfl
      · cases he
        trivial
    · cases hs
      exact h
  case readGroup i =>
    split at hs
    · rename_i g hi
      cases hs
      refine h.setEnrolling (fun e he => ?_) fun id hid => ?_
      · obtain ⟨row, hrow, rfl⟩ := map_eq_some_iff.1 he
        exact ⟨row, hrow, rfl⟩
      · rcases hrow : s.store.group g with _ | row <;> rw [hrow] at hid <;> cases hid
    · cases hs
  case readTarget i ok =>
    split at hs
    · rename_i g t hi
      cases hs
      refine h.setEnrolling (fun e he => ?_) fun id hid => ?_
      · split_ifs at he
        cases he
        exact h.knows i (.readGroup g t) hi
      · split_ifs at hid <;> cases hid
    · cases hs
  case createAgent i id ok =>
    split at hs
    · rename_i g t hi
      split at hs
      · rename_i st hst
        cases hs
        split_ifs at hst
        exact inv_createAgent h hi hst
      · cases hs
        exact h.setEnrolling (by simp) (by simp)
    · cases hs
  case provision i ok =>
    split at hs
    · rename_i id t hi
      split_ifs at hs
      · cases hs
        exact inv_provision h hi
      · cases hs
        refine h.setEnrolling (fun e he => ?_) fun id' hid' => ?_
        · cases he
          trivial
        · cases hid'
          rw [Owns, hi]
          rfl
    · cases hs
  case setBundle i ok =>
    split at hs
    · rename_i id hi
      cases hs
      refine h.setEnrolling (fun e he => ?_) fun id' hid' => ?_
      · split_ifs at he
        cases he
        trivial
      · rw [Owns, hi]
        split_ifs at hid'
        · cases hid'
        · exact hid'
    · cases hs
  case cleanup i ok =>
    split at hs
    · cases hs
      exact inv_cleanup h ‹_› ok
    · cases hs
  case createGroup id name targetID templateID =>
    split_ifs at hs with hid
    cases hs
    exact h.setStore (extends_createGroup hid name targetID templateID)
  case updateGroup id name targetID templateID =>
    cases hs
    exact h.setStore (extends_updateGroup hsafe)
  case deleteStaleTokens id now =>
    cases hs
    exact h.setStore (extends_of_eq rfl rfl)
  case stampDeleted id now =>
    cases hs
    exact h.setStore (extends_stampDeleted hsafe)
  case createToken t =>
    cases hs
    exact h.setStore (extends_of_eq rfl rfl)
  case revokeToken id =>
    cases hs
    exact h.setStore (extends_of_eq rfl rfl)
  case revokeAgent id =>
    cases hs
    exact h.setStore (extends_modifyAgent id (fun _ => rfl) fun a hr => ⟨hr, rfl, rfl⟩)
  case retireAgent id =>
    cases hs
    refine h.setStore (extends_modifyAgent id (fun a => ?_) fun a hr => ?_)
    · split_ifs <;> rfl
    · split_ifs at hr ⊢
      exact ⟨hr, rfl, rfl⟩

end Steps

/-- A fleet whose agents are placed, with no enrollment in flight. -/
def Quiet (s : Enrollments) : Prop := AllPlaced s ∧ ∀ i, s.enrolling i = none

instance (st : Store) (a : Agent) : Decidable (Placed st a) :=
  inferInstanceAs (Decidable (∃ g ∈ st.group a.groupID, _))

instance (s : Enrollments) : Decidable (AllPlaced s) :=
  inferInstanceAs (Decidable (∀ a ∈ s.store.agents, _))

def sample : Enrollments where
  store := ⟨Function.update (fun _ => none) 1 (some ⟨str "g", 10, 0, false⟩), [⟨5, 1, 100, 1, 0, false⟩],
    []⟩
  enrolling := fun _ => none

lemma sample_quiet : Quiet sample := ⟨by decide, fun _ => rfl⟩

/-- Whether a step leaves the groups alone. -/
def LeavesGroups (_ : Enrollments) : EnrollAction → Prop
  | .updateGroup .. | .stampDeleted .. => False
  | _ => True

instance (s : Enrollments) : ∀ a, Decidable (LeavesGroups s a)
  | .updateGroup .. | .stampDeleted .. => isFalse id
  | .consume .. | .readGroup _ | .readTarget .. | .createAgent .. | .provision .. | .setBundle ..
  | .cleanup .. | .createGroup .. | .deleteStaleTokens .. | .createToken _ | .revokeToken _
  | .revokeAgent _ | .retireAgent _ => isTrue trivial

end Enrollments

end Warphold.Fleet
