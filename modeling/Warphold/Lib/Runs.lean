import Mathlib

/-!
# Runs of a transition system

A system is a partial step function on states and actions: `step s a = none` when `a` cannot happen
in `s`. All that a scheduler, a crash or a failing disk decides is in the action, so a run is a list
of actions.

`Reach step ok init s` says that `s` is reached from a state in `init` by steps that each met the
condition `ok` in the state they were taken in; an invariant need only be kept by such steps.
-/

namespace Runs

variable {σ α : Type*} (step : σ → α → Option σ) (ok : σ → α → Prop) (init : σ → Prop)

inductive Reach : σ → Prop where
  | init {s : σ} : init s → Reach s
  | step {s s' : σ} {a : α} : Reach s → ok s a → step s a = some s' → Reach s'

def Free : σ → α → Prop := fun _ _ => True

variable {step ok init}

lemma Reach.invariant {Inv : σ → Prop} (h0 : ∀ s, init s → Inv s)
    (hstep : ∀ s a s', Inv s → ok s a → step s a = some s' → Inv s') {s : σ}
    (h : Reach step ok init s) : Inv s := by
  induction h with
  | init hi => exact h0 _ hi
  | step _ hok hs ih => exact hstep _ _ _ ih hok hs

lemma Reach.mono {ok' : σ → α → Prop} (hok : ∀ s a, ok s a → ok' s a) {s : σ}
    (h : Reach step ok init s) : Reach step ok' init s := by
  induction h with
  | init hi => exact .init hi
  | step _ hk hs ih => exact .step ih (hok _ _ hk) hs

variable (step ok) in
/-- The state after a list of actions that each meet the condition where they are taken. -/
def run [∀ s a, Decidable (ok s a)] (s : σ) (as : List α) : Option σ :=
  as.foldlM (fun s a => if ok s a then step s a else none) s

lemma reach_of_run [∀ s a, Decidable (ok s a)] : ∀ (as : List α) {s s' : σ},
    Reach step ok init s → run step ok s as = some s' → Reach step ok init s'
  | [], s, s', h, hrun => by
    simp only [run, List.foldlM_nil, Option.pure_def, Option.some.injEq] at hrun
    exact hrun ▸ h
  | a :: as, s, s', h, hrun => by
    simp only [run, List.foldlM_cons, Option.bind_eq_bind, Option.bind_eq_some_iff] at hrun
    obtain ⟨s₁, h₁, h₂⟩ := hrun
    split_ifs at h₁ with hok
    exact reach_of_run as (.step h hok h₁) h₂

lemma exists_reach [∀ s a, Decidable (ok s a)] {P : σ → Prop} {s : σ} (h : init s) (as : List α)
    (hrun : ∃ s' ∈ run step ok s as, P s') : ∃ s', Reach step ok init s' ∧ P s' := by
  obtain ⟨s', hs, hp⟩ := hrun
  exact ⟨s', reach_of_run as (.init h) hs, hp⟩

lemma exists_run_with [∀ s a, Decidable (ok s a)] {P Q : σ → Prop} {s : σ} {as : List α}
    (h : init s) (hrun : ∃ s' ∈ run step ok s as, P s')
    (hQ : ∀ s', Reach step ok init s' → P s' → Q s') :
    ∃ s', run step ok s as = some s' ∧ P s' ∧ Q s' := by
  obtain ⟨s', hs, hp⟩ := hrun
  exact ⟨s', hs, hp, hQ s' (reach_of_run as (.init h) hs) hp⟩

lemma exists_reach_with [∀ s a, Decidable (ok s a)] {P Q : σ → Prop} {s : σ} (h : init s)
    (as : List α) (hrun : ∃ s' ∈ run step ok s as, P s')
    (hQ : ∀ s', Reach step ok init s' → P s' → Q s') : ∃ s', Reach step ok init s' ∧ P s' ∧ Q s' := by
  obtain ⟨s', hs, hp⟩ := exists_reach h as hrun
  exact ⟨s', hs, hp, hQ s' hs hp⟩

instance (s : σ) (a : α) : Decidable (Free s a) := isTrue trivial

lemma update_eq_some {ι β : Type*} [DecidableEq ι] {f : ι → Option β} {i j : ι} {v : Option β}
    {x : β} (h : Function.update f i v j = some x) : (j = i ∧ v = some x) ∨ (j ≠ i ∧ f j = some x) := by
  by_cases hj : j = i
  · subst hj
    rw [Function.update_self] at h
    exact Or.inl ⟨rfl, h⟩
  · rw [Function.update_of_ne hj] at h
    exact Or.inr ⟨hj, h⟩

end Runs
