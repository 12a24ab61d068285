import Warphold.Fleet.Poll
import Warphold.Lib.Runs

/-!
# The stored status of an agent

The stored version and policy tag are those of the last poll as long as what a request writes back
is still current. A report that read the row before a poll wrote it takes that poll's values away.
-/

namespace Warphold.Fleet.AgentStatus

variable {s s' : AgentStatus} {a : StatusAction}

/-- What the request writes back of the row it read is what the row still has. -/
def Current (s : AgentStatus) : StatusAction → Prop
  | .touchAgent i => ∀ r a, s.inFlight i = some (r, a) → r.touch a = r.touch s.row
  | _ => True

lemma step_polled_iff (h : s.row = s.polled) (hstep : s.step a = some s') :
    s'.row = s'.polled ↔ s.Current a := by
  cases a with
  | requireAgent i r =>
    simp only [step] at hstep
    split at hstep <;> cases hstep
    exact iff_of_true h trivial
  | touchAgent i =>
    simp only [step] at hstep
    split at hstep <;> cases hstep
    next r a hi =>
    simp only [Current, hi, Option.some.injEq, Prod.mk.injEq, and_imp, ← h]
    exact ⟨fun hr _ _ er ea => er ▸ ea ▸ hr, fun hr => hr r a rfl rfl⟩
  | giveUp i =>
    simp only [step] at hstep
    split at hstep <;> cases hstep
    exact iff_of_true h trivial

end Warphold.Fleet.AgentStatus
