import Warphold.Fleet.Jobs

/-!
# The jobs of a digest

What the digest says of one kind of job: how its newest row ended, and whether it has been failing.
-/

namespace Warphold.Fleet.Digest

def failingFor : ℤ := 7 * 24 * Scheduler.hour

def failingLookback : ℕ := 300

/-- A line of the digest: the status (`none` for "never run") and the age of the outcome (`none` for
"in progress"). -/
structure DigestJobResult where
  kind : Kind
  status : Option JobStatus
  since : Option ℤ
  deriving DecidableEq

/-- `digestKindResult`: the line, and whether the kind is listed as failing. -/
def digestKindResult (t : Jobs) (kind : Kind) (now : ℤ) : DigestJobResult × Bool :=
  match t.recentJobs kind failingLookback with
  | [] => (⟨kind, none, none⟩, false)
  | last :: recent =>
    let result := ⟨kind, some last.status, last.finishedAt.map fun at_ => now - parseTS at_⟩
    if last.status ≠ .error then (result, false)
    else
      let oldest := ((last :: recent).takeWhile fun j => j.status = .error).getLastD last
      (result, decide (failingFor ≤ now - parseTS oldest.scheduledFor))

end Warphold.Fleet.Digest
