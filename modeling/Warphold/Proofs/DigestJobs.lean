import Warphold.Fleet.Digest

/-!
# The kinds a digest lists as failing

The digest reads the rows of a kind from the newest one on and stops at the first that is not an
error, finished or not.
-/

namespace Warphold.Fleet.Digest

variable {t : Jobs} {kind : Kind} {now : ℤ} {rows runs : List Job}

def newestFirst (t : Jobs) (kind : Kind) : List Job := t.rows.reverse.filter fun j => j.kind = kind

def finished (rows : List Job) : List Job := rows.filter fun j => !j.status.outstanding

def failed (j : Job) : Bool := j.status = .error

def finishTime (j : Job) : ℤ := j.finishedAt.getD 0

/-- The rows finished in the order they were inserted, and an unfinished one stands behind a finished
run that was no error. -/
structure Steady (rows : List Job) : Prop where
  ordered : (finished rows).Pairwise fun i j => finishTime j < finishTime i
  behind : ∀ l₁ j l₂, rows = l₁ ++ j :: l₂ → j.status.outstanding = true →
    ∃ i ∈ l₁, i.status.outstanding = false ∧ failed i = false

/-- The runs of a kind in the order they finished, the last one first. -/
structure FinishOrder (rows runs : List Job) : Prop where
  perm : runs.Perm (finished rows)
  sorted : runs.Pairwise fun i j => finishTime j ≤ finishTime i

/-- The series of failed runs at the end of a kind's history began long enough ago. -/
def Failing (now : ℤ) (runs : List Job) : Prop :=
  ∃ oldest, (runs.takeWhile failed).getLast? = some oldest
    ∧ failingFor ≤ now - parseTS oldest.scheduledFor

instance (now : ℤ) (runs : List Job) : Decidable (Failing now runs) :=
  inferInstanceAs (Decidable (∃ oldest ∈ (runs.takeWhile failed).getLast?, _))

lemma FinishOrder.eq (h : FinishOrder rows runs) (hs : Steady rows) : runs = finished rows := by
  have hnodup : ((finished rows).map finishTime).Nodup :=
    List.pairwise_map.2 (hs.ordered.imp fun hlt => hlt.ne')
  refine h.perm.eq_of_pairwise (fun i j hi hj hij hji => ?_) h.sorted (hs.ordered.imp fun h => h.le)
  exact List.inj_on_of_nodup_map hnodup (h.perm.mem_iff.1 hi) hj (le_antisymm hji hij)

lemma takeWhile_finished : ∀ rows : List Job,
    (∀ l₁ j l₂, rows = l₁ ++ j :: l₂ → j.status.outstanding = true →
      ∃ i ∈ l₁, i.status.outstanding = false ∧ failed i = false) →
    (finished rows).takeWhile failed = rows.takeWhile failed
  | [], _ => rfl
  | j :: rows, h => by
    have hj : j.status.outstanding = false := by
      by_contra hj
      obtain ⟨i, hi, -⟩ := h [] j rows rfl (by simpa using hj)
      cases hi
    by_cases hf : failed j = true
    · have ih := takeWhile_finished rows fun l₁ k l₂ hrows hk => by
        obtain ⟨i, hi, hfin, hok⟩ := h (j :: l₁) k l₂ (by rw [hrows, List.cons_append]) hk
        rcases List.mem_cons.1 hi with rfl | hi
        · rw [hf] at hok
          cases hok
        · exact ⟨i, hi, hfin, hok⟩
      simp only [finished] at ih ⊢
      simp [hj, hf, ih]
    · simp [finished, hj, hf]

lemma digestKindResult_iff (hlen : (newestFirst t kind).length ≤ failingLookback) :
    (digestKindResult t kind now).2 = true ↔ Failing now (newestFirst t kind) := by
  have hrecent : t.recentJobs kind failingLookback = newestFirst t kind :=
    List.take_of_length_le hlen
  unfold digestKindResult Failing
  rw [hrecent]
  rcases newestFirst t kind with _ | ⟨last, recent⟩
  · simp
  · by_cases hl : last.status = .error
    · have hwhile : (last :: recent).takeWhile failed = last :: recent.takeWhile failed := by
        simp [failed, hl]
      have hfailed : (fun j : Job => decide (j.status = .error)) = failed := rfl
      simp [hl, hfailed, hwhile, List.getLast?_cons]
    · simp [hl, failed]

section Sample

def sampleJob : Job := ⟨1, .reap, none, 0, some 0, some 0, .error⟩

def failedOnce : Jobs := ⟨[sampleJob], by simp⟩

end Sample

end Warphold.Fleet.Digest
