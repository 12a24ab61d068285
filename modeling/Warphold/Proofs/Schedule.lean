import Warphold.Policy.Schedule

/-!
# The next snapshot is the earliest

Around an instant where the zone keeps its offset, adding a day to a time of day leads to the next one
(`localSnapshotTime_isLeast`).
-/

namespace Warphold.Schedule

open List SchedulingPolicy

/-- The instants from `now` on at which the wall clock shows one of the times. -/
def shown (z : Zone) (now : ℤ) (tods : List TimeOfDay) : Set ℤ :=
  {t | now ≤ t ∧ t % second = 0 ∧ ∃ tod ∈ tods, z.wallClock t % 86400 = tod.seconds}

/-- The zone keeps its offset for four days before and after an instant. -/
def Zone.Steady (z : Zone) (now : ℤ) : Prop :=
  ∃ c, -86400 ≤ c ∧ c ≤ 86400 ∧ ∀ t, now / second - 345600 ≤ t → t ≤ now / second + 345600 → z t = c

def TimeOfDay.Valid (tod : TimeOfDay) : Prop :=
  0 ≤ tod.hour ∧ tod.hour < 24 ∧ 0 ≤ tod.minute ∧ tod.minute < 60

variable {z : Zone} {next : Str → ℤ → Option ℤ} {p : SchedulingPolicy} {previous now : ℤ}

lemma localSnapshotTime_isLeast (hz : z.Steady now) {tod : TimeOfDay} (hv : tod.Valid) :
    IsLeast (shown z now [tod]) (localSnapshotTime z now tod) := by
  obtain ⟨c, hlo, hhi, hc⟩ := hz
  have hs : 0 ≤ tod.seconds ∧ tod.seconds < 86400 := by
    obtain ⟨h₁, h₂, h₃, h₄⟩ := hv
    simp only [TimeOfDay.seconds]
    omega
  have hnow := hc (now / second) (by omega) (by omega)
  have hwall : ∀ t, now ≤ t → t ≤ now + 2 * oneDay → z.wallClock t = t / second + c := by
    intro t hle hge
    simp only [oneDay, second] at hc hge ⊢
    rw [Zone.wallClock, second, hc _ (by omega) (by omega)]
  have hdate : z.date (z.wallClock now / 86400 * 86400 + tod.seconds)
      = (now / second + c) / 86400 * 86400 + tod.seconds - c := by
    simp only [Zone.date, Zone.wallClock, hnow]
    rw [hc _ (by omega) (by omega), hc _ (by omega) (by omega)]
    split_ifs <;> omega
  have hnext : now ≤ localSnapshotTime z now tod ∧ localSnapshotTime z now tod < now + oneDay
      ∧ localSnapshotTime z now tod % second = 0
      ∧ (localSnapshotTime z now tod / second + c) % 86400 = tod.seconds := by
    simp only [localSnapshotTime, hdate, oneDay, second]
    split_ifs <;> omega
  obtain ⟨hge, hlt, hsec, hshow⟩ := hnext
  refine ⟨⟨hge, hsec, tod, mem_singleton_self tod, ?_⟩, ?_⟩
  · rw [hwall _ hge (by simp only [oneDay, second] at hlt ⊢; omega), hshow]
  · rintro t ⟨hnow', hsec', tod', htod', hshow'⟩
    rw [mem_singleton.1 htod'] at hshow'
    by_contra hbefore
    rw [hwall t hnow' (by simp only [oneDay, second] at hlt ⊢; omega)] at hshow'
    simp only [oneDay, second] at *
    omega

lemma getNextTimeOfDaySnapshot_iff (hz : z.Steady now) (hv : ∀ tod ∈ p.timesOfDay, tod.Valid)
    (t : ℤ) : p.getNextTimeOfDaySnapshot z now = some t ↔ IsLeast (shown z now p.timesOfDay) t := by
  have hleast := fun tod htod => localSnapshotTime_isLeast hz (hv tod htod)
  have hmp : ∀ t, p.getNextTimeOfDaySnapshot z now = some t →
      IsLeast (shown z now p.timesOfDay) t := by
    intro t ht
    obtain ⟨hmem, hmin⟩ := min?_eq_some_iff.1 ht
    obtain ⟨tod, htod, rfl⟩ := mem_map.1 hmem
    obtain ⟨⟨hge, hsec, tod', htod', hshow⟩, -⟩ := hleast tod htod
    refine ⟨⟨hge, hsec, tod, htod, mem_singleton.1 htod' ▸ hshow⟩, ?_⟩
    rintro t' ⟨hge', hsec', tod', htod', hshow'⟩
    exact (hmin _ (mem_map_of_mem htod')).trans
      ((hleast tod' htod').2 ⟨hge', hsec', tod', mem_singleton_self tod', hshow'⟩)
  refine ⟨hmp t, fun h => ?_⟩
  obtain ⟨-, -, tod, htod, -⟩ := h.1
  have hne : p.timesOfDay.map (localSnapshotTime z now) ≠ [] :=
    ne_nil_of_mem (mem_map_of_mem htod)
  obtain ⟨t', ht'⟩ := Option.isSome_iff_exists.1 (isSome_min?_of_ne_nil hne)
  rw [getNextTimeOfDaySnapshot, ht', (hmp t' ht').unique h]

section Midnight

def midnight : SchedulingPolicy := { timesOfDay := [⟨0, 0⟩] }

/-- A zone that goes back from two hours to one: the day at its change has 25 hours. -/
def fallBack : Zone := fun t => if t < 36000 then 7200 else 3600

end Midnight

end Warphold.Schedule
