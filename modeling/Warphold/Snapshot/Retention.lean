import Warphold.Lib.Time

/-!
# Snapshot retention

`ComputeRetentionReasons` goes once over the snapshots of a source, the newest first, and gives each
the reasons it is retained for; what is left without a reason and is not pinned expires. All kinds of
periods share one set of period ids. Times are in nanoseconds.
-/

namespace Warphold.Retention

structure Manifest where
  id : Str
  startTime : Int64
  endTime : Int64
  incompleteReason : Str
  pins : List Str
  deriving DecidableEq

namespace Manifest

def complete (m : Manifest) : Bool := m.incompleteReason = []

def newer (a b : Manifest) : Bool :=
  b.startTime.toInt < a.startTime.toInt
    || (a.startTime = b.startTime && b.endTime.toInt < a.endTime.toInt)

end Manifest

/-- What `SortByTime(manifests, true)` may return: the order of equal times is not determined. -/
structure SortByTime (manifests : List Manifest) where
  sorted : List Manifest
  perm : sorted.Perm manifests
  order : sorted.Pairwise fun a b => b.newer a = false

inductive Kind where
  | latest
  | annual
  | monthly
  | weekly
  | daily
  | hourly
  deriving DecidableEq, Repr

def Kind.all : List Kind := [.latest, .annual, .monthly, .weekly, .daily, .hourly]

/-- A reason is printed as the kind of period and the number, or as `incomplete`. -/
inductive Reason where
  | period (kind : Kind) (n : ℤ)
  | incomplete
  deriving DecidableEq, Repr

structure RetentionPolicy where
  keepLatest : Option ℤ
  keepHourly : Option ℤ
  keepDaily : Option ℤ
  keepWeekly : Option ℤ
  keepMonthly : Option ℤ
  keepAnnual : Option ℤ

/-- What the local time zone decides. Periods are formatted in UTC except for the week. -/
structure Zone where
  isoWeek : ℤ → ℤ × ℤ
  addDate : ℤ → ℤ → ℤ → ℤ → ℤ

def Zone.utc : Zone := ⟨DateTime.isoWeek, DateTime.addDate⟩

def zeroPadded (w : ℕ) (n : ℤ) : Str :=
  let s := Strconv.formatInt n.natAbs
  if n < 0 then 45 :: (List.replicate (w - 1 - s.length) 48 ++ s)
  else List.replicate (w - s.length) 48 ++ s

def timePeriodID (z : Zone) (i : ℕ) (s : Manifest) (k : Kind) : Str :=
  let t := DateTime.ofUnixNano s.startTime.toInt
  let year := DateTime.padded 4 t.year
  let month := year ++ [45] ++ DateTime.padded 2 t.month
  let day := month ++ [45] ++ DateTime.padded 2 t.day
  match k with
  | .latest => Strconv.formatInt i
  | .annual => year
  | .monthly => month
  | .weekly =>
    zeroPadded 4 (z.isoWeek s.startTime.toInt).1 ++ [45]
      ++ zeroPadded 2 (z.isoWeek s.startTime.toInt).2
  | .daily => day
  | .hourly => day ++ [32] ++ DateTime.padded 2 t.hour

def zeroTime : ℤ := -62135596800 * 10 ^ 9

def hour : ℤ := 3600 * 10 ^ 9

namespace RetentionPolicy

variable (r : RetentionPolicy)

/-- `EffectiveKeepLatest`; the sum is one of 64-bit integers. -/
def effectiveKeepLatest : Option ℤ :=
  if (r.keepLatest.getD 0 + r.keepHourly.getD 0 + r.keepDaily.getD 0 + r.keepWeekly.getD 0
      + r.keepMonthly.getD 0 + r.keepAnnual.getD 0).bmod (2 ^ 64) = 0 then some (2 ^ 63 - 1)
  else r.keepLatest

def max : Kind → Option ℤ
  | .latest => r.effectiveKeepLatest
  | .annual => r.keepAnnual
  | .monthly => r.keepMonthly
  | .weekly => r.keepWeekly
  | .daily => r.keepDaily
  | .hourly => r.keepHourly

/-- The cutoff of a kind; a number of hours is a 64-bit number of nanoseconds. -/
def cutoff (z : Zone) (maxCompleteStartTime : ℤ) (k : Kind) : ℤ :=
  let cutoffTime (setting : Option ℤ) (ago : ℤ → ℤ) : ℤ :=
    match setting with
    | some n => ago n
    | none => maxCompleteStartTime + 365 * 24 * hour
  match k with
  | .latest => zeroTime
  | .annual => cutoffTime r.keepAnnual fun n => z.addDate maxCompleteStartTime (-n) 0 0
  | .monthly => cutoffTime r.keepMonthly fun n => z.addDate maxCompleteStartTime 0 (-n) 0
  | .weekly => cutoffTime r.keepWeekly fun n => z.addDate maxCompleteStartTime 0 0 (-n * 7)
  | .daily => cutoffTime r.keepDaily fun n => z.addDate maxCompleteStartTime 0 0 (-n)
  | .hourly => cutoffTime r.keepHourly fun n => maxCompleteStartTime + (-n * hour).bmod (2 ^ 64)

end RetentionPolicy

structure Tally where
  ids : List Str
  idCounters : Kind → ℤ

section Compute

variable (z : Zone) (r : RetentionPolicy) (maxCompleteStartTime : ℤ)

def considerCase (i : ℕ) (s : Manifest) (st : Tally × List Reason) (k : Kind) :
    Tally × List Reason :=
  match r.max k with
  | none => st
  | some n =>
    if s.startTime.toInt < r.cutoff z maxCompleteStartTime k then st
    else if timePeriodID z i s k ∈ st.1.ids then st
    else if st.1.idCounters k < n then
      (⟨timePeriodID z i s k :: st.1.ids,
        Function.update st.1.idCounters k (st.1.idCounters k + 1)⟩,
        st.2 ++ [.period k (st.1.idCounters k + 1)])
    else st

def getRetentionReasons (i : ℕ) (s : Manifest) (t : Tally) : Tally × List Reason :=
  if s.complete then Kind.all.foldl (considerCase z r maxCompleteStartTime i s) (t, []) else (t, [])

def reasonsFrom : ℕ → List Manifest → Tally → List (Manifest × List Reason)
  | _, [], _ => []
  | i, s :: rest, t =>
    let res := getRetentionReasons z r maxCompleteStartTime i s t
    (s, res.2) :: reasonsFrom (i + 1) rest res.1

end Compute

/-- Incomplete snapshots before the first complete one are kept while they are young or few. -/
def keepIncomplete (maxStartTime : ℤ) :
    ℕ → List (Manifest × List Reason) → List (Manifest × List Reason)
  | _, [] => []
  | i, (s, reasons) :: rest =>
    if s.complete then (s, reasons) :: rest
    else if maxStartTime - s.startTime.toInt < 4 * hour ∨ i < 3 then
      (s, reasons ++ [.incomplete]) :: keepIncomplete maxStartTime (i + 1) rest
    else (s, reasons) :: rest

def maxStartTime (manifests : List Manifest) : ℤ :=
  manifests.foldl (fun t m => max t m.startTime.toInt) zeroTime

/-- `ComputeRetentionReasons`: the snapshots in the order they are gone through, each with its
reasons. -/
def computeRetentionReasons (z : Zone) (r : RetentionPolicy) {manifests : List Manifest}
    (s : SortByTime manifests) : List (Manifest × List Reason) :=
  keepIncomplete (maxStartTime manifests) 0
    (reasonsFrom z r (maxStartTime (manifests.filter (·.complete))) 0 s.sorted ⟨[], fun _ => 0⟩)

def getExpiredSnapshotsForSource (z : Zone) (r : RetentionPolicy) {manifests : List Manifest}
    (s : SortByTime manifests) : List Str :=
  ((computeRetentionReasons z r s).filter fun x => x.2 = [] && x.1.pins = []).map (·.1.id)

end Warphold.Retention
