import Warphold.Lib.Strings

/-!
# The next snapshot

Instants are in nanoseconds. The local zone is its offset from UTC at each second; the expressions of
the cron library are a function, which returns nothing for one that is invalid or has no next time.
-/

namespace Warphold.Schedule

abbrev Zone := ℤ → ℤ

def second : ℤ := 10 ^ 9

def oneDay : ℤ := 86400 * second

def halfhour : ℤ := 1800 * second

/-- The seconds from the zero time, which `Truncate` counts from, to 1970. -/
def zeroTime : ℤ := 62135596800

def truncate (t d : ℤ) : ℤ := if d ≤ 0 then t else t - (t + zeroTime * second) % d

structure TimeOfDay where
  hour : ℤ
  minute : ℤ

def TimeOfDay.seconds (tod : TimeOfDay) : ℤ := tod.hour * 3600 + tod.minute * 60

structure SchedulingPolicy where
  intervalSeconds : ℤ := 0
  timesOfDay : List TimeOfDay := []
  manual : Bool := false
  cron : List Str := []
  runMissed : Bool := false

/-- `time.Date`: the offset is looked up at the local time taken as UTC, and once more where that
leads to. -/
def Zone.date (z : Zone) (wall : ℤ) : ℤ := if z wall = 0 then wall else wall - z (wall - z wall)

def Zone.wallClock (z : Zone) (t : ℤ) : ℤ := t / second + z (t / second)

variable (z : Zone) (next : Str → ℤ → Option ℤ) (p : SchedulingPolicy)

def localSnapshotTime (now : ℤ) (tod : TimeOfDay) : ℤ :=
  let t := z.date (z.wallClock now / 86400 * 86400 + tod.seconds) * second
  if t < now then t + oneDay else t

def SchedulingPolicy.getNextTimeOfDaySnapshot (now : ℤ) : Option ℤ :=
  (p.timesOfDay.map (localSnapshotTime z now)).min?

def SchedulingPolicy.getNextCronSnapshot (now : ℤ) : Option ℤ :=
  (p.cron.filterMap (next · now)).min?

def SchedulingPolicy.intervalSnapshot (previous now : ℤ) : Option ℤ :=
  if p.intervalSeconds = 0 then none
  else
    let interval := p.intervalSeconds * second
    some (max now (truncate (previous + interval) interval))

def SchedulingPolicy.candidates (previous now : ℤ) : List ℤ :=
  (p.intervalSnapshot previous now).toList ++ (p.getNextTimeOfDaySnapshot z now).toList
    ++ (p.getNextCronSnapshot next now).toList

/-- A second is added so that the next possible snapshot is after the last one. -/
def SchedulingPolicy.checkMissedSnapshot (now previous nextSnapshot : ℤ) : Bool :=
  let after := (p.getNextTimeOfDaySnapshot z (previous + second)).toList
    ++ (p.getNextCronSnapshot next (previous + second)).toList
  p.runMissed && after ≠ [] && after.foldl min nextSnapshot < now && now + halfhour < nextSnapshot

def SchedulingPolicy.nextSnapshotTime (previous now : ℤ) : Option ℤ :=
  if p.manual then none
  else (p.candidates z next previous now).min?.map fun t =>
    if p.checkMissedSnapshot z next now previous t then now else t

end Warphold.Schedule
