import Warphold.Lib.Encoding

/-!
# Calendar times

`time.Parse` and `time.Time.Format` for the layouts `20060102T150405Z` and `20060102`. Times are
nanoseconds since the Unix epoch.
-/

structure DateTime where
  year : ℕ
  month : ℕ
  day : ℕ
  hour : ℕ
  minute : ℕ
  sec : ℕ
  nsec : ℕ
  deriving DecidableEq, Repr

namespace DateTime

def leap (y : ℕ) : Bool := y % 4 = 0 && (y % 100 ≠ 0 || y % 400 = 0)

def daysIn (m y : ℕ) : ℕ :=
  if m = 2 then (if leap y then 29 else 28)
  else if m = 4 ∨ m = 6 ∨ m = 9 ∨ m = 11 then 30 else 31

def daysFromEpoch (y m d : ℕ) : ℤ :=
  let y' : ℤ := if m ≤ 2 then (y : ℤ) - 1 else y
  let era := y' / 400
  let yoe := y' - era * 400
  let mp : ℤ := if 2 < m then (m : ℤ) - 3 else (m : ℤ) + 9
  era * 146097 + (yoe * 365 + yoe / 4 - yoe / 100 + ((153 * mp + 2) / 5 + (d : ℤ) - 1)) - 719468

def unixNano (t : DateTime) : ℤ :=
  ((daysFromEpoch t.year t.month t.day * 24 + t.hour) * 60 + t.minute) * 60 * 1000000000
    + t.sec * 1000000000 + t.nsec

def getnum (fixed : Bool) : Str → Option (ℕ × Str)
  | [] => none
  | a :: s =>
    if !Strconv.isDigit a then none
    else match s with
      | b :: s' =>
        if Strconv.isDigit b then some (Strconv.digitsVal [a, b], s')
        else if fixed then none else some (Strconv.digitsVal [a], s)
      | [] => if fixed then none else some (Strconv.digitsVal [a], [])

/-- Fractional seconds, which may follow the seconds even where the layout has none. -/
def getfrac (s : Str) : ℕ × Str :=
  match s with
  | a :: b :: s' =>
    if (a = 46 ∨ a = 44) ∧ Strconv.isDigit b then
      let ds := (b :: s').takeWhile Strconv.isDigit
      (Strconv.digitsVal (ds.take 9) * 10 ^ (9 - min 9 ds.length), (b :: s').drop ds.length)
    else (0, s)
  | _ => (0, s)

def parseISO8601 (s : Str) : Option DateTime := do
  if s.length < 4 ∨ !(s.take 4).all Strconv.isDigit then none
  let year := Strconv.digitsVal (s.take 4)
  let (month, s) ← getnum true (s.drop 4)
  if month = 0 ∨ 12 < month then none
  let (day, s) ← getnum true s
  if s.head? ≠ some 84 then none
  let (hour, s) ← getnum false s.tail
  if 24 ≤ hour then none
  let (minute, s) ← getnum true s
  if 60 ≤ minute then none
  let (sec, s) ← getnum true s
  if 60 ≤ sec then none
  let (nsec, s) := getfrac s
  if s ≠ [90] then none
  if day = 0 ∨ daysIn month year < day then none
  return { year, month, day, hour, minute, sec, nsec }

def padded (w n : ℕ) : Str :=
  (List.range w).map fun i => UInt8.ofNat (48 + n / 10 ^ (w - 1 - i) % 10)

def formatDate (t : DateTime) : Str := padded 4 t.year ++ padded 2 t.month ++ padded 2 t.day

/-- Days from the Unix epoch to the first of a month, counting months from 1 and years of any sign. -/
def daysToMonth (y m : ℤ) : ℤ :=
  let y' := if m ≤ 2 then y - 1 else y
  let yoe := y' % 400
  let mp := if 2 < m then m - 3 else m + 9
  y' / 400 * 146097 + (yoe * 365 + yoe / 4 - yoe / 100 + (153 * mp + 2) / 5) - 719468

def civil (days : ℤ) : ℤ × ℤ × ℤ :=
  let z := days + 719468
  let doe := z % 146097
  let yoe := (doe - doe / 1460 + doe / 36524 - doe / 146096) / 365
  let doy := doe - (365 * yoe + yoe / 4 - yoe / 100)
  let mp := (5 * doy + 2) / 153
  let m := if mp < 10 then mp + 3 else mp - 9
  (yoe + z / 146097 * 400 + (if m ≤ 2 then 1 else 0), m, doy - (153 * mp + 2) / 5 + 1)

def ofUnixNano (ns : ℤ) : DateTime :=
  let c := civil (ns / (86400 * 10 ^ 9))
  let r := (ns % (86400 * 10 ^ 9)).toNat
  { year := c.1.toNat, month := c.2.1.toNat, day := c.2.2.toNat, hour := r / (3600 * 10 ^ 9)
    minute := r / (60 * 10 ^ 9) % 60, sec := r / 10 ^ 9 % 60, nsec := r % 10 ^ 9 }

/-- `t.ISOWeek()` in UTC: the year and the week of the Thursday of the same week. -/
def isoWeek (ns : ℤ) : ℤ × ℤ :=
  let days := ns / (86400 * 10 ^ 9)
  let thursday := days - (days + 3) % 7 + 3
  let y := (civil thursday).1
  (y, (thursday - daysToMonth y 1) / 7 + 1)

/-- `t.AddDate(years, months, days)` in UTC; a month too short for the day runs into the next. -/
def addDate (ns years months days : ℤ) : ℤ :=
  let c := civil (ns / (86400 * 10 ^ 9))
  let m := (c.1 + years) * 12 + (c.2.1 - 1) + months
  (daysToMonth (m / 12) (m % 12 + 1) + (c.2.2 - 1) + days) * (86400 * 10 ^ 9)
    + ns % (86400 * 10 ^ 9)

example : (parseISO8601 (str "20260115T004400Z")).map (fun t => (t.unixNano, t.formatDate))
    = some (1768437840000000000, str "20260115") := by decide

/-- A year before the end of February of a leap year; the first of January 2027 is in week 53. -/
example : ofUnixNano (addDate 1709164800000000000 (-1) 0 0) = ⟨2023, 3, 1, 0, 0, 0, 0⟩
    ∧ isoWeek 1798761600000000000 = (2026, 53) := by decide

end DateTime
