import EditorServices.Failure

/-!
# `Log.Clock` — points in time as text

Time is counted in seconds from the start of 1970, in the universal time zone.

## Contents
- **Readings.** What a clock shows.
- **Calendar.** `civilDate`, the day of a day number.
- **Dated times.** `datedSeconds`: a point in time has a date only from year one to year 9999.
- **Texts.** `timeText` for lines, `stampText` for file names.
- **Spans.** `milliseconds` between two points in time, and `later`, a point after another one.
-/

namespace EditorServices.Log

/-! ## Readings -/

/-- What a clock shows; none if that is no number. -/
abbrev Reading := Option Numeral

/-! ## Calendar -/

/-- Year, month and day of a number of days since the start of 1970. The count is made from the
first of March of year zero in eras of 400 years, so that a leap day ends a year. -/
def civilDate (days : Int) : Int × Nat × Nat :=
  let z := days + 719468
  let era := Int.fdiv z 146097
  let doe := (z - era * 146097).toNat
  let yoe := (doe - doe / 1460 + doe / 36524 - doe / 146096) / 365
  let doy := doe - (365 * yoe + yoe / 4 - yoe / 100)
  let mp := (5 * doy + 2) / 153
  let day := doy - (153 * mp + 2) / 5 + 1
  let month := if mp < 10 then mp + 3 else mp - 9
  (era * 400 + yoe + (if month ≤ 2 then 1 else 0), month, day)

/-! ## Dated times -/

/-- Seconds since the start of 1970, rounded to microseconds and then down to a second. -/
def wholeSeconds (scaled : Int) : Int :=
  let micros : Nat := Binary64.divRoundEven (scaled.natAbs * 1000000) (Nat.pow 2 1074)
  Int.fdiv (if scaled < 0 then -(micros : Int) else micros) 1000000

/-- The first and the last year that have dates. -/
def firstYear : Int := 1
def lastYear : Int := 9999

/-- The years that the calendar of the host can count: those of 32 bits, counted from 1900. -/
def countedYears (year : Int) : Bool :=
  decide (-2147483648 ≤ year - 1900) && decide (year - 1900 ≤ 2147483647)

/-- A year as the host tells it: in 32 bits, so that the last ones come out negative. -/
def toldYear (year : Int) : Int := Int.bmod year 4294967296

/-- The whole seconds of a point in time. -/
def secondsOf : Reading → Except Failure Int
  | none => .error .wrongKind
  | some (.whole n) => .ok n
  | some (.binary x) => match x.scaled? with
    | none => .error (if x.isNaN then .value "Invalid value NaN (not a number)" else .overflow)
    | some scaled => .ok (wholeSeconds scaled)

/-- The seconds of a point in time that has a date. -/
def datedSeconds (t : Reading) : Except Failure Int :=
  match secondsOf t with
  | .error f => .error f
  | .ok seconds =>
    let year := (civilDate (Int.fdiv seconds 86400)).1
    if seconds < -9223372036854775808 ∨ 9223372036854775807 < seconds then .error .overflow
    else if !countedYears year then .error (.system "")
    else if year < firstYear ∨ lastYear < year then
      .error (.value ("year " ++ String.ofList (intDigits (toldYear year)) ++ " is out of range"))
    else .ok seconds

/-! ## Texts -/

/-- Decimal digits with zeros before them up to a width. -/
def padded (width n : Nat) : List Char :=
  let ds := decimalDigits n
  List.replicate (width - ds.length) '0' ++ ds

/-- Date and time of day, the parts of the latter joined by a separator. -/
def dateTime (seconds : Int) (separator : List Char) : List Char :=
  let days := Int.fdiv seconds 86400
  let rest := (seconds - days * 86400).toNat
  let (y, m, d) := civilDate days
  padded 4 y.toNat ++ '-' :: padded 2 m ++ '-' :: padded 2 d ++ 'T' :: padded 2 (rest / 3600) ++
    separator ++ padded 2 (rest / 60 % 60) ++ separator ++ padded 2 (rest % 60)

/-- The time as lines show it. -/
def timeText (t : Reading) : Except Failure String :=
  (datedSeconds t).map fun seconds => String.ofList (dateTime seconds [':'] ++ "+00:00".toList)

/-- The time as names of log files show it. -/
def stampText (t : Reading) : Except Failure String :=
  (datedSeconds t).map fun seconds => String.ofList (dateTime seconds [])

/-! ## Spans -/

/-- Milliseconds of a span of seconds, cut toward zero. -/
def thousandfold : Numeral → Except Failure Int
  | .whole n => .ok (n * 1000)
  | .binary x =>
    let span := x.mulNat 1000
    match span.truncate? with
    | some n => .ok n
    | none =>
      .error (if span.isNaN then .value "cannot convert float NaN to integer" else .overflow)

/-- Milliseconds from one point in time to another, cut toward zero. -/
def milliseconds : (start now : Reading) → Except Failure Int
  | some start, some now => match now.sub? start with
    | some span => thousandfold span
    | none => .error .overflow
  | _, _ => .error .wrongKind

/-- The point in time that comes some seconds later. -/
def later : (now seconds : Reading) → Except Failure Reading
  | some now, some seconds => match now.add? seconds with
    | some t => .ok (some t)
    | none => .error .overflow
  | _, _ => .error .wrongKind

end EditorServices.Log
