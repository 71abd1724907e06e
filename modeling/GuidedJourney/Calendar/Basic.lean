namespace GuidedJourney

structure Date where
  year : Nat
  month : Nat
  day : Nat
  deriving DecidableEq, Repr

/-- A date with a time of day; `offset` is the distance from universal time in microseconds, if the
moment has a time zone. -/
structure Moment where
  date : Date
  hour : Nat
  minute : Nat
  second : Nat
  microsecond : Nat
  offset : Option Int
  deriving DecidableEq, Repr

def padded (width n : Nat) : String :=
  let ds := Nat.toDigits 10 n
  String.ofList (List.replicate (width - ds.length) '0' ++ ds)

namespace Date

def isLeap (y : Nat) : Bool := y % 4 == 0 && (y % 100 != 0 || y % 400 == 0)

def daysInMonth (y m : Nat) : Nat :=
  match m with
  | 2 => if isLeap y then 29 else 28
  | 4 | 6 | 9 | 11 => 30
  | _ => 31

def isValid (d : Date) : Bool :=
  1 ≤ d.year && d.year ≤ 9999 && 1 ≤ d.month && d.month ≤ 12 &&
    1 ≤ d.day && d.day ≤ daysInMonth d.year d.month

def text (d : Date) : String := s!"{padded 4 d.year}-{padded 2 d.month}-{padded 2 d.day}"

def daysBefore (y : Nat) : Nat := (y - 1) * 365 + (y - 1) / 4 - (y - 1) / 100 + (y - 1) / 400

/-- The Monday of the first week with most of its days in the year, counted in days from the first
day of year 1. -/
def firstMonday (y : Nat) : Int :=
  let first : Int := daysBefore y
  let weekday := (daysBefore y) % 7
  if weekday ≤ 3 then first - weekday else first - weekday + 7

def ofDayOfYear (y m : Nat) (days : Nat) : Nat → Date
  | 0 => ⟨y, m, days + 1⟩
  | n + 1 =>
    if days < daysInMonth y m then ⟨y, m, days + 1⟩
    else if m = 12 then ofDayOfYear (y + 1) 1 (days - daysInMonth y m) n
    else ofDayOfYear y (m + 1) (days - daysInMonth y m) n

/-- A year has 53 weeks if it starts on a Thursday, or on a Wednesday and is a leap year. -/
def hasLongWeekYear (y : Nat) : Bool :=
  let weekday := (daysBefore y) % 7
  weekday == 3 || weekday == 2 && isLeap y

def ofWeek? (y week weekday : Nat) : Option Date :=
  if week = 0 || 53 < week || week == 53 && !hasLongWeekYear y || weekday = 0 || 7 < weekday
  then none
  else
    let shift : Int := firstMonday y + ((week - 1) * 7 + weekday - 1 : Nat) - (daysBefore y : Int)
    match shift with
    | .ofNat n => some (ofDayOfYear y 1 n 24)
    | .negSucc n => if y ≤ 1 then none else some ⟨y - 1, 12, 31 - n⟩

end Date

namespace Moment

def dayLength : Int := 86400000000

def isValid (t : Moment) : Bool :=
  t.date.isValid && t.hour < 24 && t.minute < 60 && t.second < 60 && t.microsecond < 1000000 &&
    match t.offset with
    | none => true
    | some o => -dayLength < o && o < dayLength

def clockText (h m s us : Nat) : String :=
  let base := s!"{padded 2 h}:{padded 2 m}:{padded 2 s}"
  if us = 0 then base else s!"{base}.{padded 6 us}"

def offsetText (o : Int) : String :=
  let n := o.natAbs
  let sign := if o < 0 then "-" else "+"
  let s := n / 1000000
  let minutes := s!"{sign}{padded 2 (s / 3600)}:{padded 2 (s / 60 % 60)}"
  if n % 60000000 = 0 then minutes
  else if n % 1000000 = 0 then s!"{minutes}:{padded 2 (s % 60)}"
  else s!"{minutes}:{padded 2 (s % 60)}.{padded 6 (n % 1000000)}"

def textWith (separator : String) (t : Moment) : String :=
  let zone := (t.offset.map offsetText).getD ""
  s!"{t.date.text}{separator}{clockText t.hour t.minute t.second t.microsecond}{zone}"

def text (t : Moment) : String := t.textWith "T"

end Moment

end GuidedJourney
