import GuidedJourney.Calendar.Basic

namespace GuidedJourney.Moment

def digitsValue (cs : List Char) : Nat := cs.foldl (fun n c => n * 10 + (c.toNat - '0'.toNat)) 0

def digits? (n : Nat) (cs : List Char) : Option (Nat × List Char) :=
  let ds := cs.take n
  if ds.length = n && ds.all Char.isDigit then some (digitsValue ds, cs.drop n) else none

def dateLength (cs : List Char) : Nat :=
  if cs.length = 7 then 7
  else if cs[4]? = some '-' then
    if cs[5]? = some 'W' then
      if cs[8]? = some '-' then
        if (cs[10]?.map Char.isDigit).getD false then 8 else 10
      else 8
    else 10
  else if cs[4]? = some 'W' then
    let n := 7 + ((cs.drop 7).takeWhile Char.isDigit).length
    if n < 9 then n else if n % 2 = 0 then 7 else 8
  else 8

/-- A separator is used after the month, or in a week date before the weekday, exactly if one
follows the year. -/
def separated? (dashed : Bool) (cs : List Char) : Option (List Char) :=
  if dashed then (match cs with
    | '-' :: r => some r
    | _ => none)
  else some cs

def date? (cs : List Char) : Option Date := do
  let (year, r) ← digits? 4 cs
  let dashed := r.head? == some '-'
  let r := if dashed then r.tail else r
  match r with
  | 'W' :: r =>
    let (week, r) ← digits? 2 r
    if r.isEmpty then Date.ofWeek? year week 1
    else
      let r ← separated? dashed r
      let (weekday, _) ← digits? 1 r
      Date.ofWeek? year week weekday
  | r =>
    let (month, r) ← digits? 2 r
    let r ← separated? dashed r
    let (day, _) ← digits? 2 r
    some ⟨year, month, day⟩

structure Clock where
  hour : Nat := 0
  minute : Nat := 0
  second : Nat := 0
  microsecond : Nat := 0

abbrev Reading := Clock × Bool

def fraction? (t : Clock) (cs : List Char) : Option Reading := do
  let n := min cs.length 6
  let (value, r) ← digits? n cs
  some ({ t with microsecond := value * Nat.pow 10 (6 - n) }, r.all Char.isDigit)

def seconds? (colons : Bool) (t : Clock) (cs : List Char) : Option Reading := do
  let (second, r) ← digits? 2 cs
  let t := { t with second }
  match r with
  | [] => some (t, true)
  | [_] => some (t, false)
  | c :: rest =>
    if c == '.' || c == ',' || colons && c == ':' then fraction? t rest
    else if colons then none
    else fraction? t r

def minutes? (colons : Bool) (t : Clock) (cs : List Char) : Option Reading := do
  let (minute, r) ← digits? 2 cs
  let t := { t with minute }
  match r with
  | [] => some (t, true)
  | [_] => some (t, false)
  | c :: rest =>
    if colons && c == ':' then seconds? colons t rest
    else if c == '.' || c == ',' then fraction? t rest
    else if colons then none
    else seconds? colons t r

def clock? (cs : List Char) : Option Reading := do
  let (hour, r) ← digits? 2 cs
  let t : Clock := { hour }
  match r with
  | [] => some (t, true)
  | [_] => some (t, false)
  | c :: rest =>
    if c == ':' then minutes? true t rest
    else if c == '.' || c == ',' then fraction? t rest
    else minutes? false t r

def isZoneMark (c : Char) : Bool := c == '+' || c == '-' || c == 'Z'

def zone? (cs : List Char) : Option Int :=
  match cs with
  | ['Z'] => some 0
  | 'Z' :: _ => none
  | sign :: r => do
    let (t, whole) ← clock? r
    if !whole then none
    let seconds : Int := (t.hour * 3600 + t.minute * 60 + t.second : Nat)
    let size := if seconds = 0 then 0 else seconds * 1000000 + t.microsecond
    some (if sign == '-' then -size else size)
  | [] => none

def ofText? (s : String) : Option Moment := do
  let cs := s.toList
  if cs.length < 7 then none
  let n := dateLength cs
  let date ← date? (cs.take n)
  let moment ← match cs.drop n with
    | [] => some ⟨date, 0, 0, 0, 0, none⟩
    | _ :: time => do
      let (t, whole) ← clock? (time.takeWhile (!isZoneMark ·))
      let offset ← match time.dropWhile (!isZoneMark ·) with
        | [] => if whole then some none else none
        | zone => (zone? zone).map some
      some ⟨date, t.hour, t.minute, t.second, t.microsecond, offset⟩
  if moment.isValid then some moment else none

end GuidedJourney.Moment
