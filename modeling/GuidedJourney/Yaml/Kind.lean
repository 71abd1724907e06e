import GuidedJourney.Binary64.Numeral
import GuidedJourney.Calendar.Iso
import GuidedJourney.Text.Split
import GuidedJourney.Value.Basic
import GuidedJourney.Yaml.Cursor

namespace GuidedJourney.Yaml

inductive Kind where
  | null
  | bool
  | int
  | float
  | time
  | str
  | merge
  | equals
  | list
  | map
  | foreign
  deriving DecidableEq

def Kind.tags : List (String × Kind) := [
  ("null", .null), ("bool", .bool), ("int", .int), ("float", .float), ("timestamp", .time), ("str", .str),
  ("merge", .merge), ("value", .equals), ("seq", .list), ("map", .map)]

def standardStem : String := "tag:yaml.org,2002:"

def Kind.ofTag (tag : String) : Kind :=
  ((Kind.tags.find? fun t => standardStem ++ t.1 == tag).map Prod.snd).getD .foreign

def trueWords : List String := ["yes", "true", "on"]
def falseWords : List String := ["no", "false", "off"]

/-- A word may be in small letters, in capitals, or in small letters with a capital at the beginning. -/
def spellings (s : String) : List (List Char) :=
  let cs := s.toList
  [cs, cs.map Char.toUpper, (cs.take 1).map Char.toUpper ++ cs.tail]

def isBoolWord (cs : List Char) : Bool :=
  (trueWords ++ falseWords).any fun w => (spellings w).contains cs

def isNullWord (cs : List Char) : Bool :=
  cs.isEmpty || cs == ['~'] || (spellings "null").contains cs

def isSpacedDigit (c : Char) : Bool := c.isDigit || c == '_'

def isSign (c : Char) : Bool := c == '+' || c == '-'

def dropSign (cs : List Char) : List Char :=
  match cs with
  | c :: r => if isSign c then r else cs
  | [] => []

def isWhole (cs : List Char) : Bool := (cs.head?.any Char.isDigit) && cs.all isSpacedDigit

def isSixtieth (cs : List Char) : Bool :=
  match cs with
  | [c] => c.isDigit
  | [c, d] => '0' ≤ c && c ≤ '5' && d.isDigit
  | _ => false

def isSexagesimal (cs : List Char) : Bool :=
  match Text.split ':' cs with
  | whole :: part :: parts => isWhole whole && (part :: parts).all isSixtieth
  | _ => false

def isInt (cs : List Char) : Bool :=
  match dropSign cs with
  | '0' :: 'b' :: r => !r.isEmpty && r.all fun c => c == '0' || c == '1' || c == '_'
  | '0' :: 'x' :: r => !r.isEmpty && r.all fun c => (Text.hexValue? c).isSome || c == '_'
  | '0' :: r => r.all fun c => '0' ≤ c && c ≤ '7' || c == '_'
  | r => isWhole r || isSexagesimal r

def isExponent (cs : List Char) : Bool :=
  match cs with
  | [] => true
  | e :: s :: r => (e == 'e' || e == 'E') && isSign s && !r.isEmpty && r.all Char.isDigit
  | _ => false

def isTail (cs : List Char) : Bool := isExponent (cs.dropWhile isSpacedDigit)

def isFloat (cs : List Char) : Bool :=
  let body := dropSign cs
  match cs, body with
  | '.' :: 'n' :: _, _ | '.' :: 'N' :: _, _ => [".nan", ".NaN", ".NAN"].contains (String.ofList cs)
  | _, '.' :: 'i' :: _ | _, '.' :: 'I' :: _ => (spellings "inf").contains body.tail
  | '.' :: d :: r, _ => d.isDigit && isTail r
  | _, _ =>
    let (whole, fraction) := Text.cut '.' body
    match fraction with
    | none => false
    | some f => isWhole whole && isTail f || isSexagesimal whole && f.all isSpacedDigit

/-- A date, with a time of day if there is one, and the offset from universal time in minutes. -/
structure Stamp where
  date : Date
  time : Option (Nat × Nat × Nat × Nat × Option Int) := none

def shortNumber? (cs : List Char) : Option (Nat × List Char) :=
  (Moment.digits? 2 cs).or (Moment.digits? 1 cs)

def expect? (c : Char) (cs : List Char) : Option (List Char) :=
  if cs.head? == some c then some cs.tail else none

def zone? (cs : List Char) : Option (Option Int) :=
  match cs, cs.dropWhile isBlank with
  | [], _ => some none
  | _, ['Z'] => some (some 0)
  | _, s :: r => do
    let (hours, r) ← if isSign s then shortNumber? r else none
    let minutes ← match r with
      | [] => some 0
      | r => do
        let (minutes, r) ← Moment.digits? 2 (← expect? ':' r)
        if r.isEmpty then some minutes else none
    let size : Int := (hours * 60 + minutes : Nat)
    some (some (if s == '-' then -size else size))
  | _, [] => none

def microseconds (ds : List Char) : Nat :=
  let ds := ds.take 6
  Moment.digitsValue ds * Nat.pow 10 (6 - ds.length)

def timeOfDay? (cs : List Char) : Option (Nat × Nat × Nat × Nat × Option Int) := do
  let (hour, r) ← shortNumber? cs
  let (minute, r) ← Moment.digits? 2 (← expect? ':' r)
  let (second, r) ← Moment.digits? 2 (← expect? ':' r)
  let (fraction, r) := match r with
    | '.' :: r => (r.takeWhile Char.isDigit, r.dropWhile Char.isDigit)
    | r => ([], r)
  some (hour, minute, second, microseconds fraction, ← zone? r)

def afterDate? (cs : List Char) : Option (List Char) :=
  match cs with
  | c :: r => if c == 'T' || c == 't' then some r else if isBlank c then some (r.dropWhile isBlank) else none
  | [] => none

def stamp? (cs : List Char) : Option Stamp := do
  let (year, r) ← Moment.digits? 4 cs
  let (month, r) ← shortNumber? (← expect? '-' r)
  let (day, r) ← shortNumber? (← expect? '-' r)
  if r.isEmpty then
    if cs.length = 10 then some ⟨⟨year, month, day⟩, none⟩ else none
  else some ⟨⟨year, month, day⟩, some (← timeOfDay? (← afterDate? r))⟩

def Kind.ofPlain (s : String) : Kind :=
  let cs := s.toList
  if isNullWord cs then .null
  else if isBoolWord cs then .bool
  else if isFloat cs then .float
  else if isInt cs then .int
  else if s == "<<" then .merge
  else if s == "=" then .equals
  else if (stamp? cs).isSome then .time
  else .str

def withoutSpacers (cs : List Char) : List Char := cs.filter (· != '_')

def based (base : Nat) (cs : List Char) : Except Fault Nat :=
  if cs.isEmpty then .error .badNumeral
  else match cs.foldlM (fun n c => ((Text.hexValue? c).filter (· < base)).map (n * base + ·)) 0 with
    | some n => .ok n
    | none => .error .badNumeral

def longestNumeral : Nat := 4300

def decimal (cs : List Char) : Except Fault Nat :=
  if longestNumeral < cs.length then .error .badNumeral else based 10 cs

def natural (cs : List Char) : Except Fault Nat :=
  match cs with
  | ['0'] => .ok 0
  | '0' :: 'b' :: r => based 2 r
  | '0' :: 'x' :: r => based 16 r
  | '0' :: r => based 8 r
  | r => do return (← (Text.split ':' r).mapM decimal).foldl (fun n d => n * 60 + d) 0

def isNegative (cs : List Char) : Bool := cs.head? == some '-'

def integer (cs : List Char) : Except Fault Value := do
  let cs := withoutSpacers cs
  let n : Int := ← natural (dropSign cs)
  return .int (if isNegative cs then -n else n)

/-- A sum of numbers in steps of sixty, the last one first; each product and each sum is rounded. -/
def sixtieths (parts : List Binary64) : Binary64 :=
  (parts.reverse.foldl (fun (acc : Binary64 × Nat) x =>
    (acc.1.add (Binary64.ofRat ((x.toRat?.getD 0) * (acc.2 : Rat))), acc.2 * 60)) (.zero, 1)).1

def negate (negative : Bool) : Binary64 → Binary64
  | .finite _ m e => .finite negative m e
  | .infinite _ => .infinite negative
  | .nan => .nan

def numeral (cs : List Char) : Except Fault Binary64 :=
  match Binary64.ofNumeral? (String.ofList cs) with
  | some x => .ok x
  | none => .error .badNumeral

def floating (cs : List Char) : Except Fault Value := do
  let cs := (withoutSpacers cs).map Char.toLower
  let negative := isNegative cs
  let body := dropSign cs
  if body == ".inf".toList then return .num (.infinite negative)
  else if body == ".nan".toList then return .num .nan
  else if body.contains ':' then
    return .num (negate negative (sixtieths (← (Text.split ':' body).mapM numeral)))
  else return .num (negate negative (← numeral body))

def valid (b : Bool) (v : Value) : Except Fault Value := if b then .ok v else .error .badDate

def Stamp.value (s : Stamp) : Except Fault Value :=
  match s.time with
  | none => valid s.date.isValid (.date s.date)
  | some (hour, minute, second, microsecond, offset) =>
    let t : Moment := ⟨s.date, hour, minute, second, microsecond, offset.map (· * 60000000)⟩
    valid t.isValid (.moment t)

def Kind.scalar (k : Kind) (s : String) : Except Fault Value :=
  let cs := s.toList
  match k with
  | .null => .ok .null
  | .bool =>
    let w := String.ofList (cs.map Char.toLower)
    if trueWords.contains w then .ok (.bool true)
    else if falseWords.contains w then .ok (.bool false)
    else .error unreadable
  | .int => integer cs
  | .float => floating cs
  | .time => match stamp? cs with
    | some stamp => stamp.value
    | none => .error unreadable
  | .str => .ok (.str s)
  | .merge | .equals | .list | .map | .foreign => .error unreadable

end GuidedJourney.Yaml
