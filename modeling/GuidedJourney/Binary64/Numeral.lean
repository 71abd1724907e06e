import GuidedJourney.Binary64.Decimal
import GuidedJourney.Text.Blank
import GuidedJourney.Text.Digit

namespace GuidedJourney.Binary64

def plainChar (c : Char) : Char :=
  if c.toNat < 0x80 then c
  else match Text.digitValue? c with
    | some d => Char.ofNat ('0'.toNat + d)
    | none => if Text.isBlank c then ' ' else c

def isMargin (c : Char) : Bool := c == ' ' || 0x9 ≤ c.toNat && c.toNat ≤ 0xD

/-- The text without its underscores, each of which must stand between two digits; `prev` is the
character before. -/
def joinDigits? (prev : Char) : List Char → Option (List Char)
  | [] => if prev == '_' then none else some []
  | c :: cs =>
    if c == '_' then if prev.isDigit then joinDigits? c cs else none
    else if prev == '_' && !c.isDigit then none
    else (joinDigits? c cs).map (c :: ·)

def digitsValue (ds : List Char) : Nat := ds.foldl (fun n c => n * 10 + (c.toNat - '0'.toNat)) 0

def sign (cs : List Char) : Bool × List Char :=
  match cs with
  | '-' :: r => (true, r)
  | '+' :: r => (false, r)
  | r => (false, r)

def exponent? (cs : List Char) : Option Int :=
  match cs with
  | [] => some 0
  | c :: r =>
    let (negative, ds) := sign r
    if (c == 'e' || c == 'E') && !ds.isEmpty && ds.all Char.isDigit then
      some (if negative then -(digitsValue ds : Int) else digitsValue ds)
    else none

def unsigned? (negative : Bool) (cs : List Char) : Option Binary64 :=
  let whole := cs.takeWhile Char.isDigit
  let r := cs.dropWhile Char.isDigit
  let (fraction, r) := match r with
    | '.' :: r => (r.takeWhile Char.isDigit, r.dropWhile Char.isDigit)
    | r => ([], r)
  if whole.isEmpty && fraction.isEmpty then none
  else (exponent? r).map fun e =>
    ofDecimal negative (digitsValue (whole ++ fraction)) (e - fraction.length)

def word? (negative : Bool) (cs : List Char) : Option Binary64 :=
  let w := String.ofList (cs.map Char.toLower)
  if w == "inf" || w == "infinity" then some (.infinite negative)
  else if w == "nan" then some .nan
  else none

def ofNumeral? (s : String) : Option Binary64 := do
  let cs := s.toList.map plainChar
  let cs ← joinDigits? ' ' (Text.dropEnd isMargin (cs.dropWhile isMargin))
  let (negative, r) := sign cs
  (word? negative r).or (unsigned? negative r)

end GuidedJourney.Binary64
