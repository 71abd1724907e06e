import GuidedJourney.Binary64.Decimal
import GuidedJourney.Text.Quoted
import GuidedJourney.Value.Basic

namespace GuidedJourney.Value

def dateLiteral (d : Date) : String := s!"datetime.date({d.year}, {d.month}, {d.day})"

def offsetLiteral (o : Int) : String :=
  let days := Int.fdiv o Moment.dayLength
  let rest := Int.fmod o Moment.dayLength
  let parts := [("days", days), ("seconds", rest / 1000000), ("microseconds", rest % 1000000)]
  let shown := ", ".intercalate ((parts.filter (·.2 != 0)).map fun p => s!"{p.1}={p.2}")
  s!"datetime.timezone(datetime.timedelta({shown}))"

def momentLiteral (t : Moment) : String :=
  let zone := match t.offset with
    | none => ""
    | some o => ", tzinfo=" ++ if o = 0 then "datetime.timezone.utc" else offsetLiteral o
  let tail := if t.microsecond != 0 then s!", {t.second}, {t.microsecond}"
    else if t.second != 0 then s!", {t.second}" else ""
  s!"datetime.datetime({t.date.year}, {t.date.month}, {t.date.day}, {t.hour}, {t.minute}{tail}{zone})"

mutual

def literal : Value → String
  | .null => "None"
  | .bool b => if b then "True" else "False"
  | .int n => toString n
  | .num x => x.text
  | .str s => Text.quoted s
  | .list xs => "[" ++ literalItems xs ++ "]"
  | .obj fs => "\x7b" ++ literalFields fs ++ "\x7d"
  | .date d => dateLiteral d
  | .moment t => momentLiteral t

def literalItems : List Value → String
  | [] => ""
  | [x] => x.literal
  | x :: xs => x.literal ++ ", " ++ literalItems xs

def literalFields : List (String × Value) → String
  | [] => ""
  | [(k, v)] => Text.quoted k ++ ": " ++ v.literal
  | (k, v) :: fs => Text.quoted k ++ ": " ++ v.literal ++ ", " ++ literalFields fs

end

def text : Value → String
  | .str s => s
  | .date d => d.text
  | .moment t => t.textWith " "
  | v => v.literal

/-- The most digits with which an integer is written out. -/
def longestNumeral : Nat := 4300

/-- Whether a value can be written as a text. It is gone through from its beginning, and each level takes a
call. -/
def legible : Nat → Value → Except Fault Unit
  | _, .int n => if longestNumeral < (Nat.toDigits 10 n.natAbs).length then .error .tooLong else .ok ()
  | 0, .list _ => .error .tooDeep
  | 0, .obj _ => .error .tooDeep
  | room + 1, .list xs => xs.forM (legible room)
  | room + 1, .obj fs => fs.forM fun f => legible room f.2
  | _, _ => .ok ()

def printed (v : Value) : Except Fault String := do
  v.legible stackRoom
  return v.text

def printedOrEmpty (v : Value) : Except Fault String := if v.truthy then v.printed else .ok ""

def textOrEmpty (v : Value) : String := if v.truthy then v.text else ""

def kindName : Value → String
  | .null => "NoneType"
  | .bool _ => "bool"
  | .int _ => "int"
  | .num _ => "float"
  | .str _ => "str"
  | .list _ => "list"
  | .obj _ => "dict"
  | .date _ => "date"
  | .moment _ => "datetime"

end GuidedJourney.Value
