import GuidedJourney.Text.Digit
import GuidedJourney.Text.Split
import GuidedJourney.Value.Basic

namespace GuidedJourney.Path

def longestPosition : Nat := 4300

/-- A segment of digits names a position; digits that form no numeral are an error. -/
def position? (segment : List Char) : Except Fault (Option Nat) :=
  if segment.isEmpty || !segment.all Text.isDigitLike then .ok none
  else if longestPosition < segment.length then .error .badNumeral
  else match segment.mapM Text.digitValue? with
    | some ds => .ok (some (ds.foldl (fun n d => n * 10 + d) 0))
    | none => .error .badNumeral

def follow (v : Value) (segment : List Char) : Except Fault (Option Value) :=
  match v with
  | .obj fields => .ok (Fields.find? fields (String.ofList segment))
  | .list items => (position? segment).map fun p => p.bind (items[·]?)
  | _ => .ok none

def walk (v : Value) : List (List Char) → Except Fault (Option Value)
  | [] => .ok (some v)
  | segment :: rest => match follow v segment with
    | .error e => .error e
    | .ok none => .ok none
    | .ok (some w) => walk w rest

def find? (context : Fields) (path : String) : Except Fault (Option Value) :=
  if path.isEmpty then .ok none
  else match Fields.find? context path with
    | some v => .ok (some v)
    | none => walk (.obj context) (Text.split '.' path.toList)

def get (context : Fields) (path default : Value) : Except Fault Value :=
  match path with
  | .str p => (find? context p).map (·.getD default)
  | _ => .ok default

end GuidedJourney.Path
