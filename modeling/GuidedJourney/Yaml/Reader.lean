import GuidedJourney.Value.Text
import GuidedJourney.Yaml.Node

namespace GuidedJourney.Yaml

def keyText : Value → Except Fault String
  | .list _ | .obj _ => .error unreadable
  | v => .ok v.text

mutual

def Node.value : Node → Except Fault Value
  | .scalar kind text => kind.scalar text
  | .list kind items => do
    ensure (kind == .list)
    return .list (← values items)
  | .map kind pairs => do
    ensure (kind == .map)
    let (merged, own) ← fieldsOf pairs
    return .obj (Fields.ofPairs (merged ++ own))

def values : List Node → Except Fault (List Value)
  | [] => .ok []
  | x :: xs => do return (← x.value) :: (← values xs)

/-- The fields that are merged in, and those of the mapping itself, which go before them. -/
def fieldsOf : List (Node × Node) → Except Fault (Fields × Fields)
  | [] => .ok ([], [])
  | (.scalar .merge _, .map _ pairs) :: rest => do
    let (merged, own) ← fieldsOf pairs
    let (more, others) ← fieldsOf rest
    return (merged ++ own ++ more, others)
  | (.scalar .merge _, .list _ items) :: rest => do
    let merged ← merges items
    let (more, others) ← fieldsOf rest
    return (merged ++ more, others)
  | (.scalar .merge _, .scalar ..) :: _ => .error unreadable
  | (.scalar .equals text, v) :: rest => do
    let v ← v.value
    let (more, others) ← fieldsOf rest
    return (more, (text, v) :: others)
  | (k, v) :: rest => do
    let k ← keyText (← k.value)
    let v ← v.value
    let (more, others) ← fieldsOf rest
    return (more, (k, v) :: others)

def merges : List Node → Except Fault Fields
  | [] => .ok []
  | .map _ pairs :: rest => do
    let (merged, own) ← fieldsOf pairs
    return (← merges rest) ++ merged ++ own
  | _ :: _ => .error unreadable

end

def read (s : String) : Except Fault Value := do (← document (← tokens s)).value

end GuidedJourney.Yaml
