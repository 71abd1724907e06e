import GuidedJourney.Rule.Evaluation

namespace GuidedJourney

structure Condition where
  /-- A condition without a rule, written as null, is passed over. -/
  rule : Value
  patch : Fields

namespace Condition

def ofFields (fields : Fields) : Condition where
  rule := (Fields.find? fields "rules").getD (Fields.get fields "rule")
  patch := (Fields.get fields "state").fieldsOrEmpty

def listOfValue (v : Value) : Except Fault (List Condition) := do
  return (← v.objects).map ofFields

def toDocument (c : Condition) : Value := .obj [("rules", c.rule), ("state", .obj c.patch)]

def judgeAll (context : Fields) : List Condition → Except Fault (Bool × List RuleNote)
  | [] => .ok (true, [])
  | c :: cs =>
    if c.rule.isNull then judgeAll context cs
    else match c.rule.judge context with
      | .error e => .error e
      | .ok (true, _) => judgeAll context cs
      | .ok (false, note) => .ok (false, note.toList)

def allHold (conditions : List Condition) (context : Fields) : Except Fault Bool :=
  (judgeAll context conditions).map Prod.fst

/-- The position of the last condition that has a rule and holds, counted from `index`. -/
def lastHolding (context : Fields) (index : Nat) (found : Option Nat) :
    List Condition → Except Fault (Option Nat)
  | [] => .ok found
  | c :: cs =>
    if c.rule.isNull then lastHolding context (index + 1) found cs
    else match c.rule.holds context with
      | .error e => .error e
      | .ok b => lastHolding context (index + 1) (if b then some index else found) cs

end Condition

end GuidedJourney
