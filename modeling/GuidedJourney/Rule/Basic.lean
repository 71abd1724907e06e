import GuidedJourney.Rule.Equality
import GuidedJourney.Rule.Path
import GuidedJourney.Value.Text

namespace GuidedJourney

structure Reference where
  path : Value
  default : Value

mutual

inductive Rule where
  | literal (value : Value)
  | reference (ref : Reference)
  | equal (negated : Bool) (left right : Operand)
  | all (rules : List Rule)
  | any (rules : List Rule)
  /-- An object with an operator that is not known, or without exactly one. -/
  | unknown (operator : String)

inductive Operand where
  | value (value : Value)
  | reference (ref : Reference)
  | list (items : List Operand)
  | rule (rule : Rule)

end

namespace Reference

def ofValue : Value → Reference
  | .list [] => ⟨.str "", .null⟩
  | .list [path] => ⟨path, .null⟩
  | .list (path :: default :: _) => ⟨path, default⟩
  | path => ⟨path, .null⟩

end Reference

def unknownName (keys : List String) : String :=
  if keys.isEmpty then "<empty>" else ",".intercalate (keys.mergeSort fun a b => decide (a ≤ b))

mutual

def Rule.ofValue : Value → Rule
  | .obj fields => Rule.ofFields fields
  | v => .literal v

/-- A single argument may stand without a list around it, and a comparison looks at its first two
operands; a missing one is null. -/
def Rule.ofFields : List (String × Value) → Rule
  | [(op, .list xs)] =>
    if op = "var" then .reference (Reference.ofValue (.list xs))
    else if op = "==" then .equal false (Operand.first xs) (Operand.second xs)
    else if op = "!=" then .equal true (Operand.first xs) (Operand.second xs)
    else if op = "and" then .all (Rule.ofList xs)
    else if op = "or" then .any (Rule.ofList xs)
    else .unknown op
  | [(op, arg)] =>
    if op = "var" then .reference (Reference.ofValue arg)
    else if op = "==" then .equal false (Operand.ofValue arg) (.value .null)
    else if op = "!=" then .equal true (Operand.ofValue arg) (.value .null)
    else if op = "and" then .all [Rule.ofValue arg]
    else if op = "or" then .any [Rule.ofValue arg]
    else .unknown op
  | fields => .unknown (unknownName (Fields.keys fields))

def Rule.ofList : List Value → List Rule
  | [] => []
  | v :: vs => Rule.ofValue v :: Rule.ofList vs

def Operand.ofValue : Value → Operand
  | .obj fields => match Rule.ofFields fields with
    | .reference ref => .reference ref
    | r => .rule r
  | .list xs => .list (Operand.ofList xs)
  | v => .value v

def Operand.ofList : List Value → List Operand
  | [] => []
  | v :: vs => Operand.ofValue v :: Operand.ofList vs

def Operand.first : List Value → Operand
  | [] => .value .null
  | v :: _ => Operand.ofValue v

def Operand.second : List Value → Operand
  | _ :: v :: _ => Operand.ofValue v
  | _ => .value .null

end

end GuidedJourney
