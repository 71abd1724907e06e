import GuidedJourney.Definition.Condition
import GuidedJourney.State.Scope
import GuidedJourney.Value.Text

namespace GuidedJourney

structure ResponseMapping where
  key : Value
  scope : Scope

structure ServiceTarget where
  serviceName : String
  functionName : Value
  parameters : Fields
  mapping : Option ResponseMapping

inductive Action where
  | navigate (conditions : List Condition) (deeplink : String)
  | update (conditions : List Condition) (scope : Scope) (updates : Fields)
  /-- The branches take the place of the actions that follow once the service has answered. -/
  | call (conditions : List Condition) (target : ServiceTarget) (onSuccess onError : List Action)
  | close (conditions : List Condition) (flowCompleted : Bool) (parameters : Fields)
  | tool (conditions : List Condition) (name : String) (parameters : Fields)
  | unknown (conditions : List Condition) (tag : String) (source : Fields)

def ServiceTarget.legible (t : ServiceTarget) : Except Fault Unit :=
  if t.functionName.truthy then t.functionName.legible Value.stackRoom else .ok ()

def ServiceTarget.operation (t : ServiceTarget) : String :=
  if t.functionName.truthy then t.serviceName ++ "." ++ t.functionName.text else t.serviceName

def ResponseMapping.ofValue? : Value → Option ResponseMapping
  | .obj fields =>
    let key := Fields.get fields "stateKey"
    if key.truthy then some ⟨key, Scope.ofValue (Fields.get fields "scope") .module⟩ else none
  | _ => none

def ResponseMapping.toDocument (m : ResponseMapping) : Value :=
  .obj [("stateKey", m.key), ("scope", .str m.scope.tag)]

def closeReason (parameters : Fields) : Value :=
  match Fields.find? parameters "reason" with
  | none | some .null => .null
  | some v => .str v.text

def reasonLegible (parameters : Fields) : Except Fault Unit :=
  (Fields.get parameters "reason").legible Value.stackRoom

namespace Action

def conditions : Action → List Condition
  | .navigate cs .. | .update cs .. | .call cs .. | .close cs .. | .tool cs .. | .unknown cs .. => cs

def kindTag : Action → String
  | .navigate .. => "navigation"
  | .update .. => "stateUpdate"
  | .call .. => "serviceCall"
  | .close .. => "closeModule"
  | .tool .. => "toolCall"
  | .unknown .. => "unknown"

/-- The branches of a service call under the keys that hold them. -/
abbrev Branches := List (String × Except Fault (List Action))

def Branches.get (branches : Branches) (key : String) : Except Fault (List Action) :=
  (branches.lookup key).getD (.ok [])

def assemble (fields : Fields) (branches : Branches) : Except Fault Action := do
  let get := Fields.get fields
  let tag := get "type"
  let conditions ← Condition.listOfValue (get "conditions")
  match tag with
  | .str "navigation" => return .navigate conditions (get "deeplink").textOrEmpty
  | .str "stateUpdate" =>
    return .update conditions (Scope.ofValue (get "scope") .screen) (get "updates").fieldsOrEmpty
  | .str "serviceCall" =>
    let name := ((get "serviceName").orElse (get "name")).textOrEmpty
    let target := ⟨name, get "functionName", (get "parameters").fieldsOrEmpty,
      ResponseMapping.ofValue? (get "responseMapping")⟩
    let onSuccess ← branches.get "onSuccess"
    let onError ← branches.get "onError"
    return .call conditions target onSuccess onError
  | .str "closeModule" =>
    let flowCompleted := ((Fields.find? fields "flowCompleted").getD (.bool true)).truthy
    return .close conditions flowCompleted (get "parameters").fieldsOrEmpty
  | .str "toolCall" =>
    return .tool conditions (get "tool").textOrEmpty (get "params").fieldsOrEmpty
  | tag => return .unknown conditions tag.textOrEmpty fields

mutual

def ofValue : Value → Except Fault Action
  | .obj fields => assemble fields (branchesOf fields)
  | v => .ok (.unknown [] v.kindName [("value", v)])

def listOfValue : Value → Except Fault (List Action)
  | .list xs => ofItems xs
  | _ => .ok []

def ofItems : List Value → Except Fault (List Action)
  | [] => .ok []
  | x :: xs => do return (← ofValue x) :: (← ofItems xs)

def branchesOf : List (String × Value) → Branches
  | [] => []
  | (k, v) :: fs =>
    if k = "onSuccess" ∨ k = "onError" then (k, listOfValue v) :: branchesOf fs else branchesOf fs

end

def header (a : Action) : Fields :=
  ("type", .str a.kindTag) ::
    if a.conditions.isEmpty then [] else [("conditions", .list (a.conditions.map Condition.toDocument))]

mutual

def toDocument : Action → Value
  | a@(.navigate _ deeplink) => .obj (a.header ++ [("deeplink", .str deeplink)])
  | a@(.update _ scope updates) =>
    .obj (a.header ++ [("scope", .str scope.tag), ("updates", .obj updates)])
  | .call conditions target onSuccess onError =>
    .obj (header (.call conditions target [] []) ++ [
      ("serviceName", .str target.serviceName), ("functionName", target.functionName),
      ("parameters", .obj target.parameters), ("onSuccess", .list (toDocuments onSuccess)),
      ("onError", .list (toDocuments onError))] ++
      (target.mapping.map fun m => ("responseMapping", m.toDocument)).toList)
  | a@(.close _ flowCompleted parameters) =>
    .obj (a.header ++ [("flowCompleted", .bool flowCompleted), ("parameters", .obj parameters)])
  | a@(.tool _ name parameters) =>
    .obj (a.header ++ [("tool", .str name), ("params", .obj parameters)])
  | .unknown _ _ source => .obj source

def toDocuments : List Action → List Value
  | [] => []
  | a :: as => a.toDocument :: toDocuments as

end

end Action

end GuidedJourney
