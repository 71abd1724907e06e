import GuidedJourney.Json.Reader
import GuidedJourney.Simulation.Script
import GuidedJourney.Text.Split

namespace GuidedJourney.ScriptStep

def payload (cs : List Char) : Except Fault Value :=
  if cs.isEmpty then .ok (.obj [])
  else match Json.read (String.ofList cs) with
    | .error (.format _) => .error .badArgument
    | r => r

def ofEventArgument (raw : String) : Except Fault ScriptStep := do
  let (name, rest) := Text.cut ':' raw.toList
  let values ← payload (rest.getD [])
  let (id, element) := Text.cut '@' name
  let element := element.getD []
  return .event (.str (String.ofList id))
    (if element.isEmpty then .null else .str (String.ofList element)) values

def ofToolArgument (raw : String) : Except Fault ScriptStep := do
  let (name, rest) := Text.cut ':' raw.toList
  return .tool (.str (String.ofList name)) (← payload (rest.getD []))

end GuidedJourney.ScriptStep
