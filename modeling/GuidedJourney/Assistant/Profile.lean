import GuidedJourney.Assistant.Signal
import GuidedJourney.Settings.Basic
import GuidedJourney.Text.Camel

namespace GuidedJourney

structure ToolProfile where
  name : String
  description : String
  parameters : Fields
  builtin : Bool

structure Profile where
  agentId : String
  name : String
  voice : Option String
  instructions : String
  tools : List ToolProfile
  handoffs : List String
  handoffDescription : String

def Value.toText : Value → Except Fault String
  | .str s => .ok s
  | _ => .error .invalidField

namespace ToolProfile

def parameter (name type description : String) : String × Value :=
  (name, .obj [("type", .str type), ("description", .str description)])

def schema (properties : Fields) (required : List String) : Fields := [
  ("type", .str "object"),
  ("properties", .obj properties),
  ("required", Value.strs required),
  ("additionalProperties", .bool false)]

def triggerEvent (s : BridgeSettings) : ToolProfile where
  name := s.triggerEventTool
  description := "Trigger a screen event. Events named '" ++ s.navigationEventPrefix ++
    "*' are delayed by default so the user can read the current screen."
  parameters := schema [
    parameter "eventId" "string" "The ID of the event to trigger",
    parameter "delay" "number" "Optional delay in seconds before triggering the event"] ["eventId"]
  builtin := true

def recordInput (s : BridgeSettings) (description : String) : ToolProfile where
  name := s.recordInputTool
  description := if description.isEmpty then "Record what the user said on the current screen"
    else description
  parameters := schema [
    parameter "title" "string" "A short title for the recorded input",
    parameter "summary" "string" "A one-line summary of what the user said",
    parameter "description" "string" "A short description providing more context",
    parameter "nextEventId" "string" "Optional event to trigger afterwards",
    parameter "delay" "number" "Optional delay in seconds before the next event",
    parameter "storeKey" "string" "Optional module state key for the summary"] ["title", "summary"]
  builtin := true

def endCall (s : BridgeSettings) : ToolProfile where
  name := s.endCallTool
  description := "End the conversation when it is complete or the user wants to stop. " ++
    "Shows the feedback screen first."
  parameters := schema [
    parameter "reason" "string" "Why the conversation is ending",
    parameter "feedbackScreenId" "string" "Screen to show before ending"] []
  builtin := true

def ofTool (s : BridgeSettings) (t : Tool) : Except Fault ToolProfile := do
  let description ← t.description.toText
  if t.name = s.recordInputTool then return recordInput s description
  else return ⟨t.name, description, t.parameters, false⟩

def toDocument (t : ToolProfile) : Value :=
  .obj [("name", .str t.name), ("description", .str t.description), ("parameters", .obj t.parameters),
    ("builtin", .bool t.builtin)]

end ToolProfile

namespace Agent

def screenInstructions (a : Agent) : List String :=
  if a.screens.isEmpty then []
  else
    let given := a.screenPrompts.filter (·.2.truthy)
    if given.isEmpty then []
    else ["\n\n".intercalate (given.map fun p => "## SCREEN: " ++ p.1 ++ "\n" ++ p.2.text)]

end Agent

def instructionPart : Value → Except Fault (List String)
  | .str s => .ok (if s.isEmpty then [] else [s])
  | v => if v.truthy then .error .wrongKind else .ok []

def fullInstructions (j : Journey) (a : Agent) : Except Fault String := do
  let system ← instructionPart j.systemPrompt
  let own ← instructionPart a.prompt
  return "\n\n".intercalate (system ++ own ++ a.screenInstructions)

namespace Profile

def ofAgent (s : BridgeSettings) (j : Journey) (a : Agent) : Except Fault Profile := do
  let own ← a.tools.mapM (ToolProfile.ofTool s)
  let trigger := if a.screens.isEmpty then [] else [ToolProfile.triggerEvent s]
  let text ← fullInstructions j a
  let voice ← (a.voice.orElse j.voice).toText?
  let handoffDescription ← (a.handoffDescription.orElse (.str a.name)).toText
  return {
    agentId := a.id
    name := Text.camelCase a.name
    voice
    instructions := text
    tools := own ++ trigger ++ [ToolProfile.endCall s]
    handoffs := (a.handoffs.filterMap j.agent?).map fun b => Text.camelCase b.name
    handoffDescription }

def toolNames (p : Profile) : List String := p.tools.map ToolProfile.name

def toDocument (p : Profile) : Value :=
  .obj [
    ("agentId", .str p.agentId),
    ("name", .str p.name),
    ("voice", Value.ofOption p.voice),
    ("instructions", .str p.instructions),
    ("tools", .list (p.tools.map ToolProfile.toDocument)),
    ("handoffs", Value.strs p.handoffs),
    ("handoffDescription", .str p.handoffDescription)]

end Profile

end GuidedJourney
