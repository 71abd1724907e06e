import GuidedJourney.Calendar.Iso
import GuidedJourney.Definition.Screen
import GuidedJourney.Value.Key

namespace GuidedJourney

structure Tool where
  name : String
  id : Value
  description : Value
  parameters : Fields
  eventId : Value

structure Agent where
  id : String
  name : String
  voice : Value
  prompt : Value
  tools : List Tool
  handoffs : List String
  handoffDescription : Value
  screens : List Screen
  screenPrompts : Fields

structure Journey where
  id : String
  name : String
  description : Value
  systemPrompt : Value
  voice : Value
  voiceEnabled : Bool
  agents : List Agent
  startingAgentId : Value
  version : String
  ownerId : Value
  createdAt : Option Moment
  updatedAt : Option Moment

namespace Value

def pair (v : Value) : Except Fault (String × Value) := do
  match ← v.members with
  | [k, w] => return ((← Key.ofValue k).name, w)
  | _ => throw .notPairs

def toFields (v : Value) : Except Fault Fields :=
  if !v.truthy then .ok []
  else match v with
    | .obj fs => .ok fs
    | v => do return Fields.ofPairs (← (← v.members).mapM pair)

/-- A moment given as such or as text; what cannot be read counts as left out. -/
def toMoment? (v : Value) : Option Moment :=
  if !v.truthy then none
  else match v with
    | .moment t => some t
    | v => Moment.ofText? (String.ofList (v.text.toList.flatMap fun c =>
        if c = 'Z' then "+00:00".toList else [c]))

end Value

namespace Tool

def target (t : Tool) : Value := t.eventId.orElse (.str t.name)

def ofFields (fields : Fields) : Except Fault Tool := do
  let get := Fields.get fields
  let parameters ← (get "parameters").toFields
  return {
    name := (get "name").textOrEmpty
    id := get "id"
    description := (get "description").orElse (.str "")
    parameters
    eventId := get "eventId" }

def toDocument (t : Tool) : Value :=
  .obj ([
    ("id", t.id),
    ("name", .str t.name),
    ("description", t.description),
    ("parameters", .obj t.parameters)] ++
    if t.eventId.truthy then [("eventId", t.eventId)] else [])

end Tool

namespace Agent

/-- An agent without handoffs ends the conversation. -/
def isTerminal (a : Agent) : Bool := a.handoffs.isEmpty

def screen? (a : Agent) (id : String) : Option Screen := a.screens.find? (·.id == id)

def screenIndex? (a : Agent) (id : String) : Option Nat := a.screens.findIdx? (·.id == id)

def tool? (a : Agent) (name : String) : Option Tool := a.tools.find? (·.name == name)

def ofFields (fields : Fields) : Except Fault Agent := do
  let get := Fields.get fields
  let tools ← (← (get "tools").objects).mapM Tool.ofFields
  let handoffs ← (get "handoffs").membersOrNone
  let screens ← (← (get "screens").objects).mapM Screen.ofFields
  let screenPrompts ← (get "screenPrompts").toFields
  return {
    id := (get "id").textOrEmpty
    name := (get "name").textOrEmpty
    voice := get "voice"
    prompt := (get "prompt").orElse (.str "")
    tools
    handoffs := handoffs.map Value.text
    handoffDescription := get "handoffDescription"
    screens, screenPrompts }

def toDocument (a : Agent) : Value :=
  .obj [
    ("id", .str a.id),
    ("name", .str a.name),
    ("voice", a.voice),
    ("prompt", a.prompt),
    ("tools", .list (a.tools.map Tool.toDocument)),
    ("handoffs", Value.strs a.handoffs),
    ("handoffDescription", a.handoffDescription),
    ("screens", .list (a.screens.map Screen.toDocument)),
    ("screenPrompts", .obj a.screenPrompts)]

end Agent

namespace Journey

def agent? (j : Journey) (id : String) : Option Agent :=
  if id.isEmpty then none else j.agents.find? (·.id == id)

def startingAgent? (j : Journey) : Option Agent :=
  if j.startingAgentId.truthy then j.startingAgentId.asText?.bind j.agent? else j.agents.head?

def ofFields (fields : Fields) : Except Fault Journey := do
  let get := Fields.get fields
  let agents ← (← (get "agents").objects).mapM Agent.ofFields
  return {
    id := ((get "id").orElse (get "_id")).textOrEmpty
    name := (get "name").textOrEmpty
    description := (get "description").orElse (.str "")
    systemPrompt := (get "systemPrompt").orElse (.str "")
    voice := get "voice"
    voiceEnabled := ((Fields.find? fields "voiceEnabled").getD (.bool true)).truthy
    agents
    startingAgentId := get "startingAgentId"
    version := ((get "version").orElse (.str "1.0.0")).text
    ownerId := get "ownerId"
    createdAt := (get "createdAt").toMoment?
    updatedAt := (get "updatedAt").toMoment? }

def ofDocument : Value → Except Fault Journey
  | .obj fields => ofFields (((Fields.get fields "journey").asFields?).getD fields)
  | _ => .error (.format .journeyNotObject)

def momentDocument (t : Option Moment) : Value := Value.ofOption (t.map Moment.text)

def toDocument (j : Journey) : Value :=
  .obj [
    ("id", .str j.id),
    ("name", .str j.name),
    ("description", j.description),
    ("systemPrompt", j.systemPrompt),
    ("voice", j.voice),
    ("voiceEnabled", .bool j.voiceEnabled),
    ("agents", .list (j.agents.map Agent.toDocument)),
    ("startingAgentId", j.startingAgentId),
    ("version", .str j.version),
    ("ownerId", j.ownerId),
    ("createdAt", momentDocument j.createdAt),
    ("updatedAt", momentDocument j.updatedAt)]

end Journey

end GuidedJourney
