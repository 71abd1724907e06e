import GuidedJourney.Simulation.World

namespace GuidedJourney

inductive ScriptStep where
  | tool (name args : Value)
  | back
  | handoff (agent : Value)
  | event (id element values : Value)

namespace ScriptStep

/-- The first key that tells what is done counts; without any, a step is an event. -/
def ofFields (fields : Fields) : ScriptStep :=
  let get := Fields.get fields
  if Fields.has fields "tool" then .tool (get "tool") (get "args")
  else if Fields.has fields "back" then .back
  else if Fields.has fields "handoff" then .handoff (get "handoff")
  else .event (get "event") (get "element") (get "values")

def toDocument : ScriptStep → Value
  | .tool name args => .obj [("tool", name), ("args", args)]
  | .back => .obj [("back", .bool true)]
  | .handoff agent => .obj [("handoff", agent)]
  | .event id element values => .obj [("event", id), ("element", element), ("values", values)]

def listOfDocument? : Value → Option (List ScriptStep)
  | .list xs => some ((xs.filterMap Value.asFields?).map ofFields)
  | _ => none

def label : ScriptStep → String
  | .tool name _ => "tool " ++ name.text
  | .back => "back"
  | .handoff agent => "handoff " ++ agent.text
  | .event id element _ =>
    "event " ++ id.text ++ if element.truthy then "@" ++ element.text else ""

def call : ScriptStep → Call
  | .tool name args => .tool name.text args
  | .back => .demand .back
  | .handoff agent => .demand (.handoff agent)
  | .event id element values => .dispatch (id.orElse (.str "")) element .null values .null

end ScriptStep

structure Scene where
  label : String
  response : Response

namespace Scene

def warnings (s : Scene) : Value :=
  let text := "; ".intercalate s.response.warnings
  if text.isEmpty then .null else .str text

def fields (s : Scene) : Fields := [
  ("step", .str s.label),
  ("outcome", .str s.response.outcome.tag),
  ("screen", Value.ofOption s.response.screenId),
  ("agent", Value.ofOption s.response.agentId),
  ("completed", .bool s.response.completed),
  ("warnings", s.warnings)]

end Scene

structure Performance where
  scenes : List Scene
  run : Run
  calls : List ServiceCall

namespace World

def respond (op : Operation) (w : World) : World × Except Refusal (Option Response) :=
  let (w, upshot) := w.run op
  (w, upshot.getD (.ok none))

def isCompleted (session : Nat) (w : World) : Bool :=
  (w.host.session? session).any fun s => s.run.completed

def play (session : Nat) : List ScriptStep → World → Except Refusal (World × List Scene)
  | [], w => .ok (w, [])
  | step :: steps, w =>
    match w.respond (.call session step.call) with
    | (_, .error e) => .error e
    | (w, .ok r) => do
      let scene := r.toList.map (Scene.mk step.label)
      if w.isCompleted session then return (w, scene)
      let (w, scenes) ← play session steps w
      return (w, scene ++ scenes)

end World

def Journey.perform (u : Setup) (state : Fields) (script : List ScriptStep) (j : Journey) :
    Except Refusal Performance := do
  let host : Host := { setup := u }
  let session := host.sessions.length
  let (w, started) := World.respond (.start (← host.newRun j [] state "simulation")) { host }
  let first := (← started).toList.map (Scene.mk "start")
  let (w, scenes) ← w.play session script
  match w.host.session? session with
  | some s => return ⟨first ++ scenes, s.run, s.calls⟩
  | none => throw (.unknownRun "simulation")

end GuidedJourney
