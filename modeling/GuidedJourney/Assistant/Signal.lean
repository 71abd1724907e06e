import GuidedJourney.Run.Response

namespace GuidedJourney

inductive SignalKind where
  | unchanged | screenChanged | handoff | completed
  deriving DecidableEq, Repr

def SignalKind.tag : SignalKind → String
  | .unchanged => "unchanged"
  | .screenChanged => "screen_changed"
  | .handoff => "handoff"
  | .completed => "completed"

structure Signal where
  screenId : Option String
  agentId : Option String
  completed : Bool
  completionReason : Option String
  kind : SignalKind
  /-- What the assistant is to keep in mind on the screen. -/
  screenPrompt : Option String
  toolCalls : List ToolCall
  warnings : List String
  delayed : Bool

def Value.toText? : Value → Except Fault (Option String)
  | .null => .ok none
  | .str s => .ok (some s)
  | _ => .error .invalidField

namespace Signal

def kindOf (r : Response) : SignalKind :=
  if r.completed then .completed
  else if r.handedOff then .handoff
  else if r.navigated then .screenChanged
  else .unchanged

def promptOf (j : Journey) (r : Response) : Value :=
  match r.agentId.bind j.agent?, r.screenId with
  | some agent, some id => if id.isEmpty then .null else Fields.get agent.screenPrompts id
  | _, _ => .null

def ofResponse (j : Journey) (r : Response) : Except Fault Signal := do
  let completionReason ← r.completionReason.toText?
  let screenPrompt ← (promptOf j r).toText?
  return {
    screenId := r.screenId
    agentId := r.agentId
    completed := r.completed
    completionReason
    kind := kindOf r
    screenPrompt
    toolCalls := r.toolCalls
    warnings := r.warnings
    delayed := r.delayed }

/-- The assistant is to say nothing more once the run is over. -/
def shouldStop (s : Signal) : Bool := s.completed

def toDocument (s : Signal) : Value :=
  .obj [
    ("screenId", Value.ofOption s.screenId),
    ("agentId", Value.ofOption s.agentId),
    ("completed", .bool s.completed),
    ("completionReason", Value.ofOption s.completionReason),
    ("kind", .str s.kind.tag),
    ("screenPrompt", Value.ofOption s.screenPrompt),
    ("toolCalls", .list (s.toolCalls.map ToolCall.toDocument)),
    ("warnings", Value.strs s.warnings),
    ("delayed", .bool s.delayed)]

end Signal

end GuidedJourney
