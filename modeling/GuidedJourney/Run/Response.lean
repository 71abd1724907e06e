import GuidedJourney.Run.Turn

namespace GuidedJourney

inductive Outcome where
  | applied
  /-- No event of that id is on offer. -/
  | unmatched
  | conditionsNotMet
  | scheduled
  /-- The run was completed before. -/
  | ignored
  /-- Going back or handing over is not possible from here. -/
  | rejected
  | started
  /-- A delayed event whose screen was left before its time came. -/
  | stale
  deriving DecidableEq, Repr

namespace Outcome

def tag : Outcome → String
  | .applied => "applied"
  | .unmatched => "unmatched"
  | .conditionsNotMet => "conditions_not_met"
  | .scheduled => "scheduled"
  | .ignored => "ignored"
  | .rejected => "rejected"
  | .started => "started"
  | .stale => "stale"

def isNoop : Outcome → Bool
  | .unmatched | .conditionsNotMet | .ignored | .rejected | .stale => true
  | .applied | .scheduled | .started => false

end Outcome

/-- What became of a request, with the place where the run stood afterwards. -/
structure Response where
  outcome : Outcome
  runId : String
  eventId : Value := .null
  elementId : Value := .null
  agentId : Option String
  screenId : Option String
  previousScreenId : Option String
  previousAgentId : Option String := none
  entered : List String := []
  completion : Option Completion
  delayed : Bool := false
  sequence : Nat
  writes : List StateWrite := []
  toolCalls : List ToolCall := []
  serviceCalls : List CallRecord := []
  warnings : List String := []

def Turn.response (t : Turn) (before : Run) (outcome : Outcome) : Response where
  outcome
  runId := t.run.id
  agentId := t.run.agentId
  screenId := t.run.screenId
  previousScreenId := before.screenId
  entered := t.entered
  completion := t.run.completion
  sequence := t.run.sequence
  writes := t.writes
  toolCalls := t.toolCalls
  serviceCalls := t.serviceCalls
  warnings := t.warnings

def ToolCall.toDocument (c : ToolCall) : Value :=
  .obj [("tool", .str c.tool), ("params", .obj c.params)]

def CallRecord.toDocument (c : CallRecord) : Value :=
  .obj [("name", .str c.call.name), ("params", .obj c.call.params), ("ok", .bool c.ok),
    ("error", Value.ofOption c.error)]

namespace Response

def completed (r : Response) : Bool := r.completion.isSome

def completionReason (r : Response) : Value := (r.completion.map Completion.reason).getD .null

def flowCompleted (r : Response) : Bool := (r.completion.map Completion.flowCompleted).getD false

def navigated (r : Response) : Bool := !r.entered.isEmpty

def handedOff (r : Response) : Bool := r.previousAgentId.isSome && r.previousAgentId != r.agentId

def isNoop (r : Response) : Bool := r.outcome.isNoop

def toDocument (r : Response) : Value :=
  .obj [
    ("outcome", .str r.outcome.tag),
    ("runId", .str r.runId),
    ("eventId", r.eventId),
    ("elementId", r.elementId),
    ("agentId", Value.ofOption r.agentId),
    ("screenId", Value.ofOption r.screenId),
    ("previousScreenId", Value.ofOption r.previousScreenId),
    ("enteredScreens", Value.strs r.entered),
    ("completed", .bool r.completed),
    ("completionReason", r.completionReason),
    ("flowCompleted", .bool r.flowCompleted),
    ("delayed", .bool r.delayed),
    ("sequence", .int r.sequence),
    ("stateWrites", .list (r.writes.map StateWrite.toDocument)),
    ("toolCalls", .list (r.toolCalls.map ToolCall.toDocument)),
    ("serviceCalls", .list (r.serviceCalls.map CallRecord.toDocument)),
    ("warnings", Value.strs r.warnings)]

end Response

end GuidedJourney
