import GuidedJourney.Assistant.ToolCall

namespace GuidedJourney

inductive Call where
  | dispatch (event element context values delay : Value)
  | schedule (event element context delay : Value)
  | tool (name : String) (args : Value)
  | demand (d : Demand)

namespace Session

variable (u : Setup)

/-- Asks for an event, or puts it off if there is a delay; values are given only without one. -/
def dispatch (ticket : Nat) (event element context values delay : Value) (s : Session Caller) :
    CallStep :=
  match delay.isPositive with
  | .error f => ended (.error f) s
  | .ok true =>
    let (s, r) := s.schedule event element context delay.seconds?
    ended (.ok r) s
  | .ok false =>
    match context.toFields, values.toFields with
    | .error f, _ | _, .error f => ended (.error f) s
    | .ok context, .ok values =>
      s.ask u ticket .none ⟨.event { id := event, element, context, values }, none⟩

def begin (ticket : Nat) (c : Call) (s : Session Caller) : CallStep :=
  match c with
  | .dispatch event element context values delay =>
    s.dispatch u ticket event element context values delay
  | .schedule event element context delay =>
    let (s, r) := s.schedule event element context delay.seconds?
    ended (.ok r) s
  | .tool name args => s.callTool u ticket name args
  | .demand d => s.ask u ticket .none ⟨d, none⟩

end Session

end GuidedJourney
