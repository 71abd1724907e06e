import GuidedJourney.Run.Turn

namespace GuidedJourney

inductive Ending where
  | exhausted
  | navigate (screenId : String)
  | close (reason : Value) (flowCompleted : Bool)

structure Batch where
  ending : Ending := .exhausted
  executed : Nat := 0
  skipped : Nat := 0

def storeAnswerTool : String := "store_answer"
def completeQuizTool : String := "complete_quiz"

namespace Act

def askService (canCall : Bool) (serviceName : String) (c : ServiceCall) : Act ServiceReply :=
  if serviceName.isEmpty then
    pure (.failure (some "Service call without a service name") .null)
  else if !canCall then pure (.failure (some "No service caller configured") .null)
  else call c

def callService (canCall : Bool) (target : ServiceTarget) : Act ServiceReply := do
  let params ← render target.parameters
  ofExcept target.legible
  let c : ServiceCall := ⟨target.operation, params⟩
  let reply ← askService canCall target.serviceName c
  modify fun t => { t with serviceCalls := t.serviceCalls ++ [⟨c, reply.isOk, reply.error?⟩] }
  return reply

def storePayload (mapping : Option ResponseMapping) (payload : Value) : Act Unit :=
  match mapping with
  | none => pure ()
  | some m => do write ⟨m.scope, [(← ofExcept (Key.ofValue m.key), payload)]⟩

/-- Hands a tool call to the agent; an answer to a question and the end of a quiz are also written
into the state. -/
def callTool (name : String) (parameters : Fields) : Act Unit := do
  let params ← render parameters
  modify fun t => { t with toolCalls := t.toolCalls ++ [⟨name, params⟩] }
  if name = storeAnswerTool then
    let question := Fields.get params "questionId"
    let answer := Fields.get params "answer"
    if question.truthy && answer.truthy then do
      ofExcept (question.legible Value.stackRoom)
      write (.ofFields .module [("answer_" ++ question.text, answer)])
    else pure ()
  else if name = completeQuizTool then write (.ofFields .module [("quizCompleted", .bool true)])
  else pure ()

def findTarget (deeplink : String) : Act (Option Screen) := do
  match ← ofExcept ((← run).target? deeplink) with
  | some s => return some s
  | none => do
    warn ("Navigation target not found: " ++ deeplink)
    return none

end Act

namespace Action

open Act

variable (canCall : Bool) (transient : Fields)

mutual

/-- Carries out one action whose conditions hold; the flag says whether those after it follow. -/
def perform : Action → Batch → Act (Batch × Bool)
  | .navigate _ deeplink, b => do
    match ← findTarget deeplink with
    | some s => return ({ b with ending := .navigate s.id }, false)
    | none => return (b, true)
  | .update _ scope updates, b => do
    write (.ofFields scope updates)
    return (b, true)
  | .call _ target onSuccess onError, b => do
    match ← callService canCall target with
    | .success payload => do
      storePayload target.mapping payload
      return (← performAll onSuccess b, false)
    | .failure .. => return (← performAll onError b, false)
  | .close _ flowCompleted parameters, b => do
    ofExcept (reasonLegible parameters)
    return ({ b with ending := .close (closeReason parameters) flowCompleted }, false)
  | .tool _ name parameters, b => do
    callTool name parameters
    return (b, true)
  | .unknown _ tag _, b => do
    warn ("Unknown action type ignored: " ++ tag)
    return (b, true)

def performAll : List Action → Batch → Act Batch
  | [], b => pure b
  | a :: as, b => do
    if ← allHold a.conditions transient then
      let (b, goesOn) ← perform a { b with executed := b.executed + 1 }
      if goesOn then performAll as b else pure b
    else performAll as { b with skipped := b.skipped + 1 }

end

end Action

end GuidedJourney
