import GuidedJourney.Run.Response
import GuidedJourney.Settings.Basic

namespace GuidedJourney

structure Answer where
  runId : String
  key : Value
  value : Value
  screenId : Option String
  elementId : Value := .null
  agentId : Option String
  source : String := "state"
  metadata : Fields := []

namespace Answer

def isAnswerKey (settings : BridgeSettings) (key : String) : Bool :=
  settings.answerKeyPrefixes.any fun p => p.toList.isPrefixOf key.toList

/-- The updates that are looked through for answers. A key that is no text has no prefix, and breaks it
off. -/
def searched (updates : Entries) : Fields := Entries.texts (updates.takeWhile fun e => e.1.text?.isSome)

/-- The answers among the writes of a response. What the assistant has recorded is left to it. -/
def ofResponse (settings : BridgeSettings) (r : Response) : List Answer :=
  if r.eventId.asText? == some settings.recordInputTool then []
  else
    let updates := searched (r.writes.flatMap StateWrite.updates)
    (updates.filter fun u => isAnswerKey settings u.1).map fun u => {
      runId := r.runId
      key := .str u.1
      value := u.2
      screenId := r.previousScreenId
      elementId := r.elementId
      agentId := r.agentId }

def toDocument (a : Answer) : Value :=
  .obj [
    ("runId", .str a.runId),
    ("key", a.key),
    ("value", a.value),
    ("screenId", Value.ofOption a.screenId),
    ("elementId", a.elementId),
    ("agentId", Value.ofOption a.agentId),
    ("source", .str a.source),
    ("metadata", .obj a.metadata)]

def latest (answers : List Answer) : Except Fault Entries := do
  return Entries.overlay [] (← answers.mapM fun a => do return (← Key.ofValue a.key, a.value))

end Answer

end GuidedJourney
