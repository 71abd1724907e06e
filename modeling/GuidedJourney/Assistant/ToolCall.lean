import GuidedJourney.Session.Delay
import GuidedJourney.Session.Queue

namespace GuidedJourney

structure RecordedInput where
  title : Value
  summary : Value
  description : Value
  storeKey : Value
  nextEvent : Value
  delay : Value

inductive Errand where
  | none
  /-- To complain that the event to trigger has no id. -/
  | nameless
  | arm (event : String) (delay : Binary64) (context : Fields)
  | record (input : RecordedInput)
  /-- To end the run after the feedback event. -/
  | hangUp (reason : Value)
  | hungUp (feedback : Response)

/-- Someone who waits for what becomes of a call, and what is left to be done for it. -/
structure Caller where
  ticket : Nat
  errand : Errand := .none

abbrev CallStep := Session Caller × Option (Except Fault Response)

namespace RecordedInput

def ofFields (args : Fields) : RecordedInput where
  title := (Fields.get args "title").orElse (.str "")
  summary := (Fields.get args "summary").orElse (.str "")
  description := (Fields.get args "description").orElse (.str "")
  storeKey := Fields.get args "storeKey"
  nextEvent := Fields.get args "nextEventId"
  delay := Fields.get args "delay"

def writes (i : RecordedInput) (timestamp : Int) : Except Fault (List StateWrite) := do
  let screen : StateWrite := .ofFields .screen [
    ("recordedInputTitle", i.title),
    ("recordedInputSummary", i.summary),
    ("recordedInputDescription", i.description),
    ("recordedInputTimestamp", .int timestamp)]
  if i.storeKey.truthy && i.summary.truthy then
    return [screen, ⟨.module, [(← Key.ofValue i.storeKey, i.summary)]⟩]
  else return [screen]

def answer (i : RecordedInput) (settings : BridgeSettings) (r : Response) : Answer where
  runId := r.runId
  key := i.storeKey.orElse i.title
  value := i.summary
  screenId := r.screenId
  agentId := r.agentId
  source := settings.recordInputTool
  metadata := [("title", i.title), ("description", i.description)]

end RecordedInput

namespace Session

variable (u : Setup)

def ask (ticket : Nat) (errand : Errand) (q : Request) (s : Session Caller) : CallStep :=
  (s.submit u ⟨ticket, errand⟩ q, none)

def ended (outcome : Except Fault Response) (s : Session Caller) : CallStep := (s, some outcome)

def complaint : String := "trigger_event called without an eventId"

def complain (event : String) (r : Response) : Response :=
  if event.isEmpty then { r with warnings := r.warnings ++ [complaint] } else r

def arm (event : String) (delay : Binary64) (context : Fields) (s : Session Caller) : CallStep :=
  let (s, r) := s.schedule (.str event) .null (.obj context) (some delay)
  ended (.ok (complain event r)) s

/-- The tool that triggers any event. Events that navigate are put off by default, so that the user
can read the current screen; the tool call is counted before an event is put off. -/
def triggerEvent (ticket : Nat) (tally : Option String) (args : Fields) (s : Session Caller) :
    CallStep :=
  match (Fields.get args "eventId").printedOrEmpty, (Fields.get args "delay").delay with
  | .error f, _ | .ok _, .error f => ended (.error f) s
  | .ok event, .ok given =>
    let context := Fields.erase "delay" (Fields.erase "eventId" args)
    let navigates := u.bridge.navigationEventPrefix.toList.isPrefixOf event.toList
    let delay := if given.isZero && navigates then u.bridge.navigationDelay else given
    if delay.isPositive then
      if tally.isSome then s.ask u ticket (.arm event delay context) ⟨.write (.str event) [], tally⟩
      else s.arm event delay context
    else
      s.ask u ticket (if event.isEmpty then .nameless else .none)
        ⟨.event { id := .str event, context }, tally⟩

def recordInput (ticket : Nat) (tally : Option String) (args : Fields) (s : Session Caller) :
    CallStep :=
  let input := RecordedInput.ofFields args
  match input.writes u.timestamp with
  | .error f => ended (.error f) s
  | .ok writes =>
    s.ask u ticket (.record input) ⟨.write (.str u.bridge.recordInputTool) writes, tally⟩

def feedbackEvent (args : Fields) : Except Fault String :=
  let screen := Fields.get args "feedbackScreenId"
  if screen.truthy then screen.printed.map (u.bridge.navigationEventPrefix ++ ·)
  else .ok u.bridge.feedbackEventId

def endCall (ticket : Nat) (tally : Option String) (args : Fields) (s : Session Caller) : CallStep :=
  match feedbackEvent u args with
  | .error f => ended (.error f) s
  | .ok event => s.ask u ticket (.hangUp (Fields.get args "reason")) ⟨.event { id := .str event }, tally⟩

/-- The event that an agent's tool stands for; any other name is itself the id of an event. -/
def toolEvent (r : Run) (name : String) : Value :=
  ((r.agent?.bind (·.tool? name)).map Tool.target).getD (.str name)

def otherTool (ticket : Nat) (tally : Option String) (name : String) (args : Fields)
    (s : Session Caller) : CallStep :=
  s.ask u ticket .none ⟨.event {
    id := toolEvent s.run name
    element := Fields.get args "elementId"
    context := Fields.erase "elementId" args }, tally⟩

def callTool (ticket : Nat) (name : String) (args : Value) (s : Session Caller) : CallStep :=
  match args.toFields with
  | .error f => ended (.error f) s
  | .ok args =>
    let tally := if u.bridge.trackToolCalls then some name else none
    if name = u.bridge.triggerEventTool then s.triggerEvent u ticket tally args
    else if name = u.bridge.recordInputTool then s.recordInput u ticket tally args
    else if name = u.bridge.endCallTool then s.endCall u ticket tally args
    else s.otherTool u ticket tally name args

def recordAnswer (a : Answer) (s : Session Caller) : Session Caller :=
  if u.recording then { s with answers := s.answers ++ [a] } else s

def recorded (input : RecordedInput) (r : Response) (s : Session Caller) : CallStep :=
  if r.isNoop then ended (.ok r) s
  else
    let s := s.recordAnswer u (input.answer u.bridge r)
    if input.nextEvent.truthy then
      match input.delay.delay, input.nextEvent.printed with
      | .error f, _ | .ok _, .error f => ended (.error f) s
      | .ok given, .ok event =>
        let delay := if given.isZero then u.bridge.nextEventDelay else given
        ended (.ok r) (s.schedule (.str event) .null .null (some delay)).1
    else ended (.ok r) s

/-- The response to the feedback event, with the place where the run stood at the end. -/
def hungUp (feedback last : Response) : Response :=
  { feedback with
    agentId := last.agentId
    screenId := last.screenId
    completion := last.completion
    sequence := last.sequence }

def resume (c : Caller) (outcome : Except Fault Response) (s : Session Caller) : CallStep :=
  match c.errand, outcome with
  | _, .error f => ended (.error f) s
  | .none, .ok r => ended (.ok r) s
  | .nameless, .ok r => ended (.ok (complain "" r)) s
  | .arm event delay context, .ok _ => s.arm event delay context
  | .record input, .ok r => s.recorded u input r
  | .hangUp reason, .ok r => s.ask u c.ticket (.hungUp r) ⟨.terminate reason true, none⟩
  | .hungUp feedback, .ok r => ended (.ok (hungUp feedback r)) s

end Session

end GuidedJourney
