import GuidedJourney.Run.Entry
import GuidedJourney.Run.Response

namespace GuidedJourney

/-- A delayed event. It belongs to the screen and to the visit on which it was put off. -/
structure Timer where
  id : Nat
  event : Value
  element : Value
  context : Value
  owner : Option String
  visit : Nat
  /-- Seconds to wait; what is no number is never waited out. -/
  delay : Option Binary64

/-- An event that was asked for; `armed` is the timer that asks for it, if one does. -/
structure EventCall where
  id : Value
  element : Value := .null
  /-- Values that conditions see and that are not kept. -/
  context : Fields := []
  /-- Values that the user has given to the element. -/
  values : Fields := []
  armed : Option Timer := none

inductive Demand where
  | start
  | event (call : EventCall)
  | back
  | handoff (agent : Value)
  | write (label : Value) (writes : List StateWrite)
  | terminate (reason : Value) (flowCompleted : Bool)

structure Request where
  demand : Demand
  /-- The tool whose call is counted when the request is taken up. -/
  tally : Option String := none

/-- What a timer asks for when it goes off. A context that is none asks for nothing. -/
def Timer.request? (t : Timer) : Option Request :=
  match t.context.toFields with
  | .error _ => none
  | .ok context =>
    some ⟨.event { id := t.event, element := t.element, context, armed := some t }, none⟩

def toolCallCounts : String := "toolCallCounts"

def Interactions.give (id : String) (values : Fields) : Interactions → Interactions
  | [] => [(id, Fields.overlay [] values)]
  | (k, v) :: rest =>
    if k = id then (k, Fields.overlay v values) :: rest else (k, v) :: give id values rest

def Element.allows (e : Element) (f : String × Value) : Bool := e.interactiveKeys.contains f.1

namespace Screen

/-- The event of an id that an element offers, or the screen itself where no element is named.
Elements of unknown kinds offer none. -/
def offers? (s : Screen) (id element : Value) : Option Event :=
  if element.truthy then (s.element? element).bind fun e => if e.kind?.isSome then e.event? id else none
  else s.event? id

end Screen

namespace Act

variable (rules : Rules)

def refuse (e : Element) (values : Fields) : Act Unit :=
  let dropped := (Fields.keys (values.filter (!e.allows ·))).mergeSort fun a b => decide (a ≤ b)
  if dropped.isEmpty then pure ()
  else warn ("Interaction keys not writable on " ++ e.kindTag ++ ": " ++ ", ".intercalate dropped)

def accept (e : Element) (values : Fields) : Act Unit :=
  let accepted := values.filter e.allows
  if accepted.isEmpty then pure ()
  else setRun fun r => { r with interactions := r.interactions.give (e.id?.getD "") accepted }

def giveValues (e : Element) (values : Fields) : Act Fields := do
  refuse e values
  accept e values
  return ((← run).interactions.lookup (e.id?.getD "")).getD []

def transientOf (s : Screen) (c : EventCall) : Act Fields := do
  if c.element.truthy && !c.values.isEmpty then
    match s.element? c.element with
    | some e => return Fields.overlay c.context (← giveValues e c.values)
    | none => return c.context
  else return c.context

def respond (before : Run) (outcome : Outcome) : Act Response := do
  return (← turn).response before outcome

def applyEvent (c : EventCall) (e : Event) (transient : Fields) : Act Outcome := do
  if ← allHold e.conditions transient then do
    setRun (·.record c.id c.element)
    conclude (enter rules) (← Action.performAll rules.canCall transient e.actions {})
    return .applied
  else return .conditionsNotMet

def eventOutcome (c : EventCall) : Act Outcome := do
  let r ← run
  if r.completed then return .ignored
  else if c.armed.any (·.visit != r.visit) then do
    ofExcept (c.id.legible Value.stackRoom)
    warn ("Delayed event " ++ c.id.text ++ " dropped: its screen was left")
    return .stale
  else match r.screen? with
    | none => do
      warn "No active screen"
      return .unmatched
    | some s => do
      let transient ← transientOf s c
      match s.offers? c.id c.element with
      | some e => applyEvent rules c e transient
      | none => return .unmatched

/-- An event without an id is asked for by the empty one. A response that says the run was over does
not tell whether the event was delayed. -/
def processEvent (c : EventCall) : Act Response := do
  let c := { c with id := c.id.orElse (.str "") }
  let before ← run
  let outcome ← eventOutcome rules c
  let r ← respond before outcome
  return { r with
    eventId := c.id
    elementId := c.element
    delayed := c.armed.isSome && outcome != .ignored }

def processStart : Act Response := do
  let before ← run
  match before.agent?.bind (·.screens.head?) with
  | none => pure ()
  | some s => enter rules s
  respond before .started

def previousScreen (r : Run) : Except String Screen :=
  match r.screen?.filter Screen.hidesBackButton with
  | some s => .error ("Back navigation disabled on " ++ s.id)
  | none => match r.stack.dropLast.getLast? with
    | none => .error "No previous screen"
    | some id => match r.findScreen? id with
      | none => .error ("Previous screen not found: " ++ id)
      | some s => .ok s

def processBack : Act Response := do
  let before ← run
  if before.completed then respond before .ignored
  else match previousScreen before with
    | .error message => do
      warn message
      respond before .rejected
    | .ok s => do
      release (.ofScreen before.screenId)
      modify fun t => { t with
        run := t.run.arrive s t.run.stack.dropLast
        entered := t.entered ++ [s.id] }
      respond before .applied

def handoffTarget? (r : Run) (id : Value) : Option Agent := do
  let agent ← r.agent?
  let name ← id.asText?
  let target ← r.journey.agent? name
  if agent.handoffs.contains name then some target else none

def handTo (target : Agent) : Act Unit := do
  release .all
  setRun fun r => { r with agentId := some target.id, stack := [] }
  match target.screens.head? with
  | some s => enter rules s
  | none => setRun Run.leave

def processHandoff (id : Value) : Act Response := do
  let before ← run
  if before.completed then respond before .ignored
  else match handoffTarget? before id with
    | none => do
      ofExcept (id.legible Value.stackRoom)
      warn ("Handoff target not reachable: " ++ id.text)
      respond before .rejected
    | some target => do
      handTo rules target
      let r ← respond before .applied
      return { r with previousAgentId := before.agentId }

def writeAll : List StateWrite → Act Unit
  | [] => pure ()
  | w :: ws => do
    write w
    writeAll ws

def processWrite (label : Value) (writes : List StateWrite) : Act Response := do
  let before ← run
  if before.completed then return { ← respond before .ignored with eventId := label }
  else do
    writeAll writes
    return { ← respond before .applied with eventId := label }

def processTerminate (reason : Value) (flowCompleted : Bool) : Act Response := do
  let before ← run
  if before.completed then respond before .ignored
  else do
    setRun (·.complete reason flowCompleted)
    release .all
    respond before .applied

def count (tally : Option String) : Act Unit :=
  setRun fun r => match tally with
    | some tool =>
      if r.completed then r
      else { r with store := (r.store.incrementIn .module toolCallCounts tool 1).1 }
    | none => r

end Act

def Request.process (rules : Rules) (q : Request) : Act Response := do
  Act.count q.tally
  match q.demand with
  | .start => Act.processStart rules
  | .event c => Act.processEvent rules c
  | .back => Act.processBack
  | .handoff agent => Act.processHandoff rules agent
  | .write label writes => Act.processWrite label writes
  | .terminate reason flowCompleted => Act.processTerminate reason flowCompleted

end GuidedJourney
