import GuidedJourney.Definition.Deeplink
import GuidedJourney.Definition.Journey
import GuidedJourney.Display.View

namespace GuidedJourney

structure AppliedEvent where
  sequence : Nat
  eventId : Value
  screenId : Option String
  elementId : Value

structure Completion where
  reason : Value
  flowCompleted : Bool

structure Run where
  id : String
  journey : Journey
  globals : List Screen
  agentId : Option String
  screenId : Option String := none
  store : Store := {}
  sequence : Nat := 0
  /-- The latest applied events, the last one at the end. -/
  log : List AppliedEvent := []
  logLimit : Nat
  /-- The ids of the screens on the way back, the current one at the end. -/
  stack : List String := []
  interactions : Interactions := []
  completion : Option Completion := none
  /-- Counts the screens entered and left, so that each stay on a screen has a number of its own. -/
  visit : Nat := 0

def nextScreen : String := "next-screen"
def prevScreen : String := "prev-screen"

namespace Run

def completed (r : Run) : Bool := r.completion.isSome

def completionReason (r : Run) : Value := (r.completion.map Completion.reason).getD .null

def flowCompleted (r : Run) : Bool := (r.completion.map Completion.flowCompleted).getD false

def agent? (r : Run) : Option Agent := r.agentId.bind r.journey.agent?

/-- Screens of the active agent go before the global ones. -/
def findScreen? (r : Run) (id : String) : Option Screen :=
  ((r.agent?).bind (·.screen? id)).or (r.globals.find? (·.id == id))

def screen? (r : Run) : Option Screen :=
  match r.screenId with
  | some id => if id.isEmpty then none else r.findScreen? id
  | none => none

def neighbour? (r : Run) (forward : Bool) : Option Screen := do
  let agent ← r.agent?
  let id ← r.screenId
  if id.isEmpty then none
  else
    let i ← agent.screenIndex? id
    if forward then agent.screens[i + 1]?
    else if i = 0 then none
    else agent.screens[i - 1]?

def target? (r : Run) (deeplink : String) : Except Fault (Option Screen) := do
  match ← screenIdOf deeplink with
  | none => return none
  | some id =>
    if id = nextScreen then return r.neighbour? true
    else if id = prevScreen then return r.neighbour? false
    else return r.findScreen? id

def context (r : Run) (transient : Fields) : Fields := Fields.overlay r.store.merged transient

def scopes (r : Run) : Scopes := Scopes.ofStore r.store

def lastOf {α : Type} (n : Nat) (xs : List α) : List α := xs.drop (xs.length - n)

def record (r : Run) (eventId elementId : Value) : Run :=
  { r with
    sequence := r.sequence + 1
    log := lastOf r.logLimit (r.log ++ [⟨r.sequence + 1, eventId, r.screenId, elementId⟩]) }

def arrive (r : Run) (s : Screen) (stack : List String) : Run :=
  { r with
    visit := r.visit + 1
    screenId := some s.id
    store := r.store.resetScreen s.state
    interactions := []
    stack }

def leave (r : Run) : Run :=
  { r with
    visit := r.visit + 1
    screenId := none
    store := r.store.resetScreen []
    interactions := [] }

def complete (r : Run) (reason : Value) (flowCompleted : Bool) : Run :=
  { r with completion := some ⟨reason, flowCompleted⟩ }

def view? (r : Run) (interpolate : Bool) : Except Fault (Option ScreenView) :=
  match r.screen? with
  | none => .ok none
  | some s => (s.view r.store.merged r.interactions (if interpolate then some r.scopes else none)).map some

def toDocument (r : Run) : Value :=
  .obj [
    ("runId", .str r.id),
    ("journeyId", .str r.journey.id),
    ("agentId", Value.ofOption r.agentId),
    ("screenId", Value.ofOption r.screenId),
    ("sequence", .int r.sequence),
    ("state", r.store.toDocument),
    ("navigationStack", Value.strs r.stack),
    ("interactions", .obj (r.interactions.map fun e => (e.1, Value.obj e.2))),
    ("completed", .bool r.completed),
    ("completionReason", r.completionReason),
    ("flowCompleted", .bool r.flowCompleted)]

end Run

namespace AppliedEvent

def toDocument (e : AppliedEvent) : Value :=
  .obj [("sequence", .int e.sequence), ("eventId", e.eventId), ("screenId", Value.ofOption e.screenId),
    ("elementId", e.elementId)]

end AppliedEvent

end GuidedJourney
