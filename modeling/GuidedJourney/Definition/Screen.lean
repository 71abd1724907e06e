import GuidedJourney.Definition.Action
import GuidedJourney.Definition.Kinds

namespace GuidedJourney

/-- A named trigger that carries out its actions if its conditions hold. -/
structure Event where
  id : String
  kind : EventKind
  conditions : List Condition
  actions : List Action
  analyticsName : Value

structure Element where
  /-- The kind as the document names it. -/
  declared : Value
  state : Fields
  style : Fields
  conditions : List Condition
  events : List Event

structure Section where
  id : String
  title : Value
  position : Position
  layout : Layout
  direction : Direction
  scrollable : Bool
  elements : List Element

structure Screen where
  id : String
  title : Value
  hidesBackButton : Bool
  state : Fields
  sections : List Section
  events : List Event

def Value.isId (v : Value) (id : Option String) : Bool :=
  match v, id with
  | .null, none => true
  | .str s, some t => s == t
  | _, _ => false

namespace Event

def ofFields (fields : Fields) : Except Fault Event := do
  let get := Fields.get fields
  let actions := (Fields.find? fields "action").getD (get "actions")
  let conditions ← Condition.listOfValue (get "conditions")
  let actions ← Action.listOfValue actions
  return {
    id := (get "id").textOrEmpty
    kind := EventKind.ofValue (get "type")
    conditions, actions
    analyticsName := get "analyticsName" }

def listOfValue (v : Value) : Except Fault (List Event) := do (← v.objects).mapM ofFields

def toDocument (e : Event) : Value :=
  .obj ([
    ("id", .str e.id),
    ("type", .str e.kind.tag),
    ("conditions", .list (e.conditions.map Condition.toDocument)),
    ("action", .list (Action.toDocuments e.actions))] ++
    if e.analyticsName.truthy then [("analyticsName", e.analyticsName)] else [])

end Event

namespace Element

def kind? (e : Element) : Option ElementKind := ElementKind.ofValue? e.declared

def kindTag (e : Element) : String := (e.kind?.map ElementKind.tag).getD "unknown"

def id? (e : Element) : Option String :=
  match Fields.get e.state "id" with
  | .null => none
  | v => some v.text

def interactiveKeys (e : Element) : List String := (e.kind?.map ElementKind.interactiveKeys).getD []

def event? (e : Element) (id : Value) : Option Event := e.events.find? fun ev => id.asText? == some ev.id

def ofFields (fields : Fields) : Except Fault Element := do
  let get := Fields.get fields
  let conditions ← Condition.listOfValue (get "conditions")
  let events ← Event.listOfValue (get "events")
  return {
    declared := get "type"
    state := (get "state").fieldsOrEmpty
    style := (get "style").fieldsOrEmpty
    conditions, events }

def toDocument (e : Element) : Value :=
  .obj ([("type", e.declared.orElse (.str "unknown")), ("state", .obj e.state)] ++
    (if e.style.isEmpty then [] else [("style", .obj e.style)]) ++
    (if e.conditions.isEmpty then []
      else [("conditions", .list (e.conditions.map Condition.toDocument))]) ++
    (if e.events.isEmpty then [] else [("events", .list (e.events.map Event.toDocument))]))

end Element

namespace Section

def ofFields (fields : Fields) : Except Fault Section := do
  let get := Fields.get fields
  let elements ← (← (get "elements").objects).mapM Element.ofFields
  return {
    id := (get "id").textOrEmpty
    title := get "title"
    position := Position.ofValue (get "position")
    layout := Layout.ofValue (get "layout")
    direction := Direction.ofValue (get "direction")
    scrollable := (get "scrollable").truthy
    elements }

def header (s : Section) : Fields := [
  ("id", .str s.id),
  ("title", s.title),
  ("position", .str s.position.tag),
  ("layout", .str s.layout.tag),
  ("direction", .str s.direction.tag),
  ("scrollable", .bool s.scrollable)]

def toDocument (s : Section) : Value :=
  .obj (s.header ++ [("elements", .list (s.elements.map Element.toDocument))])

end Section

namespace Screen

def elements (s : Screen) : List Element := s.sections.flatMap Section.elements

def element? (s : Screen) (id : Value) : Option Element := s.elements.find? fun e => id.isId e.id?

def event? (s : Screen) (id : Value) : Option Event := s.events.find? fun ev => id.asText? == some ev.id

def ofFields (fields : Fields) : Except Fault Screen := do
  let get := Fields.get fields
  let sections ← (← (get "sections").objects).mapM Section.ofFields
  let events ← Event.listOfValue (get "events")
  return {
    id := (get "id").textOrEmpty
    title := get "title"
    hidesBackButton := (get "hidesBackButton").truthy
    state := (get "state").fieldsOrEmpty
    sections, events }

def toDocument (s : Screen) : Value :=
  .obj [
    ("id", .str s.id),
    ("title", s.title),
    ("hidesBackButton", .bool s.hidesBackButton),
    ("state", .obj s.state),
    ("sections", .list (s.sections.map Section.toDocument)),
    ("events", .list (s.events.map Event.toDocument))]

def listOfDocument (v : Value) : Except Fault (List Screen) :=
  let v := match v with
    | .obj fields => (Fields.get fields "screens").orElse (.list [])
    | v => v
  match v with
  | .list xs => (xs.filterMap Value.asFields?).mapM ofFields
  | _ => .error (.format .screensNotList)

end Screen

end GuidedJourney
