import GuidedJourney.Definition.Screen
import GuidedJourney.State.Template

namespace GuidedJourney

abbrev Interactions := List (String × Fields)

structure ElementView where
  element : Element
  state : Fields
  /-- The position of the condition whose patch is applied. -/
  matched : Option Nat

structure SectionView where
  source : Section
  elements : List ElementView

structure ScreenView where
  screen : Screen
  sections : List SectionView

namespace Element

def given (e : Element) (interactions : Interactions) : Fields :=
  match e.id? with
  | some id => if id.isEmpty then [] else (interactions.lookup id).getD []
  | none => []

def patch (e : Element) (merged : Fields) (scopes : Scopes) :
    Except Fault (Option Nat × Fields) := do
  match ← Condition.lastHolding merged 0 none e.conditions with
  | none => return (none, [])
  | some i => return (some i, ← scopes.renderFields ((e.conditions[i]?.map Condition.patch).getD []))

/-- With `templates`, the texts of the whole state are filled in from them, and so are references in
the patch; otherwise references see the merged state in both scopes. -/
def view (e : Element) (merged : Fields) (interactions : Interactions) (templates : Option Scopes) :
    Except Fault ElementView := do
  let base := Fields.overlay e.state (e.given interactions)
  let (matched, patch) ← e.patch merged (templates.getD (Scopes.both merged))
  let state := Fields.overlay base patch
  match templates with
  | none => return ⟨e, state, matched⟩
  | some scopes => return ⟨e, ← scopes.renderFields state, matched⟩

end Element

namespace Screen

def view (s : Screen) (merged : Fields) (interactions : Interactions) (templates : Option Scopes) :
    Except Fault ScreenView := do
  let sections ← s.sections.mapM fun sec => do
    return (⟨sec, ← sec.elements.mapM (·.view merged interactions templates)⟩ : SectionView)
  return ⟨s, sections⟩

end Screen

namespace ElementView

def toDocument (v : ElementView) : Value :=
  .obj [
    ("type", .str v.element.kindTag),
    ("id", Value.ofOption v.element.id?),
    ("state", .obj v.state),
    ("style", .obj v.element.style),
    ("matchedCondition", (v.matched.map fun i => Value.int i).getD .null)]

end ElementView

namespace SectionView

def toDocument (v : SectionView) : Value :=
  .obj (v.source.header ++ [("elements", .list (v.elements.map ElementView.toDocument))])

end SectionView

namespace ScreenView

def element? (v : ScreenView) (id : Value) : Option ElementView :=
  (v.sections.flatMap SectionView.elements).find? fun e => id.isId e.element.id?

def toDocument (v : ScreenView) : Value :=
  .obj [
    ("screenId", .str v.screen.id),
    ("title", v.screen.title),
    ("hidesBackButton", .bool v.screen.hidesBackButton),
    ("sections", .list (v.sections.map SectionView.toDocument))]

end ScreenView

end GuidedJourney
