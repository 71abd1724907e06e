import GuidedJourney.Proofs.EffectiveScreen
import GuidedJourney.Proofs.TemplateScan
import GuidedJourney.Proofs.ValidJourney

namespace GuidedJourney

def Template.reference (scope : Scope) (path : List Char) : String := String.ofList (mark scope ++ path)

namespace Scopes

theorem render_reference (s : Scopes) (scope : Scope) (path : List Char) :
    s.render (.str (Template.reference scope path)) =
      (s.find? (.scoped scope (Text.trim path))).map (·.getD .null) := by
  have hmark : Template.scopeMark? (Template.reference scope path).toList = some (scope, path) := by
    rw [Template.reference, String.toList_ofList]
    exact Template.scopeMark?_eq_some_iff.mpr rfl
  rw [render, renderText, hmark]

theorem render_found {s : Scopes} {scope : Scope} {path : List Char} {v : Value}
    (h : s.find? (.scoped scope (Text.trim path)) = .ok (some v)) :
    s.render (.str (Template.reference scope path)) = .ok v := by
  rw [render_reference, h]
  rfl

end Scopes

namespace Lobby

def run (module screen : Fields) : Run where
  id := "lobby"
  journey := Tour.journey
  globals := [Lobby.screen]
  agentId := some "guide"
  screenId := some "lobby"
  store := { module, screen }
  logLimit := 500

end Lobby

namespace Element

variable {e : Element} {merged : Fields} {is : Interactions} {ev : ElementView}

end Element

namespace Path

end Path

namespace Run

variable {r : Run} {s : Screen}

def templates (r : Run) (interpolate : Bool) : Option Scopes :=
  if interpolate then some r.scopes else none

end Run

end GuidedJourney
