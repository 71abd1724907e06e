import GuidedJourney.State.Scope
import GuidedJourney.Value.Key

namespace GuidedJourney

structure StateWrite where
  scope : Scope
  updates : Entries

namespace StateWrite

def ofFields (scope : Scope) (updates : Fields) : StateWrite := ⟨scope, .ofFields updates⟩

def copies (w : StateWrite) : Bool := w.updates.all fun e => e.2.copies

/-- What is written up to the first value that cannot be copied. -/
def copied (w : StateWrite) : StateWrite := { w with updates := w.updates.takeWhile fun e => e.2.copies }

def toDocument (w : StateWrite) : Value :=
  .obj [("scope", .str w.scope.tag), ("updates", .obj w.updates.toFields)]

end StateWrite

structure Store where
  module : Fields := []
  screen : Fields := []
  /-- What is under keys that are no texts, in the module and on the screen. Nothing refers to it. -/
  oddModule : Entries := []
  oddScreen : Entries := []

namespace Store

def scope (s : Store) : Scope → Fields
  | .module => s.module
  | .screen => s.screen

def odd (s : Store) : Scope → Entries
  | .module => s.oddModule
  | .screen => s.oddScreen

def setScope (s : Store) (scope : Scope) (fields : Fields) : Store :=
  match scope with
  | .module => { s with module := fields }
  | .screen => { s with screen := fields }

def get (s : Store) (scope : Scope) (key : String) (default : Value) : Value :=
  (Fields.find? (s.scope scope) key).getD default

def write (s : Store) (scope : Scope) (updates : Fields) : Store :=
  s.setScope scope (Fields.overlay (s.scope scope) updates)

def commit (s : Store) (w : StateWrite) : Store :=
  match w.scope with
  | .module => { s with
    module := Fields.overlay s.module w.updates.texts
    oddModule := Entries.overlay s.oddModule w.updates.odds }
  | .screen => { s with
    screen := Fields.overlay s.screen w.updates.texts
    oddScreen := Entries.overlay s.oddScreen w.updates.odds }

def merged (s : Store) : Fields := Fields.overlay s.module s.screen

def resetScreen (s : Store) (initial : Fields) : Store := { s with screen := initial, oddScreen := [] }

def counter : Value → Int
  | .int n => n
  | _ => 0

def increment (s : Store) (scope : Scope) (key : String) (amount : Int) : Store × Int :=
  let n := counter (Fields.get (s.scope scope) key) + amount
  (s.setScope scope (Fields.put key (.int n) (s.scope scope)), n)

/-- Increments a counter inside an object; whatever is no object is replaced by one. -/
def incrementIn (s : Store) (scope : Scope) (key name : String) (amount : Int) : Store × Int :=
  let counters := (Fields.get (s.scope scope) key).fieldsOrEmpty
  let n := counter (Fields.get counters name) + amount
  (s.setScope scope (Fields.put key (.obj (Fields.put name (.int n) counters)) (s.scope scope)), n)

def toDocument (s : Store) : Value :=
  let shown (scope : Scope) : Value := .obj (s.scope scope ++ (s.odd scope).toFields)
  .obj [(Scope.module.tag, shown .module), (Scope.screen.tag, shown .screen)]

end Store

end GuidedJourney
