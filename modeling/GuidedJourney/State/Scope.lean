import GuidedJourney.Value.Basic

namespace GuidedJourney

inductive Scope where
  | screen
  | module
  deriving DecidableEq, Repr

namespace Scope

def tag : Scope → String
  | .screen => "screen"
  | .module => "module"

def ofValue (v : Value) (default : Scope) : Scope :=
  match v with
  | .str "screen" => .screen
  | .str "module" => .module
  | _ => default

end Scope

end GuidedJourney
