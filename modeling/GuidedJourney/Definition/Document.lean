import GuidedJourney.Definition.Journey
import GuidedJourney.Json.Reader
import GuidedJourney.Json.Writer
import GuidedJourney.Yaml.Writer

namespace GuidedJourney

inductive DocumentFormat where
  | json
  | yaml
  deriving DecidableEq

namespace DocumentFormat

def yamlSuffixes : List String := [".yaml", ".yml"]

def ofSuffix (suffix : String) : DocumentFormat :=
  if yamlSuffixes.contains (String.ofList (suffix.toList.map Char.toLower)) then .yaml else .json

/-- The value of a text; what YAML stands for is up to its reader. -/
def read (yaml : String → Except Fault Value) (f : DocumentFormat) (text : String) :
    Except Fault Value :=
  match f with
  | .json => Json.read text
  | .yaml => yaml text

end DocumentFormat

def Journey.write (f : DocumentFormat) (j : Journey) : Except Fault String :=
  let v := j.toDocument
  match f with
  | .json => if Json.hasDate v then .error .wrongKind else .ok (Json.indented 0 v)
  | .yaml => .ok (Yaml.write ⟨true, 80⟩ v)

end GuidedJourney
