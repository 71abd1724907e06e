import GuidedJourney.Value.Number
import GuidedJourney.Value.Text

namespace GuidedJourney

/-- A key of the state. In documents all keys are texts; what is given for a key may be something else. -/
inductive Key where
  | text (s : String)
  | odd (v : Value)

namespace Key

def ofValue : Value → Except Fault Key
  | .list _ | .obj _ => .error .wrongKind
  | .str s => .ok (.text s)
  | v => .ok (.odd v)

def name : Key → String
  | .text s => s
  | .odd v => v.text

def text? : Key → Option String
  | .text s => some s
  | .odd _ => none

/-- Keys that are no texts are told apart as values are, so that 1 and true are the same. -/
def same : Key → Key → Bool
  | .text s, .text t => s == t
  | .odd v, .odd w => Value.sameScalar v w
  | _, _ => false

end Key

abbrev Entries := List (Key × Value)

namespace Entries

def ofFields (fields : Fields) : Entries := fields.map fun f => (.text f.1, f.2)

def texts (entries : Entries) : Fields := entries.filterMap fun e => e.1.text?.map (·, e.2)

def odds (entries : Entries) : Entries := entries.filter fun e => e.1.text?.isNone

def put (key : Key) (value : Value) : Entries → Entries
  | [] => [(key, value)]
  | (k, v) :: rest => if k.same key then (k, value) :: rest else (k, v) :: put key value rest

def overlay (entries updates : Entries) : Entries :=
  updates.foldl (fun entries e => put e.1 e.2 entries) entries

def find? (entries : Entries) (key : Key) : Option Value :=
  (List.find? (fun e => e.1.same key) entries).map Prod.snd

def toFields (entries : Entries) : Fields := entries.map fun e => (e.1.name, e.2)

end Entries

end GuidedJourney
