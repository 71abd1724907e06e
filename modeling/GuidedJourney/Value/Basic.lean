import GuidedJourney.Binary64.Basic
import GuidedJourney.Calendar.Basic
import GuidedJourney.Fault

namespace GuidedJourney

/-- A value of a document. Integers have any size and differ from floating-point numbers; the fields
of an object keep the order in which they were given. -/
inductive Value where
  | null
  | bool (b : Bool)
  | int (n : Int)
  | num (x : Binary64)
  | str (s : String)
  | list (items : List Value)
  | obj (fields : List (String × Value))
  | date (d : Date)
  | moment (t : Moment)
  deriving Inhabited

abbrev Fields := List (String × Value)

namespace Fields

def find? (fields : Fields) (key : String) : Option Value := fields.lookup key

def has (fields : Fields) (key : String) : Bool := (find? fields key).isSome

def keys (fields : Fields) : List String := fields.map Prod.fst

def get (fields : Fields) (key : String) : Value := (find? fields key).getD .null

/-- A present key keeps its place and takes the new value; a new one goes to the end. -/
def put {α : Type} (key : String) (value : α) : List (String × α) → List (String × α)
  | [] => [(key, value)]
  | (k, v) :: rest => if k = key then (k, value) :: rest else (k, v) :: put key value rest

def overlay (fields updates : Fields) : Fields :=
  updates.foldl (fun acc u => put u.1 u.2 acc) fields

def erase (key : String) (fields : Fields) : Fields := fields.filter (·.1 != key)

def ofPairs (pairs : List (String × Value)) : Fields := overlay [] pairs

end Fields

namespace Value

/-- Null, false, zero and whatever is empty do not count as given. -/
def truthy : Value → Bool
  | .null => false
  | .bool b => b
  | .int n => n != 0
  | .num x => !x.isZero
  | .str s => !s.isEmpty
  | .list xs => !xs.isEmpty
  | .obj fs => !fs.isEmpty
  | .date _ | .moment _ => true

def orElse (v fallback : Value) : Value := if v.truthy then v else fallback

def isNull : Value → Bool
  | .null => true
  | _ => false

def asText? : Value → Option String
  | .str s => some s
  | _ => none

def asFields? : Value → Option Fields
  | .obj fs => some fs
  | _ => none

def fieldsOrEmpty (v : Value) : Fields := v.asFields?.getD []

/-- The members of a sequence: the items of a list, the characters of a text, the keys of an object. -/
def members : Value → Except Fault (List Value)
  | .list xs => .ok xs
  | .str s => .ok (s.toList.map fun c => .str (String.singleton c))
  | .obj fs => .ok (fs.map fun f => .str f.1)
  | _ => .error .wrongKind

def membersOrNone (v : Value) : Except Fault (List Value) :=
  if v.truthy then v.members else .ok []

def objects (v : Value) : Except Fault (List Fields) := do
  return (← v.membersOrNone).filterMap asFields?

/-- The calls that the stack has room for, taken to be as many wherever a call is made. -/
def stackRoom : Nat := 960

def fits : Nat → Value → Bool
  | 0, .list _ => false
  | 0, .obj _ => false
  | n + 1, .list xs => xs.all (fits n)
  | n + 1, .obj fs => fs.all fun f => fits n f.2
  | _, _ => true

/-- Whether a value can be copied with all that is in it, which takes two calls for each level. -/
def copies (v : Value) : Bool := v.fits (stackRoom / 2)

def ofOption (x : Option String) : Value := (x.map Value.str).getD .null

def strs (xs : List String) : Value := .list (xs.map .str)

end Value

end GuidedJourney
