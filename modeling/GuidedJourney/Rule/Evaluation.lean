import GuidedJourney.Rule.Basic

namespace GuidedJourney

inductive RuleFault where
  | unknownOperator (operator : String)
  | fault (cause : Fault)
  deriving DecidableEq

def Reference.resolve (context : Fields) (r : Reference) : Except RuleFault Value :=
  (Path.get context r.path r.default).mapError .fault

def Rule.nested {α : Type} (calls room : Nat) (x : Nat → Except RuleFault α) : Except RuleFault α :=
  if room < calls then .error (.fault .tooDeep) else x (room - calls)

mutual

def Rule.truth (context : Fields) : Nat → Rule → Except RuleFault Bool
  | _, .literal v => .ok v.truthy
  | _, .reference ref => (ref.resolve context).map Value.truthy
  | room, .equal negated left right => do
    let v ← left.resolve context room
    let w ← right.resolve context room
    let e ← Rule.nested 1 room fun room => (v.looselyEquals w room).mapError .fault
    return e != negated
  | room, .all rules => Rule.nested 3 room fun room => Rule.allTrue context room rules
  | room, .any rules => Rule.nested 3 room fun room => Rule.anyTrue context room rules
  | _, .unknown op => .error (.unknownOperator op)

def Rule.allTrue (context : Fields) : Nat → List Rule → Except RuleFault Bool
  | _, [] => .ok true
  | room, r :: rs => do
    if ← r.truth context room then Rule.allTrue context room rs else return false

def Rule.anyTrue (context : Fields) : Nat → List Rule → Except RuleFault Bool
  | _, [] => .ok false
  | room, r :: rs => do
    if ← r.truth context room then return true else Rule.anyTrue context room rs

def Operand.resolve (context : Fields) : Nat → Operand → Except RuleFault Value
  | _, .value v => .ok v
  | _, .reference ref => ref.resolve context
  | room, .list items => Rule.nested 2 room fun room => (Operand.resolveAll context room items).map .list
  | room, .rule r => Rule.nested 2 room fun room => (r.truth context room).map .bool

def Operand.resolveAll (context : Fields) : Nat → List Operand → Except RuleFault (List Value)
  | _, [] => .ok []
  | room, x :: xs => do
    return (← x.resolve context room) :: (← Operand.resolveAll context room xs)

end

inductive RuleNote where
  | unknownOperator (operator : String)
  | failed
  deriving DecidableEq

/-- The truth of a rule given as data, with a note if it was set to false for want of one. -/
def Value.judge (rule : Value) (context : Fields) (room : Nat := stackRoom) :
    Except Fault (Bool × Option RuleNote) :=
  match (Rule.ofValue rule).truth context room with
  | .ok b => .ok (b, none)
  | .error (.unknownOperator op) => .ok (false, some (.unknownOperator op))
  | .error (.fault .tooLarge) => .error .tooLarge
  | .error (.fault _) => .ok (false, some .failed)

def Value.holds (rule : Value) (context : Fields) (room : Nat := stackRoom) : Except Fault Bool :=
  (rule.judge context room).map Prod.fst

end GuidedJourney
