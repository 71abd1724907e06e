import GuidedJourney.Value.Number

namespace GuidedJourney.Value

def isBlank : Value → Bool
  | .null => true
  | .str s => s.isEmpty
  | _ => false

def isText : Value → Bool
  | .str _ => true
  | _ => false

def equalAsNumbers (v w : Value) : Except Fault Bool := do
  let x ← v.number?
  let y ← w.number?
  return match x, y with
    | some x, some y => x.same y
    | _, _ => false

def looselyEquals (v w : Value) (room : Nat := stackRoom) : Except Fault Bool := do
  if v.isBlank || w.isBlank then return v.isBlank && w.isBlank
  else if ← same room v w then return true
  else if v.isText != w.isText then v.equalAsNumbers w
  else return false

end GuidedJourney.Value
