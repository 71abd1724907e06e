import GuidedJourney.Value.Number

namespace GuidedJourney.Value

/-- Seconds given as a number or a numeral; anything else, and less than nothing, is no delay. -/
def delay : Value → Except Fault Binary64
  | .int n => (intNumber n).map (·.max .zero)
  | .num x => .ok (x.max .zero)
  | .str s => .ok (((Binary64.ofNumeral? s).map (·.max .zero)).getD .zero)
  | _ => .ok .zero

def seconds? : Value → Option Binary64
  | .bool b => some (.ofNat (if b then 1 else 0))
  | .int n => (intNumber n).toOption
  | .num x => some x
  | _ => none

def isPositive (v : Value) : Except Fault Bool :=
  if !v.truthy then .ok false
  else match v with
    | .bool _ => .ok true
    | .int n => .ok (decide (0 < n))
    | .num x => .ok x.isPositive
    | _ => .error .wrongKind

end GuidedJourney.Value
