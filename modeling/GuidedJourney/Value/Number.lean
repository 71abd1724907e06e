import GuidedJourney.Binary64.Numeral
import GuidedJourney.Value.Basic

namespace GuidedJourney.Value

def intNumber (n : Int) : Except Fault Binary64 :=
  match Binary64.ofInt n with
  | .infinite _ => .error .tooLarge
  | x => .ok x

/-- What a value counts as beside a text: a number stands for itself, a text for the numeral in it. -/
def number? : Value → Except Fault (Option Binary64)
  | .int n => (intNumber n).map some
  | .num x => .ok (some x)
  | .str s => .ok (if Text.isBlankText s then none else Binary64.ofNumeral? s)
  | _ => .ok none

/-- The exact amount of a number; true and false count as one and zero. -/
inductive Amount where
  | exact (r : Rat)
  | unbounded (negative : Bool)
  | undefined

def amount? : Value → Option Amount
  | .bool b => some (.exact (if b then 1 else 0))
  | .int n => some (.exact n)
  | .num (.infinite n) => some (.unbounded n)
  | .num .nan => some .undefined
  | .num x => x.toRat?.map .exact
  | _ => none

def Amount.same : Amount → Amount → Bool
  | .exact a, .exact b => a == b
  | .unbounded s, .unbounded t => s == t
  | _, _ => false

def sameAmount (v w : Value) : Bool :=
  match v.amount?, w.amount? with
  | some a, some b => a.same b
  | _, _ => false

def sameScalar : Value → Value → Bool
  | .null, .null => true
  | .str s, .str t => s == t
  | .date d, .date e => d == e
  | .moment t, .moment u => t == u
  | v, w => sameAmount v w

def sameItems (same : Value → Value → Except Fault Bool) : List Value → List Value → Except Fault Bool
  | [], ys => .ok ys.isEmpty
  | _ :: _, [] => .ok false
  | x :: xs, y :: ys => do if ← same x y then sameItems same xs ys else return false

def sameFields (same : Value → Value → Except Fault Bool) (gs : Fields) : Fields → Except Fault Bool
  | [] => .ok true
  | (k, v) :: fs => match Fields.find? gs k with
    | none => .ok false
    | some w => do if ← same w v then sameFields same gs fs else return false

/-- Equality of data, for which there is room on the stack for so many levels of lists and objects. Numbers
are equal if their amounts are, lists of the same length item by item, and objects if they have the same
fields in any order. Parts that both values share are gone into like any others. -/
def same : Nat → Value → Value → Except Fault Bool
  | 0, .list _, .list _ => .error .tooDeep
  | 0, .obj _, .obj _ => .error .tooDeep
  | room + 1, .list xs, .list ys =>
    if xs.length = ys.length then sameItems (same room) xs ys else .ok false
  | room + 1, .obj fs, .obj gs =>
    if fs.length = gs.length then sameFields (same room) gs fs else .ok false
  | _, v, w => .ok (sameScalar v w)

end GuidedJourney.Value
