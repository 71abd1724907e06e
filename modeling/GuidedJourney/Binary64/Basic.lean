namespace GuidedJourney

/-- The finite number `finite n m e` is `m * 2 ^ e`, negated if `n`; both zeros have significand 0. -/
inductive Binary64 where
  | nan
  | infinite (negative : Bool)
  | finite (negative : Bool) (significand : Nat) (exponent : Int)
  deriving DecidableEq, Repr

namespace Binary64

def pow2 (k : Nat) : Nat := Nat.pow 2 k

def pow10 (k : Nat) : Nat := Nat.pow 10 k

def leastExponent : Int := -1074

def greatestExponent : Int := 971

def zero : Binary64 := .finite false 0 leastExponent

def scale (m : Nat) (e : Int) : Rat :=
  match e with
  | .ofNat k => ((m * pow2 k : Nat) : Rat)
  | .negSucc k => mkRat m (pow2 (k + 1))

def toRat? : Binary64 → Option Rat
  | .finite n m e => some (if n then -scale m e else scale m e)
  | _ => none

/-- Equality as numbers: the two zeros are equal, and a NaN equals nothing. -/
def same (x y : Binary64) : Bool :=
  match x, y with
  | .infinite s, .infinite t => s == t
  | .finite .., .finite .. => x.toRat? == y.toRat?
  | _, _ => false

def isZero : Binary64 → Bool
  | .finite _ m _ => m == 0
  | _ => false

def lt (x y : Binary64) : Bool :=
  match x, y with
  | .nan, _ | _, .nan => false
  | .infinite s, .infinite t => s && !t
  | .infinite s, .finite .. => s
  | .finite .., .infinite t => !t
  | .finite .., .finite .. => match x.toRat?, y.toRat? with
    | some a, some b => decide (a < b)
    | _, _ => false

def le (x y : Binary64) : Bool := lt x y || same x y

def isPositive (x : Binary64) : Bool := lt zero x

/-- The whole number nearest to `num / den`; of two equally near the even one. -/
def nearest (num den : Nat) : Nat :=
  let q := num / den
  let r := num % den
  if 2 * r < den then q
  else if den < 2 * r then q + 1
  else if q % 2 = 0 then q else q + 1

def inUnits (num den : Nat) (e : Int) : Nat × Nat :=
  match e with
  | .ofNat k => (num, den * pow2 k)
  | .negSucc k => (num * pow2 (k + 1), den)

/-- The unit in which `num / den` has 53 binary digits, or the least unit if it is smaller still. -/
def unitExponent (num den : Nat) : Int :=
  let e : Int := (num.log2 : Int) - (den.log2 : Int) - 52
  let (a, b) := inUnits num den e
  max leastExponent (if a / b < pow2 52 then e - 1 else e)

/-- The number nearest to `num / den`, ties to even, infinite beyond the largest finite number. -/
def round (negative : Bool) (num den : Nat) : Binary64 :=
  if num = 0 then .finite negative 0 leastExponent
  else
    let e := unitExponent num den
    let (a, b) := inUnits num den e
    let m := nearest a b
    let (m, e) := if m = pow2 53 then (pow2 52, e + 1) else (m, e)
    if greatestExponent < e then .infinite negative else .finite negative m e

def ofRat (r : Rat) : Binary64 := round (decide (r < 0)) r.num.natAbs r.den

def ofInt (n : Int) : Binary64 := round (decide (n < 0)) n.natAbs 1

def ofNat (n : Nat) : Binary64 := ofInt n

def add (x y : Binary64) : Binary64 :=
  match x, y with
  | .nan, _ | _, .nan => .nan
  | .infinite s, .infinite t => if s == t then .infinite s else .nan
  | .infinite s, _ => .infinite s
  | _, .infinite t => .infinite t
  | .finite .., .finite .. => match x.toRat?, y.toRat? with
    | some a, some b => ofRat (a + b)
    | _, _ => .nan

def max (x y : Binary64) : Binary64 := if lt x y then y else x

end Binary64

end GuidedJourney
