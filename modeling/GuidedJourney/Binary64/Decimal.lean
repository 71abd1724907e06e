import GuidedJourney.Binary64.Basic

namespace GuidedJourney.Binary64

/-- `digits * 10 ^ exponent`, rounded once. Exponents so large or small that the result is settled
are not expanded. -/
def ofDecimal (negative : Bool) (digits : Nat) (exponent : Int) : Binary64 :=
  if digits = 0 then .finite negative 0 leastExponent
  else
    let size : Int := (digits.log2 : Int) / 4 + exponent
    if 400 < size then .infinite negative
    else if (digits.log2 : Int) + exponent < -400 then .finite negative 0 leastExponent
    else match exponent with
      | .ofNat k => round negative (digits * pow10 k) 1
      | .negSucc k => round negative digits (pow10 (k + 1))

structure Digits where
  digits : Nat
  exponent : Int
  deriving DecidableEq

def compareScaled (a : Nat) (i : Int) (n : Nat) (j : Int) : Ordering :=
  compare (a * pow10 i.toNat * pow2 (-j).toNat) (n * pow2 j.toNat * pow10 (-i).toNat)

/-- The gap below a power of two is half the gap above it. -/
def narrowBelow (m : Nat) (e : Int) : Bool := m == pow2 52 && decide (leastExponent < e)

def readsBack (m : Nat) (e : Int) (d : Digits) : Bool :=
  let low := if narrowBelow m e then 4 * m - 1 else 4 * m - 2
  let atLow := compareScaled d.digits d.exponent low (e - 2)
  let atHigh := compareScaled d.digits d.exponent (4 * m + 2) (e - 2)
  let even := m % 2 == 0
  (atLow == .gt || even && atLow == .eq) && (atHigh == .lt || even && atHigh == .eq)

def decimalScale (m : Nat) (e : Int) (start : Int) : Nat → Int
  | 0 => start
  | n + 1 => if compareScaled 1 start m e == .gt then start else decimalScale m e (start + 1) n

/-- The better of the two neighbours of `m * 2 ^ e` on the grid `10 ^ p`, if one reads back. -/
def onGrid (m : Nat) (e p : Int) : Option Digits :=
  let num := m * pow2 e.toNat * pow10 (-p).toNat
  let den := pow2 (-e).toNat * pow10 p.toNat
  let below : Digits := ⟨num / den, p⟩
  let above : Digits := ⟨num / den + 1, p⟩
  match readsBack m e below, readsBack m e above with
  | true, true => some (if 2 * (num % den) < den || 2 * (num % den) == den && below.digits % 2 == 0
      then below else above)
  | true, false => some below
  | false, true => some above
  | false, false => none

def stripZeros : Nat → Digits → Digits
  | 0, d => d
  | n + 1, d => if d.digits % 10 = 0 then stripZeros n ⟨d.digits / 10, d.exponent + 1⟩ else d

/-- The shortest decimal that reads back to `m * 2 ^ e`, nearest to it among those. -/
def shortest (m : Nat) (e : Int) : Digits :=
  let estimate : Int := ((m.log2 : Int) + e) * 30103 / 100000 - 1
  let k := decimalScale m e estimate 6
  let found := (List.range 17).findSome? fun (i : Nat) => onGrid m e (k - 1 - (i : Int))
  stripZeros 20 (found.getD ⟨m, 0⟩)

def zeros (n : Nat) : List Char := List.replicate n '0'

/-- Plain notation for leading digits from `10 ^ -4` to `10 ^ 15`, otherwise a signed exponent of at
least two digits. -/
def layout (d : Digits) : List Char :=
  let ds := Nat.toDigits 10 d.digits
  let lead : Int := d.exponent + ds.length - 1
  if -4 ≤ lead ∧ lead < 16 then
    if 0 ≤ d.exponent then ds ++ zeros d.exponent.toNat ++ ['.', '0']
    else if 0 ≤ lead then ds.take (lead.toNat + 1) ++ ['.'] ++ ds.drop (lead.toNat + 1)
    else ['0', '.'] ++ zeros (-lead - 1).toNat ++ ds
  else
    let mantissa := match ds with
      | [] => []
      | [c] => [c]
      | c :: cs => c :: '.' :: cs
    let size := Nat.toDigits 10 lead.natAbs
    mantissa ++ ['e', if lead < 0 then '-' else '+'] ++ zeros (2 - size.length) ++ size

def text : Binary64 → String
  | .nan => "nan"
  | .infinite n => if n then "-inf" else "inf"
  | .finite n m e =>
    let body := if m = 0 then ['0', '.', '0'] else layout (shortest m e)
    String.ofList (if n then '-' :: body else body)

end GuidedJourney.Binary64
