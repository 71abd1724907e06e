import GuidedJourney.Binary64.Numeral
import GuidedJourney.Value.Basic

namespace GuidedJourney.Json

inductive Token where
  | opening (isList : Bool)
  | closing (isList : Bool)
  | colon
  | comma
  | scalar (value : Value)

/-- The longest numeral that is taken as an integer. -/
def longestNumeral : Nat := 4300

def unreadable : Fault := .format .unreadable

def numeral? (cs : List Char) : Except Fault Value :=
  let (negative, body) := match cs with
    | '-' :: r => (true, r)
    | r => (false, r)
  let whole := body.takeWhile Char.isDigit
  let r := body.dropWhile Char.isDigit
  let (fraction, r') := match r with
    | '.' :: r => (r.takeWhile Char.isDigit, r.dropWhile Char.isDigit)
    | r => ([], r)
  if whole.isEmpty || (whole.head? == some '0' && 1 < whole.length) then .error unreadable
  else if r.isEmpty then
    if longestNumeral < whole.length then .error .badNumeral
    else
      let n : Int := Binary64.digitsValue whole
      .ok (.int (if negative then -n else n))
  else if r.head? == some '.' && fraction.isEmpty then .error unreadable
  else match Binary64.exponent? r' with
    | some e => .ok (.num (Binary64.ofDecimal negative (Binary64.digitsValue (whole ++ fraction))
        (e - fraction.length)))
    | none => .error unreadable

def word? (cs : List Char) : Except Fault Value :=
  match String.ofList cs with
  | "true" => .ok (.bool true)
  | "false" => .ok (.bool false)
  | "null" => .ok .null
  | "NaN" => .ok (.num .nan)
  | "Infinity" => .ok (.num (.infinite false))
  | "-Infinity" => .ok (.num (.infinite true))
  | _ => numeral? cs

def isWordChar (c : Char) : Bool := c.isAlphanum || c == '+' || c == '-' || c == '.'

def escaped? (c : Char) : Option Char :=
  match c with
  | '"' | '\\' | '/' => some c
  | 'b' => some '\x08'
  | 'f' => some '\x0c'
  | 'n' => some '\n'
  | 'r' => some '\r'
  | 't' => some '\t'
  | _ => none

def replacement : Char := '\uFFFD'

/-- Where the reading stands; the texts read so far are kept in reverse. -/
inductive Mode where
  | between
  | word (read : List Char)
  | text (read : List Char)
  | escape (read : List Char)
  /-- Within the digits of a code unit, after the first half of a pair if there was one. -/
  | unit (read : List Char) (high : Option Nat) (left value : Nat)
  /-- After the first half of a pair. -/
  | half (read : List Char) (high : Nat)
  | halfEscape (read : List Char) (high : Nat)

/-- A code unit after the characters read: a character, the first half of a pair, or the pair. -/
def afterUnit (read : List Char) (high : Option Nat) (u : Nat) : Mode :=
  let isHigh := 0xD800 ≤ u && u < 0xDC00
  let isLow := 0xDC00 ≤ u && u < 0xE000
  match high with
  | some h =>
    if isLow then .text (Char.ofNat (0x10000 + (h - 0xD800) * 0x400 + (u - 0xDC00)) :: read)
    else if isHigh then .half (replacement :: read) u
    else .text (Char.ofNat u :: replacement :: read)
  | none =>
    if isHigh then .half read u
    else .text ((if isLow then replacement else Char.ofNat u) :: read)

def isSpace (c : Char) : Bool := c == ' ' || c == '\t' || c == '\n' || c == '\r'

def start (c : Char) : Except Fault (Option Token × Mode) :=
  match c with
  | '[' => .ok (some (.opening true), .between)
  | '\x7b' => .ok (some (.opening false), .between)
  | ']' => .ok (some (.closing true), .between)
  | '\x7d' => .ok (some (.closing false), .between)
  | ':' => .ok (some .colon, .between)
  | ',' => .ok (some .comma, .between)
  | '"' => .ok (none, .text [])
  | _ =>
    if isSpace c then .ok (none, .between)
    else if isWordChar c then .ok (none, .word [c])
    else .error unreadable

def continueText (c : Char) (read : List Char) : Except Fault (Option Token × Mode) :=
  if c == '"' then .ok (some (.scalar (.str (String.ofList read.reverse))), .between)
  else if c == '\\' then .ok (none, .escape read)
  else if c.toNat < 0x20 then .error unreadable
  else .ok (none, .text (c :: read))

def advance (m : Mode) (c : Char) : Except Fault (List Token × Mode) :=
  let one (r : Except Fault (Option Token × Mode)) : Except Fault (List Token × Mode) :=
    r.map fun (t, m) => (t.toList, m)
  match m with
  | .between => one (start c)
  | .word read =>
    if isWordChar c then .ok ([], .word (c :: read))
    else do
      let v ← word? read.reverse
      let (t, m) ← start c
      return (.scalar v :: t.toList, m)
  | .text read => one (continueText c read)
  | .escape read =>
    if c == 'u' then .ok ([], .unit read none 4 0)
    else match escaped? c with
      | some d => .ok ([], .text (d :: read))
      | none => .error unreadable
  | .unit read high left value =>
    match Text.hexValue? c with
    | none => .error unreadable
    | some d =>
      let value := value * 16 + d
      .ok ([], if left ≤ 1 then afterUnit read high value else .unit read high (left - 1) value)
  | .half read high =>
    if c == '\\' then .ok ([], .halfEscape read high)
    else one (continueText c (replacement :: read))
  | .halfEscape read high =>
    if c == 'u' then .ok ([], .unit read (some high) 4 0)
    else match escaped? c with
      | some d => .ok ([], .text (d :: replacement :: read))
      | none => .error unreadable

def tokens (m : Mode) (found : List Token) : List Char → Except Fault (List Token)
  | [] => match m with
    | .between => .ok found
    | .word read => (word? read.reverse).map (.scalar · :: found)
    | _ => .error unreadable
  | c :: cs => match advance m c with
    | .error e => .error e
    | .ok (ts, m) => tokens m (ts.reverse ++ found) cs

end GuidedJourney.Json
