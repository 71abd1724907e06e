import GuidedJourney.Text.Quoted
import GuidedJourney.Value.Text

namespace GuidedJourney.Json

structure Style where
  comma : String
  colon : String
  /-- Characters outside ASCII are written as escapes. -/
  ascii : Bool

def spaced : Style := ⟨", ", ": ", true⟩

def compact : Style := ⟨",", ":", false⟩

def unitEscape (u : Nat) : List Char := '\\' :: 'u' :: Text.hex 4 u

def escape (ascii : Bool) (c : Char) : List Char :=
  match c with
  | '"' => ['\\', '"']
  | '\\' => ['\\', '\\']
  | '\n' => ['\\', 'n']
  | '\r' => ['\\', 'r']
  | '\t' => ['\\', 't']
  | '\x08' => ['\\', 'b']
  | '\x0c' => ['\\', 'f']
  | _ =>
    let n := c.toNat
    if n < 0x20 then unitEscape n
    else if !ascii || n < 0x7F then [c]
    else if n < 0x10000 then unitEscape n
    else
      let m := n - 0x10000
      unitEscape (0xD800 + m / 0x400) ++ unitEscape (0xDC00 + m % 0x400)

def quoted (ascii : Bool) (s : String) : String :=
  String.ofList ('"' :: s.toList.flatMap (escape ascii) ++ ['"'])

def number (x : Binary64) : String :=
  match x with
  | .nan => "NaN"
  | .infinite n => if n then "-Infinity" else "Infinity"
  | x => x.text

mutual

def write (st : Style) : Value → String
  | .null => "null"
  | .bool b => if b then "true" else "false"
  | .int n => toString n
  | .num x => number x
  | .str s => quoted st.ascii s
  | .list xs => "[" ++ writeItems st xs ++ "]"
  | .obj fs => "\x7b" ++ writeFields st fs ++ "\x7d"
  | .date d => quoted st.ascii d.text
  | .moment t => quoted st.ascii (t.textWith " ")

def writeItems (st : Style) : List Value → String
  | [] => ""
  | [x] => write st x
  | x :: xs => write st x ++ st.comma ++ writeItems st xs

def writeFields (st : Style) : List (String × Value) → String
  | [] => ""
  | [(k, v)] => quoted st.ascii k ++ st.colon ++ write st v
  | (k, v) :: fs => quoted st.ascii k ++ st.colon ++ write st v ++ st.comma ++ writeFields st fs

end

def newLine (depth : Nat) : String := String.ofList ('\n' :: List.replicate (2 * depth) ' ')

mutual

def indented (depth : Nat) : Value → String
  | .list (x :: xs) =>
    "[" ++ newLine (depth + 1) ++ indented (depth + 1) x ++ indentedItems (depth + 1) xs ++
      newLine depth ++ "]"
  | .obj ((k, v) :: fs) =>
    "\x7b" ++ newLine (depth + 1) ++ quoted true k ++ ": " ++ indented (depth + 1) v ++
      indentedFields (depth + 1) fs ++ newLine depth ++ "\x7d"
  | v => write spaced v

def indentedItems (depth : Nat) : List Value → String
  | [] => ""
  | x :: xs => "," ++ newLine depth ++ indented depth x ++ indentedItems depth xs

def indentedFields (depth : Nat) : List (String × Value) → String
  | [] => ""
  | (k, v) :: fs =>
    "," ++ newLine depth ++ quoted true k ++ ": " ++ indented depth v ++ indentedFields depth fs

end

mutual

def hasDate : Value → Bool
  | .date _ | .moment _ => true
  | .list xs => anyHasDate xs
  | .obj fs => anyFieldHasDate fs
  | _ => false

def anyHasDate : List Value → Bool
  | [] => false
  | x :: xs => hasDate x || anyHasDate xs

def anyFieldHasDate : List (String × Value) → Bool
  | [] => false
  | (_, v) :: fs => hasDate v || anyFieldHasDate fs

end

end GuidedJourney.Json
