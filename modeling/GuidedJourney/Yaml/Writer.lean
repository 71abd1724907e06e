import GuidedJourney.Value.Text
import GuidedJourney.Yaml.Written

namespace GuidedJourney.Yaml

def longestPlainKey : Nat := 122

def isSimpleKey (s : String) : Bool :=
  !s.isEmpty && s.length ≤ longestPlainKey && !s.toList.any isWrittenBreak

def pad (indent : Nat) : String := String.ofList (newLine indent)

def writeScalar (st : Style) (indent column : Nat) (v : Value) : String :=
  let f : Fold := ⟨st, true, indent⟩
  match v with
  | .null => "null"
  | .bool b => if b then "true" else "false"
  | .int n => toString n
  | .num x => String.ofList (writeNumber x)
  | .str s => String.ofList (writeText f column s)
  | .list _ => "[]"
  | .obj _ => "\x7b\x7d"
  | .date d => d.text
  | .moment t => String.ofList (foldWords f column finish (t.textWith " ").toList)

def writeField (st : Style) (indent : Nat) (key : String) (below : Nat → String)
    (beside : Unit → String) : String :=
  if isSimpleKey key then
    let k := writeText ⟨st, false, indent + 2⟩ indent key
    String.ofList k ++ ":" ++ below (indent + k.length + 1)
  else
    "? " ++ String.ofList (writeText ⟨st, true, indent + 2⟩ (indent + 2) key) ++ pad indent ++ ": " ++
      beside ()

mutual

def writeAt (st : Style) (indent : Nat) : Value → String
  | .list xs => if xs.isEmpty then "[]" else writeItems st indent xs
  | .obj fs => if fs.isEmpty then "\x7b\x7d" else writeFields st indent fs
  | v => writeScalar st indent indent v

def writeItems (st : Style) (indent : Nat) : List Value → String
  | [] => ""
  | [x] => "- " ++ writeAt st (indent + 2) x
  | x :: xs => "- " ++ writeAt st (indent + 2) x ++ pad indent ++ writeItems st indent xs

/-- What follows the colon after a key; a list is not indented further than its key. -/
def writeBelow (st : Style) (indent column : Nat) : Value → String
  | .list xs => if xs.isEmpty then " []" else pad indent ++ writeItems st indent xs
  | .obj fs => if fs.isEmpty then " \x7b\x7d" else pad (indent + 2) ++ writeFields st (indent + 2) fs
  | v => " " ++ writeScalar st (indent + 2) (column + 1) v

def writeFields (st : Style) (indent : Nat) : List (String × Value) → String
  | [] => ""
  | [(k, v)] => writeField st indent k (writeBelow st indent · v) fun _ => writeAt st (indent + 2) v
  | (k, v) :: fs =>
    writeField st indent k (writeBelow st indent · v) (fun _ => writeAt st (indent + 2) v) ++
      pad indent ++ writeFields st indent fs

end

def write (st : Style) (v : Value) : String := writeAt st 0 v ++ "\n"

end GuidedJourney.Yaml
