import GuidedJourney.Fault
import GuidedJourney.Text.Blank
import GuidedJourney.Text.Split

namespace GuidedJourney.Markup

inductive Piece where
  | text (cs : List Char)
  | mark (cs : List Char)

def beginsMark (c : Char) : Bool := 'a' ≤ c && c ≤ 'z' || c == '#' || c == '/' || c == '@'

def mark? (cs : List Char) : Option (List Char) :=
  match cs.head?, Text.cut ']' cs with
  | some c, (inner, some _) => if beginsMark c && !inner.contains '[' then some inner else none
  | _, _ => none

/-- The backslashes before a mark: each pair stands for one, and an odd one makes the mark a text. -/
def piecesOf (backslashes : Nat) (inner : List Char) : List Piece :=
  .text (List.replicate (backslashes / 2) '\\') ::
    [if backslashes % 2 = 1 then .text ('[' :: inner ++ [']']) else .mark inner]

/-- The pieces of a text; `skip` characters belong to the mark before, and `backslashes` stand right
before this place. -/
def cut (skip backslashes : Nat) : List Char → List Piece
  | [] => [.text (List.replicate backslashes '\\')]
  | c :: r =>
    match skip with
    | n + 1 => cut n 0 r
    | 0 =>
      if c == '\\' then cut 0 (backslashes + 1) r
      else match if c == '[' then mark? r else none with
        | some inner => piecesOf backslashes inner ++ cut (inner.length + 1) 0 r
        | none =>
          let kept := if c == '[' then backslashes - 1 else backslashes
          .text (List.replicate kept '\\' ++ [c]) :: cut 0 0 r

def styleName (cs : List Char) : List Char := (Text.trim (Text.cut '=' cs).1).map Char.toLower

def openAfter (styles : List (List Char)) (inner : List Char) : Except Fault (List (List Char)) :=
  match inner with
  | '/' :: name =>
    let name := styleName name
    if name.isEmpty then (match styles with
      | [] => .error .badMarkup
      | _ :: rest => .ok rest)
    else if styles.contains name then .ok (styles.erase name)
    else .error .badMarkup
  | name => .ok (styleName name :: styles)

def textOf (styles : List (List Char)) : List Piece → Except Fault (List Char)
  | [] => .ok []
  | .text cs :: rest => do return cs ++ (← textOf styles rest)
  | .mark inner :: rest => do textOf (← openAfter styles inner) rest

def plain (s : String) : Except Fault String := do
  return String.ofList (← textOf [] (cut 0 0 s.toList))

end GuidedJourney.Markup
