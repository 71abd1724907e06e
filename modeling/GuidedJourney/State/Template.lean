import GuidedJourney.Rule.Path
import GuidedJourney.State.Store
import GuidedJourney.Text.Blank
import GuidedJourney.Text.Word
import GuidedJourney.Value.Text

namespace GuidedJourney

inductive Placeholder where
  | scoped (scope : Scope) (path : List Char)
  | merged (path : List Char)
  deriving DecidableEq

/-- A character of a template that stands for itself, or a placeholder with its text. -/
inductive Segment where
  | char (c : Char)
  | hole (p : Placeholder) (source : List Char)
  deriving DecidableEq

namespace Template

def moduleMark : List Char := "$moduleData.".toList
def screenMark : List Char := "$screenData.".toList

def scopeMark? (cs : List Char) : Option (Scope × List Char) :=
  if moduleMark.isPrefixOf cs then some (.module, cs.drop moduleMark.length)
  else if screenMark.isPrefixOf cs then some (.screen, cs.drop screenMark.length)
  else none

def dropOne (c : Char) (cs : List Char) : List Char :=
  match cs with
  | d :: r => if d = c then r else cs
  | [] => []

def scoped? (afterBrace : List Char) : Option (Placeholder × List Char) := do
  let (scope, r) ← scopeMark? ((dropOne '\x7b' afterBrace).dropWhile Text.isBlank)
  let body := r.takeWhile (· != '\x7d')
  match r.dropWhile (· != '\x7d') with
  | [] => none
  | _ :: rest =>
    if body.isEmpty then none else some (.scoped scope (Text.trim body), dropOne '\x7d' rest)

def isNameStart (c : Char) : Bool := c.isAlpha || c == '_'

def isNameChar (c : Char) : Bool := Text.isWord c || c == '.' || c == '-'

def merged? (afterBrace : List Char) : Option (Placeholder × List Char) :=
  match afterBrace with
  | '\x7b' :: r =>
    match r.dropWhile Text.isBlank with
    | c :: cs =>
      if !isNameStart c then none
      else match (cs.dropWhile isNameChar).dropWhile Text.isBlank with
        | '\x7d' :: '\x7d' :: rest => some (.merged (c :: cs.takeWhile isNameChar), rest)
        | _ => none
    | [] => none
  | _ => none

def placeholder? (cs : List Char) : Option (Placeholder × Nat) :=
  match cs with
  | '\x7b' :: r => ((scoped? r).or (merged? r)).map fun (p, rest) => (p, cs.length - rest.length)
  | _ => none

def segmentsFrom : Nat → List Char → List Segment
  | _, [] => []
  | skip + 1, _ :: cs => segmentsFrom skip cs
  | 0, c :: cs => match placeholder? (c :: cs) with
    | some (p, n) => .hole p ((c :: cs).take n) :: segmentsFrom (n - 1) cs
    | none => .char c :: segmentsFrom 0 cs

def segments (cs : List Char) : List Segment := segmentsFrom 0 cs

end Template

structure Scopes where
  module : Fields
  screen : Fields

namespace Scopes

def ofStore (s : Store) : Scopes := ⟨s.module, s.screen⟩

def both (fields : Fields) : Scopes := ⟨fields, fields⟩

def merged (s : Scopes) : Fields := Fields.overlay s.module s.screen

def fields (s : Scopes) : Scope → Fields
  | .module => s.module
  | .screen => s.screen

def find? (s : Scopes) : Placeholder → Except Fault (Option Value)
  | .scoped scope path => Path.find? (s.fields scope) (String.ofList path)
  | .merged path => Path.find? s.merged (String.ofList path)

def insertion (v : Value) : List Char := if v.isNull then [] else v.text.toList

def fill (s : Scopes) : List Segment → Except Fault (List Char)
  | [] => .ok []
  | .char c :: rest => (fill s rest).map (c :: ·)
  | .hole p source :: rest => do
    let found ← s.find? p
    (found.getD .null).legible Value.stackRoom
    let tail ← fill s rest
    return (found.map insertion).getD source ++ tail

/-- A text that is one placeholder, apart from blanks around it, becomes the value itself. -/
def interpolate (s : Scopes) (template : String) : Except Fault Value :=
  match Template.segments (Text.trim template.toList) with
  | [.hole p _] => (s.find? p).map (·.getD (.str template))
  | _ => (s.fill (Template.segments template.toList)).map fun cs => .str (String.ofList cs)

/-- A text that begins with a scope is a reference to a value, null if there is none; any other text
is a template. -/
def renderText (s : Scopes) (t : String) : Except Fault Value :=
  match Template.scopeMark? t.toList with
  | some (scope, path) => (s.find? (.scoped scope (Text.trim path))).map (·.getD .null)
  | none => s.interpolate t

mutual

def render (s : Scopes) : Value → Except Fault Value
  | .str t => s.renderText t
  | .list xs => (renderItems s xs).map .list
  | .obj fs => (renderFields s fs).map .obj
  | v => .ok v

def renderItems (s : Scopes) : List Value → Except Fault (List Value)
  | [] => .ok []
  | x :: xs => do return (← render s x) :: (← renderItems s xs)

def renderFields (s : Scopes) : List (String × Value) → Except Fault (List (String × Value))
  | [] => .ok []
  | (k, v) :: fs => do return (k, ← render s v) :: (← renderFields s fs)

end

end Scopes

end GuidedJourney
