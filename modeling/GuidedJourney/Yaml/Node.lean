import GuidedJourney.Yaml.Kind
import GuidedJourney.Yaml.Layout

namespace GuidedJourney.Yaml

inductive Node where
  | scalar (kind : Kind) (text : String)
  | list (kind : Kind) (items : List Node)
  | map (kind : Kind) (pairs : List (Node × Node))

def Node.nothing : Node := .scalar .null ""

abbrev Handles := List (String × String)

def Handles.standard : Handles := [("!", "!"), ("!!", standardStem)]

structure Supply where
  tokens : List Token
  anchors : List (String × Node) := []

/-- Where a node stands; as a key or a value in a block, a list needs no indentation of its own. -/
inductive Place where
  | block
  | field
  | flow
  deriving DecidableEq

structure Properties where
  anchor : Option String := none
  tag : Option (Option String × String) := none

def Properties.read : List Token → Properties × List Token
  | .anchor a :: .tag h t :: rest | .tag h t :: .anchor a :: rest => (⟨some a, some (h, t)⟩, rest)
  | .anchor a :: rest => (⟨some a, none⟩, rest)
  | .tag h t :: rest => (⟨none, some (h, t)⟩, rest)
  | rest => ({}, rest)

def Properties.fullTag (handles : Handles) (p : Properties) : Except Fault (Option String) :=
  match p.tag with
  | none => .ok none
  | some (none, suffix) => .ok (some suffix)
  | some (some h, suffix) => match handles.lookup h with
    | some stem => .ok (some (stem ++ suffix))
    | none => .error unreadable

def kindOr (tag : Option String) (byForm : Kind) : Kind :=
  match tag with
  | none | some "!" => byForm
  | some t => Kind.ofTag t

def scalarKind (tag : Option String) (isPlain : Bool) (text : String) : Kind :=
  kindOr tag (if isPlain || tag.isSome then Kind.ofPlain text else .str)

def endsItem : List Token → Bool
  | .item :: _ | .blockEnd :: _ => true
  | _ => false

def endsField : List Token → Bool
  | .key :: _ | .value :: _ | .blockEnd :: _ => true
  | _ => false

def endsLooseItem (ts : List Token) : Bool := endsItem ts || endsField ts

def endsFlowItem : List Token → Bool
  | .comma :: _ | .flowListEnd :: _ => true
  | _ => false

def endsFlowField : List Token → Bool
  | .comma :: _ | .flowMapEnd :: _ => true
  | _ => false

def isValue : List Token → Bool
  | .value :: _ => true
  | _ => false

mutual

/-- A node with all that belongs to it. The number bounds the depth of calls. -/
def node (handles : Handles) (place : Place) : Nat → Supply → Except Fault (Node × Supply)
  | 0, _ => .error unreadable
  | n + 1, s => match s.tokens with
    | .alias a :: rest => match s.anchors.lookup a with
      | some x => .ok (x, { s with tokens := rest })
      | none => .error unreadable
    | _ => do
      let (p, rest) := Properties.read s.tokens
      let tag ← p.fullTag handles
      let (x, s) ← content handles place p.anchor.isSome tag n { s with tokens := rest }
      match p.anchor with
      | none => return (x, s)
      | some a =>
        ensure (s.anchors.lookup a).isNone
        return (x, { s with anchors := (a, x) :: s.anchors })

def content (handles : Handles) (place : Place) (anchored : Bool) (tag : Option String) :
    Nat → Supply → Except Fault (Node × Supply)
  | 0, _ => .error unreadable
  | n + 1, s => match place, s.tokens with
    | .field, .item :: _ => do
      let (xs, s) ← looseItems handles n s
      return (.list (kindOr tag .list) xs, s)
    | _, .scalar isPlain text :: rest =>
      .ok (.scalar (scalarKind tag isPlain text) text, { s with tokens := rest })
    | _, .flowList :: rest => do
      let (xs, s) ← flowItems handles true n { s with tokens := rest }
      return (.list (kindOr tag .list) xs, s)
    | _, .flowMap :: rest => do
      let (ps, s) ← flowFields handles true n { s with tokens := rest }
      return (.map (kindOr tag .map) ps, s)
    | .block, .blockList :: rest | .field, .blockList :: rest => do
      let (xs, s) ← items handles n { s with tokens := rest }
      return (.list (kindOr tag .list) xs, s)
    | .block, .blockMap :: rest | .field, .blockMap :: rest => do
      let (ps, s) ← fields handles n { s with tokens := rest }
      return (.map (kindOr tag .map) ps, s)
    | _, _ =>
      if anchored || tag.isSome then .ok (.scalar (kindOr tag .null) "", s) else .error unreadable

def nodeUnless (handles : Handles) (ends : List Token → Bool) (place : Place) :
    Nat → Supply → Except Fault (Node × Supply)
  | 0, _ => .error unreadable
  | n + 1, s => if ends s.tokens then .ok (.nothing, s) else node handles place n s

def valueUnless (handles : Handles) (ends : List Token → Bool) (place : Place) :
    Nat → Supply → Except Fault (Node × Supply)
  | 0, _ => .error unreadable
  | n + 1, s => match s.tokens with
    | .value :: rest => nodeUnless handles ends place n { s with tokens := rest }
    | _ => .ok (.nothing, s)

def items (handles : Handles) : Nat → Supply → Except Fault (List Node × Supply)
  | 0, _ => .error unreadable
  | n + 1, s => match s.tokens with
    | .item :: rest => do
      let (x, s) ← nodeUnless handles endsItem .block n { s with tokens := rest }
      let (xs, s) ← items handles n s
      return (x :: xs, s)
    | .blockEnd :: rest => .ok ([], { s with tokens := rest })
    | _ => .error unreadable

def looseItems (handles : Handles) : Nat → Supply → Except Fault (List Node × Supply)
  | 0, _ => .error unreadable
  | n + 1, s => match s.tokens with
    | .item :: rest => do
      let (x, s) ← nodeUnless handles endsLooseItem .block n { s with tokens := rest }
      let (xs, s) ← looseItems handles n s
      return (x :: xs, s)
    | _ => .ok ([], s)

def fields (handles : Handles) : Nat → Supply → Except Fault (List (Node × Node) × Supply)
  | 0, _ => .error unreadable
  | n + 1, s => match s.tokens with
    | .key :: rest => do
      let (k, s) ← nodeUnless handles endsField .field n { s with tokens := rest }
      let (v, s) ← valueUnless handles endsField .field n s
      let (ps, s) ← fields handles n s
      return ((k, v) :: ps, s)
    | .blockEnd :: rest => .ok ([], { s with tokens := rest })
    | _ => .error unreadable

/-- The items between brackets; one of the form `key: value` is a mapping of its own. -/
def flowItems (handles : Handles) (isFirst : Bool) : Nat → Supply → Except Fault (List Node × Supply)
  | 0, _ => .error unreadable
  | n + 1, s => match isFirst, s.tokens with
    | _, .flowListEnd :: rest => .ok ([], { s with tokens := rest })
    | false, .comma :: rest => flowItems handles true n { s with tokens := rest }
    | true, .key :: rest => do
      let (k, s) ← nodeUnless handles (fun ts => isValue ts || endsFlowItem ts) .flow n
        { s with tokens := rest }
      let (v, s) ← valueUnless handles endsFlowItem .flow n s
      let (xs, s) ← flowItems handles false n s
      return (.map .map [(k, v)] :: xs, s)
    | true, _ => do
      let (x, s) ← node handles .flow n s
      let (xs, s) ← flowItems handles false n s
      return (x :: xs, s)
    | false, _ => .error unreadable

def flowFields (handles : Handles) (isFirst : Bool) :
    Nat → Supply → Except Fault (List (Node × Node) × Supply)
  | 0, _ => .error unreadable
  | n + 1, s => match isFirst, s.tokens with
    | _, .flowMapEnd :: rest => .ok ([], { s with tokens := rest })
    | false, .comma :: rest => flowFields handles true n { s with tokens := rest }
    | true, .key :: rest => do
      let (k, s) ← nodeUnless handles (fun ts => isValue ts || endsFlowField ts) .flow n
        { s with tokens := rest }
      let (v, s) ← valueUnless handles endsFlowField .flow n s
      let (ps, s) ← flowFields handles false n s
      return ((k, v) :: ps, s)
    | true, _ => do
      let (k, s) ← node handles .flow n s
      let (ps, s) ← flowFields handles false n s
      return ((k, .nothing) :: ps, s)
    | false, _ => .error unreadable

end

def isDocumentEnd : Token → Bool
  | .documentEnd => true
  | _ => false

def directives (versioned : Bool) (handles : Handles) : List Token → Except Fault (Handles × List Token)
  | .version major :: rest => do
    ensure (!versioned && major == 1)
    directives true handles rest
  | .shorthand handle stem :: rest => do
    ensure (handles.lookup handle).isNone
    directives versioned ((handle, stem) :: handles) rest
  | .otherDirective :: rest => directives versioned handles rest
  | .documentStart :: rest => .ok (handles ++ Handles.standard, rest)
  | _ => .error unreadable

def isDirective : Token → Bool
  | .version _ | .shorthand .. | .otherDirective => true
  | _ => false

def isBare : List Token → Bool
  | [] | .documentStart :: _ | .documentEnd :: _ => true
  | t :: _ => isDirective t

def onlyNode (handles : Handles) (ts : List Token) : Except Fault Node := do
  let (x, s) ← if isBare ts then pure (Node.nothing, ⟨ts, []⟩)
    else node handles .block (6 * ts.length + 6) ⟨ts, []⟩
  ensure (s.tokens.all isDocumentEnd)
  return x

def document (ts : List Token) : Except Fault Node :=
  match ts with
  | [] => .ok .nothing
  | .documentEnd :: _ => .error unreadable
  | .documentStart :: rest => onlyNode Handles.standard rest
  | t :: rest =>
    if isDirective t then do
      let (handles, rest) ← directives false [] (t :: rest)
      onlyNode handles rest
    else onlyNode Handles.standard (t :: rest)

end GuidedJourney.Yaml
