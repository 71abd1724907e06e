import GuidedJourney.Yaml.Scalar

namespace GuidedJourney.Yaml

inductive Token where
  | version (major : Nat)
  /-- An abbreviation for the beginning of tags. -/
  | shorthand (handle stem : String)
  | otherDirective
  | documentStart
  | documentEnd
  | blockList
  | blockMap
  | blockEnd
  | flowList
  | flowListEnd
  | flowMap
  | flowMapEnd
  | item
  | comma
  | key
  | value
  | alias (name : String)
  | anchor (name : String)
  | tag (handle : Option String) (suffix : String)
  | scalar (isPlain : Bool) (text : String)

def isNameChar (c : Char) : Bool := c.isAlphanum || c == '-' || c == '_'

def isSpaceOrEnd (c : Char) : Bool := c == ' ' || isEnd c

def ensure (b : Bool) : Except Fault Unit := if b then .ok () else .error unreadable

def name (c : Cursor) : Except Fault (String × Cursor) := do
  let (cs, c) := c.span isNameChar
  ensure !cs.isEmpty
  return (String.ofList cs, c)

def anchorName (c : Cursor) : Except Fault (String × Cursor) := do
  let (s, c) ← name c.next
  ensure (isGap c.peek || "?:,]\x7d%@\x60".toList.contains c.peek)
  return (s, c)

def tagHandle (c : Cursor) : Except Fault (String × Cursor) := do
  ensure (c.peek == '!')
  if c.peekAt 1 == ' ' then return ("!", c.next)
  let (cs, c) := c.next.span isNameChar
  ensure (c.peek == '!')
  return (String.ofList ('!' :: cs ++ ['!']), c.next)

def isUriChar (c : Char) : Bool :=
  c.isAlphanum || "-;/?:@&=+$,_.!~*'()[]%".toList.contains c

def uriBytes : List Char → Option (List UInt8 × List Char)
  | '%' :: a :: b :: r => do
    let n ← hexNumber? [a, b]
    let (bytes, r) ← uriBytes r
    some (UInt8.ofNat n :: bytes, r)
  | '%' :: _ => none
  | r => some ([], r)

/-- The text of an escaped form; neighbouring escapes are read together. -/
def unescapeUri : Nat → List Char → Except Fault (List Char)
  | 0, _ => .ok []
  | _, [] => .ok []
  | n + 1, c :: r =>
    if c == '%' then
      match uriBytes (c :: r) with
      | some (bytes, r) => match String.fromUTF8? ⟨bytes.toArray⟩ with
        | some s => (unescapeUri n r).map (s.toList ++ ·)
        | none => .error unreadable
      | none => .error unreadable
    else (unescapeUri n r).map (c :: ·)

def tagUri (c : Cursor) : Except Fault (String × Cursor) := do
  let (cs, c) := c.span isUriChar
  ensure !cs.isEmpty
  return (String.ofList (← unescapeUri cs.length cs), c)

def hasHandle (cs : List Char) : Bool :=
  (cs.takeWhile (!isSpaceOrEnd ·)).contains '!'

def tag (c : Cursor) : Except Fault (Token × Cursor) := do
  let (t, c) ←
    if c.peekAt 1 == '<' then do
      let (uri, c) ← tagUri (c.skip 2)
      ensure (c.peek == '>')
      pure (Token.tag none uri, c.next)
    else if isGap (c.peekAt 1) then pure (Token.tag none "!", c.next)
    else do
      let (handle, c) ← if hasHandle c.rest.tail then tagHandle c else pure ("!", c.next)
      let (uri, c) ← tagUri c
      pure (Token.tag (some handle) uri, c)
  ensure (isSpaceOrEnd c.peek)
  return (t, c)

def number (c : Cursor) : Except Fault (Nat × Cursor) := do
  let (ds, c) := c.span Char.isDigit
  ensure !ds.isEmpty
  return (ds.foldl (fun n d => n * 10 + (d.toNat - '0'.toNat)) 0, c)

def directive (c : Cursor) : Except Fault (Token × Cursor) := do
  let (s, c) ← name c.next
  ensure (isSpaceOrEnd c.peek)
  let (t, c) ← match s with
    | "YAML" => do
      let (major, c) ← number c.skipSpaces
      ensure (c.peek == '.')
      let (_, c) ← number c.next
      ensure (isSpaceOrEnd c.peek)
      pure (Token.version major, c)
    | "TAG" => do
      let (handle, c) ← tagHandle c.skipSpaces
      ensure (c.peek == ' ')
      let (uri, c) ← tagUri c.skipSpaces
      ensure (isSpaceOrEnd c.peek)
      pure (Token.shorthand handle uri, c)
    | _ => pure (Token.otherDirective, c.skipWhile (!isEnd ·))
  return (t, ← c.endLine)

end GuidedJourney.Yaml
