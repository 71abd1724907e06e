import GuidedJourney.Yaml.Token

namespace GuidedJourney.Yaml

/-- Something that turns out to be a key if a colon follows. -/
structure Candidate where
  place : Nat
  /-- A token at the indentation of a mapping has to be a key. -/
  required : Bool
  start : Cursor

structure Layout where
  cursor : Cursor
  tokens : Array Token := #[]
  /-- The columns of the block collections around, the innermost first. -/
  columns : List Nat := []
  flow : Nat := 0
  keyAllowed : Bool := true
  /-- For each number of open brackets, the latest candidate. -/
  candidates : List (Nat × Candidate) := []

/-- The longest distance between the beginning of a key and its colon. -/
def longestKey : Nat := 1024

namespace Layout

def isFlow (l : Layout) : Bool := l.flow != 0

def emit (t : Token) (l : Layout) : Layout := { l with tokens := l.tokens.push t }

def goTo (c : Cursor) (l : Layout) : Layout := { l with cursor := c }

def allow (b : Bool) (l : Layout) : Layout := { l with keyAllowed := b }

def floor (l : Layout) : Nat := (l.columns.head?.map (· + 1)).getD 0

def dropStale (l : Layout) : Except Fault Layout := do
  let c := l.cursor
  let isStale (e : Nat × Candidate) : Bool :=
    e.2.start.line != c.line || longestKey < c.index - e.2.start.index
  ensure !(l.candidates.any fun e => isStale e && e.2.required)
  return { l with candidates := l.candidates.filter (!isStale ·) }

def candidate? (l : Layout) : Option Candidate := l.candidates.lookup l.flow

def forget (l : Layout) : Layout := { l with candidates := l.candidates.filter (·.1 != l.flow) }

def dropCandidate (l : Layout) : Except Fault Layout := do
  ensure !(l.candidate?.any (·.required))
  return l.forget

def addCandidate (l : Layout) : Except Fault Layout := do
  if !l.keyAllowed then return l
  let l ← l.dropCandidate
  let required := !l.isFlow && l.columns.head? == some l.cursor.column
  return { l with candidates := (l.flow, ⟨l.tokens.size, required, l.cursor⟩) :: l.candidates }

def closeBlocks (isOpen : Nat → Bool) (l : Layout) : Layout :=
  if l.isFlow then l
  else
    let closed := l.columns.takeWhile (!isOpen ·)
    { l with
      tokens := l.tokens ++ (closed.map fun _ => Token.blockEnd).toArray
      columns := l.columns.drop closed.length }

def openBlock (t : Token) (column place : Nat) (l : Layout) : Layout :=
  if !l.isFlow && l.floor ≤ column then
    { l with columns := column :: l.columns, tokens := l.tokens.insertIdxIfInBounds place t }
  else l

def take (t : Token) (l : Layout) : Layout := (l.emit t).goTo l.cursor.next

def outside (l : Layout) : Except Fault Layout := do
  return (← (l.closeBlocks fun _ => false).dropCandidate).allow false

def entry (t start : Token) (l : Layout) : Except Fault Layout := do
  ensure (l.isFlow || l.keyAllowed)
  let l := l.openBlock start l.cursor.column l.tokens.size
  return (← l.dropCandidate).take t

def value (l : Layout) : Except Fault Layout := do
  match l.candidate? with
  | some k =>
    let l := l.forget
    let l := { l with tokens := l.tokens.insertIdxIfInBounds k.place .key }
    return ((l.openBlock .blockMap k.start.column k.place).allow false).take .value
  | none =>
    ensure (l.isFlow || l.keyAllowed)
    let l := l.openBlock .blockMap l.cursor.column l.tokens.size
    return (← (l.allow !l.isFlow).dropCandidate).take .value

def content (read : Cursor → Except Fault (Token × Cursor)) (l : Layout) : Except Fault Layout := do
  let l ← l.addCandidate
  let (t, c) ← read l.cursor
  return ((l.emit t).goTo c).allow false

def openFlow (t : Token) (l : Layout) : Except Fault Layout := do
  let l ← l.addCandidate
  return ({ l with flow := l.flow + 1 }.allow true).take t

def closeFlow (t : Token) (l : Layout) : Except Fault Layout := do
  ensure l.isFlow
  let l ← l.dropCandidate
  return ({ l with flow := l.flow - 1 }.allow false).take t

def text (isPlain : Bool) (cs : List Char) : Token := .scalar isPlain (String.ofList cs)

def plainScalar (l : Layout) : Except Fault Layout := do
  let l ← l.addCandidate
  let (cs, gap) := plain l.isFlow l.floor l.cursor
  return ((l.emit (text true cs)).goTo gap.cursor).allow gap.broken

def blockScalar (l : Layout) : Except Fault Layout := do
  let l ← (l.allow true).dropCandidate
  let (cs, c) ← block l.floor l.cursor
  return (l.emit (text false cs)).goTo c

/-- Over white space, comments and line breaks; in a block, a key may begin in a new line. -/
def skipGaps : Nat → Layout → Layout
  | 0, l => l
  | n + 1, l =>
    let (b, c) := l.cursor.skipSpaces.skipComment.lineBreak
    let l := l.goTo c
    if b.isEmpty then l else skipGaps n (l.allow (!l.isFlow || l.keyAllowed))

def beginsPlain (l : Layout) : Bool :=
  let c := l.cursor
  !(isGap c.peek || "-?:,[]\x7b\x7d#&*!|>'\"%@\x60".toList.contains c.peek) ||
    !isGap (c.peekAt 1) && (c.peek == '-' || !l.isFlow && (c.peek == '?' || c.peek == ':'))

def standsAlone (l : Layout) : Bool := isGap (l.cursor.peekAt 1)

def step (l : Layout) : Except Fault Layout := do
  let c := l.cursor
  let atStart := c.column == 0
  match c.peek with
  | '%' => do
    ensure atStart
    let l ← l.outside
    let (t, c) ← directive l.cursor
    return (l.emit t).goTo c
  | '[' => l.openFlow .flowList
  | ']' => l.closeFlow .flowListEnd
  | '\x7b' => l.openFlow .flowMap
  | '\x7d' => l.closeFlow .flowMapEnd
  | ',' => return (← (l.allow true).dropCandidate).take .comma
  | '*' => l.content fun c => do
    let (s, c) ← anchorName c
    return (.alias s, c)
  | '&' => l.content fun c => do
    let (s, c) ← anchorName c
    return (.anchor s, c)
  | '!' => l.content tag
  | '\'' | '"' => l.content fun c => do
    let (cs, c) ← quoted c
    return (text false cs, c)
  | x =>
    if atStart && c.isSeparator then
      let l ← l.outside
      return (l.emit (if x == '-' then .documentStart else .documentEnd)).goTo (c.skip 3)
    else if x == '-' && l.standsAlone then return (← l.entry .item .blockList).allow true
    else if x == '?' && (l.isFlow || l.standsAlone) then
      return (← l.entry .key .blockMap).allow !l.isFlow
    else if x == ':' && (l.isFlow || l.standsAlone) then l.value
    else if (x == '|' || x == '>') && !l.isFlow then l.blockScalar
    else if l.beginsPlain then l.plainScalar
    else throw unreadable

def steps : Nat → Layout → Except Fault Layout
  | 0, _ => .error unreadable
  | n + 1, l => do
    let l ← (skipGaps l.cursor.size l).dropStale
    let l := l.closeBlocks (· ≤ l.cursor.column)
    if l.cursor.peek == finish then l.outside else steps n (← l.step)

end Layout

def tokens (s : String) : Except Fault (List Token) := do
  let cs := s.toList
  ensure (cs.all isAllowed)
  let c : Cursor := { rest := cs }
  let c := if c.peek == byteOrderMark then c.next else c
  let l ← Layout.steps (c.size + 1) { cursor := c }
  return l.tokens.toList

end GuidedJourney.Yaml
