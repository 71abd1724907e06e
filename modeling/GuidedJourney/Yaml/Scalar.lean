import GuidedJourney.Text.Digit
import GuidedJourney.Yaml.Cursor

namespace GuidedJourney.Yaml

/-- A single line break becomes a space; of more than one, the first is dropped. -/
def fold (lineBreak more : List Char) : List Char :=
  if lineBreak != ['\n'] then lineBreak ++ more
  else if more.isEmpty then [' ']
  else more

def isFlowMark (c : Char) : Bool := ",[]\x7b\x7d".toList.contains c

def endsKey (flow : Bool) (c : Char) : Bool := isGap c || flow && isFlowMark c

def plainLength (flow : Bool) : List Char → Nat
  | [] => 0
  | c :: r =>
    if isGap c || c == ':' && endsKey flow (r.head?.getD finish) ||
        flow && (c == '?' || isFlowMark c) then 0
    else plainLength flow r + 1

def plainBreaks : Nat → Cursor → List Char → Option (List Char) × Cursor
  | 0, c, found => (some found, c)
  | n + 1, c, found =>
    if c.peek == ' ' then plainBreaks n c.next found
    else if isBreak c.peek then
      let (b, c) := c.lineBreak
      if c.isSeparator then (none, c) else plainBreaks n c (found ++ b)
    else (some found, c)

structure Gap where
  text : List Char
  broken : Bool
  cursor : Cursor

def plainGap (c : Cursor) : Gap :=
  let (spaces, c) := c.span (· == ' ')
  if !isBreak c.peek then ⟨spaces, false, c⟩
  else
    let (b, c) := c.lineBreak
    if c.isSeparator then ⟨[], true, c⟩
    else match plainBreaks c.size c [] with
      | (some more, c) => ⟨fold b more, true, c⟩
      | (none, c) => ⟨[], true, c⟩

def plainWords (flow : Bool) (floor : Nat) : Nat → Gap → List Char → List Char × Gap
  | 0, g, found => (found, g)
  | n + 1, g, found =>
    let c := g.cursor
    let length := if c.peek == '#' then 0 else plainLength flow c.rest
    if length = 0 then (found, g)
    else
      let found := found ++ g.text ++ c.rest.take length
      let g := plainGap (c.skip length)
      if g.text.isEmpty || g.cursor.peek == '#' || !flow && g.cursor.column < floor then (found, g)
      else plainWords flow floor n g found

def plain (flow : Bool) (floor : Nat) (c : Cursor) : List Char × Gap :=
  plainWords flow floor c.size ⟨[], false, c⟩ []

def quotedBreaks : Nat → Cursor → List Char → Except Fault (List Char × Cursor)
  | 0, _, _ => .error unreadable
  | n + 1, c, found =>
    if c.isSeparator then .error unreadable
    else
      let c := c.skipWhile isBlank
      if isBreak c.peek then
        let (b, c) := c.lineBreak
        quotedBreaks n c (found ++ b)
      else .ok (found, c)

def quotedGap (c : Cursor) : Except Fault (List Char × Cursor) :=
  let (spaces, c) := c.span isBlank
  if c.peek == finish then .error unreadable
  else if isBreak c.peek then do
    let (b, c) := c.lineBreak
    let (more, c) ← quotedBreaks c.size c []
    return (fold b more, c)
  else .ok (spaces, c)

def escapes : List (Char × Char) := [
  ('0', '\x00'), ('a', '\x07'), ('b', '\x08'), ('t', '\t'), ('\t', '\t'), ('n', '\n'), ('v', '\x0b'),
  ('f', '\x0c'), ('r', '\r'), ('e', '\x1b'), (' ', ' '), ('"', '"'), ('\\', '\\'), ('/', '/'),
  ('N', '\u0085'), ('_', '\u00a0'), ('L', '\u2028'), ('P', '\u2029')]

/-- Escapes by number, with how many digits they have. -/
def codeLengths : List (Char × Nat) := [('x', 2), ('u', 4), ('U', 8)]

def charOfCode (n : Nat) : Except Fault Char :=
  if n < 0x110000 then .ok (if n.isValidChar then Char.ofNat n else '\uFFFD')
  else .error (if n < 0x80000000 then .badNumeral else .tooLarge)

def hexNumber? (cs : List Char) : Option Nat :=
  cs.foldlM (fun n c => (Text.hexValue? c).map (n * 16 + ·)) 0

def escape (c : Cursor) : Except Fault (List Char × Cursor) :=
  match escapes.lookup c.peek, codeLengths.lookup c.peek with
  | some x, _ => .ok ([x], c.next)
  | none, some n =>
    let digits := c.next.rest.take n
    match hexNumber? digits with
    | some code => do
      if digits.length < n then throw unreadable
      return ([← charOfCode code], c.next.skip n)
    | none => .error unreadable
  | none, none =>
    if isBreak c.peek then
      let c := c.lineBreak.2
      quotedBreaks c.size c []
    else .error unreadable

def quotedText (double : Bool) : Nat → Cursor → List Char → Except Fault (List Char × Cursor)
  | 0, _, _ => .error unreadable
  | n + 1, c, found =>
    if isGap c.peek then do
      let (gap, c) ← quotedGap c
      quotedText double n c (gap.reverse ++ found)
    else if double then
      match c.peek with
      | '"' => .ok (found.reverse, c.next)
      | '\\' => do
        let (text, c) ← escape c.next
        quotedText double n c (text.reverse ++ found)
      | x => quotedText double n c.next (x :: found)
    else if c.peek == '\'' then
      if c.peekAt 1 == '\'' then quotedText double n (c.skip 2) ('\'' :: found)
      else .ok (found.reverse, c.next)
    else quotedText double n c.next (c.peek :: found)

def quoted (c : Cursor) : Except Fault (List Char × Cursor) := quotedText (c.peek == '"') (c.size + 1) c.next []

/-- How a block ends: all line breaks at its end are kept, or one, or none. -/
inductive Chomp where
  | keep
  | clip
  | strip

structure BlockHeader where
  chomp : Chomp := .clip
  /-- How far the block is indented against what it is in, if that is given. -/
  increment : Option Nat := none

def chomp? (c : Char) : Option Chomp :=
  match c with
  | '+' => some .keep
  | '-' => some .strip
  | _ => none

def increment? (c : Cursor) : Except Fault (Option Nat × Cursor) :=
  if c.peek == '0' then .error unreadable
  else if c.peek.isDigit then .ok (some (c.peek.toNat - '0'.toNat), c.next)
  else .ok (none, c)

def blockHeader (c : Cursor) : Except Fault (BlockHeader × Cursor) := do
  let (header, c) ← match chomp? c.peek with
    | some chomp => do
      let (increment, c) ← increment? c.next
      pure (⟨chomp, increment⟩, c)
    | none => do
      let (increment, c) ← increment? c
      match increment, chomp? c.peek with
      | some n, some chomp => pure (BlockHeader.mk chomp (some n), c.next)
      | _, _ => pure (⟨.clip, increment⟩, c)
  if c.peek != ' ' && !isEnd c.peek then throw unreadable
  return (header, ← c.endLine)

def blockLead : Nat → Cursor → List Char → Nat → List Char × Nat × Cursor
  | 0, c, found, width => (found, width, c)
  | n + 1, c, found, width =>
    if c.peek == ' ' then blockLead n c.next found (max width c.next.column)
    else if isBreak c.peek then
      let (b, c) := c.lineBreak
      blockLead n c (found ++ b) width
    else (found, width, c)

def indentTo (column : Nat) (c : Cursor) : Cursor :=
  c.skip ((c.rest.take (column - c.column)).takeWhile (· == ' ')).length

def blockBreaks (column : Nat) : Nat → Cursor → List Char → List Char × Cursor
  | 0, c, found => (found, c)
  | n + 1, c, found =>
    let c := indentTo column c
    if isBreak c.peek then
      let (b, c) := c.lineBreak
      blockBreaks column n c (found ++ b)
    else (found, c)

structure Block where
  text : List Char
  last : List Char := []
  more : List Char
  cursor : Cursor

def isInside (column : Nat) (c : Cursor) : Bool := c.column == column && c.peek != finish

def blockLines (folded : Bool) (column : Nat) : Nat → Block → Block
  | 0, b => b
  | n + 1, b =>
    if !isInside column b.cursor then b
    else
      let (line, c) := b.cursor.span (!isEnd ·)
      let text := b.text ++ b.more ++ line
      let (last, c) := c.lineBreak
      let (more, c) := blockBreaks column c.size c []
      if !isInside column c then ⟨text, last, more, c⟩
      else
        let joins := folded && last == ['\n'] && !isBlank b.cursor.peek && !isBlank c.peek
        let joint := if !joins then last else if more.isEmpty then [' '] else []
        blockLines folded column n ⟨text ++ joint, [], more, c⟩

def block (floor : Nat) (c : Cursor) : Except Fault (List Char × Cursor) := do
  let folded := c.peek == '>'
  let (header, c) ← blockHeader c.next
  let floor := max floor 1
  let (more, column, c) := match header.increment with
    | none =>
      let (more, width, c) := blockLead c.size c [] 0
      (more, max floor width, c)
    | some n =>
      let column := floor + n - 1
      let (more, c) := blockBreaks column c.size c []
      (more, column, c)
  let b := blockLines folded column c.size ⟨[], [], more, c⟩
  let text := match header.chomp with
    | .strip => b.text
    | .clip => b.text ++ b.last
    | .keep => b.text ++ b.last ++ b.more
  return (text, b.cursor)

end GuidedJourney.Yaml
