import GuidedJourney.Text.Quoted
import GuidedJourney.Yaml.Kind

namespace GuidedJourney.Yaml

structure Style where
  /-- Characters outside ASCII are written as they are. -/
  unicode : Bool
  width : Nat := 80

def isWrittenBreak (c : Char) : Bool := isBreak c && c != '\r'

def isShown (c : Char) : Bool :=
  let n := c.toNat
  (c == '\u0085' || 0xA0 ≤ n && n ≤ 0xFFFD || 0x10000 ≤ n && n < 0x10FFFF) && c != byteOrderMark

def isAsciiShown (c : Char) : Bool := 0x20 ≤ c.toNat && c.toNat ≤ 0x7E

def isSpecial (st : Style) (c : Char) : Bool :=
  !(c == '\n' || isAsciiShown c) && !(st.unicode && isShown c)

def leadingMarks : List Char := "#,[]\x7b\x7d&*!|>'\"%@\x60".toList

def beginsMarked (cs : List Char) : Bool :=
  let alone := isGap ((cs[1]?).getD finish)
  cs.take 3 == ['-', '-', '-'] || cs.take 3 == ['.', '.', '.'] ||
    cs.head?.any fun c => leadingMarks.contains c || (c == '?' || c == ':' || c == '-') && alone

def holdsMark (before : Char) : List Char → Bool
  | [] => false
  | c :: r =>
    c == ':' && isGap (r.head?.getD finish) || c == '#' && isGap before || holdsMark c r

def neighbours (p q : Char → Bool) (cs : List Char) : Bool := (cs.zip cs.tail).any fun e => p e.1 && q e.2

def isSpace (c : Char) : Bool := c == ' '

inductive Form where
  | plain
  | single
  | double
  deriving DecidableEq

/-- Single quotes keep everything but spaces around line breaks and characters that need escapes. -/
def fitsSingle (st : Style) (cs : List Char) : Bool :=
  !neighbours isWrittenBreak isSpace cs && !neighbours isSpace isWrittenBreak cs &&
    !cs.any (isSpecial st)

def fitsPlain (st : Style) (cs : List Char) : Bool :=
  fitsSingle st cs && !cs.any isWrittenBreak && !cs.head?.any isSpace && !cs.getLast?.any isSpace &&
    !beginsMarked cs && !holdsMark (cs.head?.getD finish) cs.tail

/-- The form of a text, which must not look like a scalar of another kind. -/
def Form.of (st : Style) (s : String) : Form :=
  let cs := s.toList
  if Kind.ofPlain s == .str && fitsPlain st cs then .plain
  else if fitsSingle st cs then .single
  else .double

def newLine (indent : Nat) : List Char := '\n' :: List.replicate indent ' '

structure Fold where
  style : Style
  /-- Scalars that are keys stay on their line. -/
  breaks : Bool
  indent : Nat

def Fold.isOver (f : Fold) (column : Nat) : Bool := f.breaks && f.style.width < column

def foldWords (f : Fold) (column : Nat) (before : Char) : List Char → List Char
  | [] => []
  | c :: r =>
    let next := r.head?.getD finish
    if c == ' ' && before != ' ' && next != ' ' && !r.isEmpty && f.isOver column then
      newLine f.indent ++ foldWords f f.indent c r
    else c :: foldWords f (column + 1) c r

/-- The text between single quotes, which are doubled. A line break of the text is written twice, since
a single one would be read as a space. -/
def foldSingle (f : Fold) (column : Nat) (before : Char) : List Char → List Char
  | [] => []
  | c :: r =>
    let next := r.head?.getD finish
    if c == '\'' then '\'' :: '\'' :: foldSingle f (column + 2) c r
    else if isWrittenBreak c then
      (if c == '\n' && !isWrittenBreak before then ['\n'] else []) ++
        if isWrittenBreak next then c :: foldSingle f 0 c r
        else c :: List.replicate f.indent ' ' ++ foldSingle f f.indent c r
    else if c == ' ' && before != ' ' && before != finish && next != ' ' && !r.isEmpty &&
        f.isOver column then
      newLine f.indent ++ foldSingle f f.indent c r
    else c :: foldSingle f (column + 1) c r

def letters : List (Char × Char) := [
  ('\x00', '0'), ('\x07', 'a'), ('\x08', 'b'), ('\t', 't'), ('\n', 'n'), ('\x0b', 'v'), ('\x0c', 'f'),
  ('\r', 'r'), ('\x1b', 'e'), ('"', '"'), ('\\', '\\'), ('\u0085', 'N'), ('\u00a0', '_'),
  ('\u2028', 'L'), ('\u2029', 'P')]

def upperHex (width n : Nat) : List Char := (Text.hex width n).map Char.toUpper

def escaped (c : Char) : List Char :=
  let n := c.toNat
  match letters.lookup c with
  | some x => ['\\', x]
  | none =>
    if n ≤ 0xFF then '\\' :: 'x' :: upperHex 2 n
    else if n ≤ 0xFFFF then '\\' :: 'u' :: upperHex 4 n
    else '\\' :: 'U' :: upperHex 8 n

def isVerbatim (st : Style) (c : Char) : Bool :=
  c != '"' && c != '\\' &&
    (isAsciiShown c || st.unicode && c.toNat < 0x10000 && isShown c && !isBreak c)

/-- A backslash at the end of a line joins it with the next, and one at its beginning keeps a space. -/
def joinLine (f : Fold) (next : Char) : List Char :=
  '\\' :: newLine f.indent ++ if next == ' ' then ['\\'] else []

def afterJoin (f : Fold) (next : Char) : Nat := if next == ' ' then f.indent + 1 else f.indent

/-- The text between double quotes. Lines are broken before a space or next to an escape; `fresh` says
that nothing has been written since the last escape, and `first` that nothing has been written at all. -/
def foldDouble (f : Fold) (column : Nat) (fresh first : Bool) : List Char → List Char
  | [] => []
  | c :: r =>
    let inside := !first && !r.isEmpty
    if isVerbatim f.style c then
      if inside && (c == ' ' || fresh) && f.isOver column then
        joinLine f c ++ c :: foldDouble f (afterJoin f c + 1) false false r
      else c :: foldDouble f (column + 1) false false r
    else
      let e := escaped c
      let next := r.head?.getD finish
      if inside && f.isOver (column + e.length - 1) then
        e ++ joinLine f next ++ foldDouble f (afterJoin f next) true false r
      else e ++ foldDouble f (column + e.length) true false r

def writeText (f : Fold) (column : Nat) (s : String) : List Char :=
  let cs := s.toList
  match Form.of f.style s with
  | .plain => foldWords f column finish cs
  | .single => '\'' :: foldSingle f (column + 1) finish cs ++ ['\'']
  | .double => '"' :: foldDouble f (column + 1) true true cs ++ ['"']

def writeNumber (x : Binary64) : List Char :=
  match x with
  | .nan => ".nan".toList
  | .infinite n => (if n then "-.inf" else ".inf").toList
  | x =>
    let cs := x.text.toList
    if cs.contains '.' then cs
    else cs.takeWhile (· != 'e') ++ ".0".toList ++ cs.dropWhile (· != 'e')

end GuidedJourney.Yaml
