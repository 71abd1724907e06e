import GuidedJourney.Binary64.Numeral
import GuidedJourney.Fault
import GuidedJourney.Text.Split

namespace GuidedJourney

/-- The parts of an address that matter here; a relative one has no scheme or no host. -/
structure Address where
  scheme : List Char
  host : List Char
  path : List Char
  deriving DecidableEq

namespace Address

def isGroup (cs : List Char) : Bool :=
  !cs.isEmpty && cs.length ≤ 4 && cs.all fun c => (Text.hexValue? c).isSome

def isOctet (cs : List Char) : Bool :=
  !cs.isEmpty && cs.length ≤ 3 && cs.all Char.isDigit && (cs == ['0'] || cs.head? != some '0') &&
    Binary64.digitsValue cs < 256

def isDotted (cs : List Char) : Bool :=
  let octets := Text.split '.' cs
  octets.length == 4 && octets.all isOctet

/-- The number of groups in a sequence of parts; the last part may be four octets between dots, which
take the place of two groups. -/
def countGroups? : List (List Char) → Option Nat
  | [] => some 0
  | [p] => if isGroup p then some 1 else if isDotted p then some 2 else none
  | p :: ps => if isGroup p then (countGroups? ps).map (· + 1) else none

def parts (cs : List Char) : List (List Char) := if cs.isEmpty then [] else Text.split ':' cs

def cutAtGap? : List Char → Option (List Char × List Char)
  | ':' :: ':' :: r => some ([], r)
  | c :: r => (cutAtGap? r).map fun (a, b) => (c :: a, b)
  | [] => none

/-- Eight groups; one double colon may stand for at least one of them. -/
def isGrouped (cs : List Char) : Bool :=
  match cutAtGap? cs with
  | none => countGroups? (parts cs) == some 8
  | some (high, low) =>
    (parts high).all isGroup && (countGroups? (parts low)).any fun n => (parts high).length + n ≤ 7

def isVersion6 (cs : List Char) : Bool :=
  let (groups, zone) := Text.cut '%' cs
  isGrouped groups && zone.all fun z => !z.isEmpty && !z.contains '%'

def isLaterVersion (cs : List Char) : Bool :=
  let (version, rest) := Text.cut '.' cs
  !version.isEmpty && version.all (fun c => (Text.hexValue? c).isSome) && rest.any (!·.isEmpty)

def isBracketed (cs : List Char) : Bool :=
  match cs with
  | 'v' :: r => isLaterVersion r
  | _ => isVersion6 cs

/-- Characters whose compatibility form holds one of the marks that end a host. -/
def lookalikes : List Char := [
  '\u2047', '\u2048', '\u2049', '\u2100', '\u2101', '\u2105', '\u2106', '\u2A74', '\uFE13', '\uFE16',
  '\uFE55', '\uFE56', '\uFE5F', '\uFE6B', '\uFF03', '\uFF0F', '\uFF1A', '\uFF1F', '\uFF20']

def isHost (cs : List Char) : Bool :=
  cs.contains '[' == cs.contains ']' &&
    (!cs.contains '[' ||
      isBracketed (Text.cut ']' ((Text.cut '[' cs).2.getD [])).1) &&
    cs.all (!lookalikes.contains ·)

def isSchemeChar (c : Char) : Bool := c.isAlphanum || c == '+' || c == '-' || c == '.'

def cutScheme (cs : List Char) : List Char × List Char :=
  match Text.cut ':' cs with
  | (c :: scheme, some rest) =>
    if c.isAlpha && scheme.all isSchemeChar then ((c :: scheme).map Char.toLower, rest) else ([], cs)
  | _ => ([], cs)

def clean (cs : List Char) : List Char :=
  (cs.dropWhile fun c => c.toNat ≤ 0x20).filter fun c => c != '\t' && c != '\n' && c != '\r'

def isHostChar (c : Char) : Bool := c != '/' && c != '?' && c != '#'

def ofText (cs : List Char) : Except Fault Address :=
  let (scheme, r) := cutScheme (clean cs)
  let (host, r) := match r with
    | '/' :: '/' :: r => (r.takeWhile isHostChar, r.dropWhile isHostChar)
    | r => ([], r)
  if isHost host then .ok ⟨scheme, host, r.takeWhile fun c => c != '?' && c != '#'⟩
  else .error .badAddress

def isAbsolute (a : Address) : Bool := !a.scheme.isEmpty && !a.host.isEmpty

/-- Schemes whose last path segment may carry parameters after a semicolon. -/
def parametrized : List String := [
  "ftp", "hdl", "prospero", "http", "imap", "https", "shttp", "rtsp", "rtsps", "rtspu", "sip", "sips",
  "mms", "sftp", "tel"]

def segments (a : Address) : List (List Char) :=
  let all := Text.split '/' a.path
  if parametrized.contains (String.ofList a.scheme) then
    all.dropLast ++ (all.getLast?.map fun s => (Text.cut ';' s).1).toList
  else all

end Address

def screenIdOf (deeplink : String) : Except Fault (Option String) := do
  if deeplink.isEmpty then return none
  let address ← Address.ofText deeplink.toList
  if address.isAbsolute then
    return (address.segments.filter (!·.isEmpty)).getLast?.map String.ofList
  return some deeplink

end GuidedJourney
