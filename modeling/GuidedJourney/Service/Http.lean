import GuidedJourney.Json.Reader
import GuidedJourney.Service.Basic
import GuidedJourney.Text.Blank
import GuidedJourney.Text.Digit
import GuidedJourney.Text.Split

namespace GuidedJourney

structure PostRequest where
  url : String
  /-- What the caller shows to be let in. -/
  authorization : Option String
  body : Value

inductive PostReply where
  | unreachable (cause : String)
  | response (status : Int) (body : String)

structure Endpoint where
  base : String
  apiKey : Option String

namespace Url

def reserved : List Char := [' ', '"', '#', '<', '>', '?', '\x60', '\x7b', '\x7d']

def reservedInQuery : List Char := [' ', '"', '#', '<', '>']

def hexDigit (n : Nat) : Char := if n < 10 then Char.ofNat (48 + n) else Char.ofNat (55 + n)

def percent (b : UInt8) : List Char := ['%', hexDigit (b.toNat / 16), hexDigit (b.toNat % 16)]

def escape (reserved : List Char) (c : Char) : List Char :=
  if c.toNat < 0x20 || 0x7F ≤ c.toNat || reserved.contains c then
    (String.singleton c).toUTF8.toList.flatMap percent
  else [c]

def walk (done : List (List Char)) : List (List Char) → List (List Char)
  | [] => done.reverse
  | ['.'] :: rest => walk done rest
  | ['.', '.'] :: rest => walk (if done.all (·.isEmpty) && done.length ≤ 1 then done else done.tail) rest
  | s :: rest => walk (s :: done) rest

def resolve (path : List Char) : List Char :=
  "/".toList.intercalate (walk [] (Text.split '/' path))

def encode (target : List Char) : List Char :=
  let (path, query) := Text.cut '?' (Text.cut '#' target).1
  (resolve path).flatMap (escape reserved) ++
    match query with
    | some q => '?' :: q.flatMap (escape reservedInQuery)
    | none => []

def cutHost (cs : List Char) : List Char × List Char :=
  match Text.cut ':' cs with
  | (scheme, some ('/' :: '/' :: r)) =>
    ((scheme ++ "://".toList ++ r.takeWhile (!"/?#".toList.contains ·)).map Char.toLower,
      r.dropWhile (!"/?#".toList.contains ·))
  | _ => ([], cs)

end Url

namespace Endpoint

def urlOf (e : Endpoint) (name : String) : String :=
  let (host, path) := Url.cutHost e.base.toList
  let path := (Text.cut '#' path).1
  let folder := if path.getLast? == some '/' then path else path ++ ['/']
  String.ofList (host ++ Url.encode (folder ++ "services/".toList ++ name.toList))

def authorization (e : Endpoint) : Option String :=
  (e.apiKey.filter (!·.isEmpty)).map ("Bearer " ++ ·)

def request (e : Endpoint) (c : ServiceCall) : PostRequest where
  url := e.urlOf c.name
  authorization := e.authorization
  body := .obj [("params", .obj c.params)]

end Endpoint

namespace PostReply

/-- A body that is no JSON stands for itself, and an empty one for nothing. -/
def content (body : String) : Value :=
  let cs := body.toList
  match Json.read (String.ofList (if cs.head? == some '\uFEFF' then cs.tail else cs)) with
  | .ok v => v
  | .error _ => if body.isEmpty then .null else .str body

def isSuccess (status : Int) : Bool := 200 ≤ status && status < 300

def resultOf : Value → Value
  | .obj fields => (Fields.find? fields "result").getD (.obj fields)
  | v => v

def toServiceReply : PostReply → ServiceReply
  | .unreachable cause => .failure (some cause) .null
  | .response status body =>
    if isSuccess status then .success (resultOf (content body))
    else .failure (some s!"HTTP {status}") (content body)

end PostReply

def Endpoint.serve (e : Endpoint) (post : PostRequest → PostReply) (c : ServiceCall) : TimedReply :=
  ⟨none, (post (e.request c)).toServiceReply⟩

end GuidedJourney
