import GuidedJourney.Definition.Document

namespace GuidedJourney

abbrev Folder := List (String × String)

namespace FileName

/-- The name before the last dot, and the suffix from that dot on. There is no suffix if nothing stands
before the dot or after it. -/
def cut (name : String) : String × String :=
  let cs := name.toList
  let tail := (cs.reverse.takeWhile (· != '.')).reverse
  let stem := cs.take (cs.length - tail.length - 1)
  if stem.isEmpty || tail.isEmpty || tail.length = cs.length then (name, "")
  else (String.ofList stem, String.ofList ('.' :: tail))

def base (path : String) : String :=
  String.ofList (path.toList.reverse.takeWhile (· != '/')).reverse

def stem (path : String) : String := (cut (base path)).1

def suffix (path : String) : String := (cut (base path)).2

def documentSuffixes : List String := ".json" :: DocumentFormat.yamlSuffixes

def isDocument (name : String) : Bool :=
  documentSuffixes.contains (String.ofList ((suffix name).toList.map Char.toLower))

end FileName

inductive LoadError where
  | fault (cause : Fault)
  | unknownJourney (id : String)
  | missingFile (name : String)

def LoadError.message? : LoadError → Option String
  | .fault (.format cause) => some cause.message
  | .unknownJourney id => some ("Journey not found: " ++ id)
  | _ => none

abbrev FileIndex := List (String × String)

namespace Folder

variable (yaml : String → Except Fault Value)

def document (folder : Folder) (name : String) : Except LoadError Value :=
  match folder.lookup name with
  | none => .error (.missingFile name)
  | some text =>
    match (DocumentFormat.ofSuffix (FileName.suffix name)).read yaml text with
    | .ok v => .ok v
    | .error f => .error (.fault f)

def journeyFiles (screensFile : Option String) (folder : Folder) : List String :=
  let isJourney (name : String) : Bool :=
    FileName.isDocument name && some (FileName.stem name) != screensFile
  ((folder.map Prod.fst).filter isJourney).mergeSort fun a b => decide (a ≤ b)

def documentId (v : Value) : Value :=
  match v with
  | .obj fields =>
    let body := ((Fields.find? fields "journey").getD v).fieldsOrEmpty
    (Fields.get body "id").orElse (Fields.get body "_id")
  | _ => .null

def idOf (name : String) (v : Value) : Except LoadError String :=
  let id := documentId v
  if id.truthy then id.printed.mapError .fault else .ok (FileName.stem name)

/-- Of two files with the same id, the later one counts. -/
def index (screensFile : Option String) (folder : Folder) : Except LoadError FileIndex :=
  (folder.journeyFiles screensFile).foldlM (fun ids name => do
    return Fields.put (← idOf name (← folder.document yaml name)) name ids) []

def journey (id name : String) (folder : Folder) : Except LoadError Journey := do
  match Journey.ofDocument (← folder.document yaml name) with
  | .error f => throw (.fault f)
  | .ok j => return if j.id.isEmpty then { j with id } else j

def screens (screensFile : Option String) (folder : Folder) : Except LoadError (List Screen) :=
  match screensFile.filter (!·.isEmpty) with
  | none => .ok []
  | some stem =>
    match (FileName.documentSuffixes.map (stem ++ ·)).find? fun name => (folder.lookup name).isSome with
    | none => .ok []
    | some name => do
      match Screen.listOfDocument (← folder.document yaml name) with
      | .error f => throw (.fault f)
      | .ok screens => return screens

end Folder

/-- A reader of a folder that remembers which file holds which journey. -/
structure Librarian where
  screensFile : Option String := some "screens"
  known : Option FileIndex := none

namespace Librarian

variable (yaml : String → Except Fault Value)

def refresh (l : Librarian) : Librarian := { l with known := none }

def index (folder : Folder) (l : Librarian) : Except LoadError FileIndex :=
  match l.known with
  | some ids => .ok ids
  | none => folder.index yaml l.screensFile

def learn (folder : Folder) (l : Librarian) : Librarian :=
  match l.index yaml folder with
  | .ok ids => { l with known := some ids }
  | .error _ => l

def journeyIds (folder : Folder) (l : Librarian) : Except LoadError (List String) :=
  (l.index yaml folder).map fun ids => ids.map Prod.fst

def load (folder : Folder) (id : String) (l : Librarian) : Except LoadError Journey := do
  match (← l.index yaml folder).lookup id with
  | none => throw (.unknownJourney id)
  | some name => folder.journey yaml id name

def screens (folder : Folder) (l : Librarian) : Except LoadError (List Screen) :=
  folder.screens yaml l.screensFile

end Librarian

end GuidedJourney
