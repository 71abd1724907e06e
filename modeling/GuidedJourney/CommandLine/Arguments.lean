namespace GuidedJourney

structure Switch where
  long : String
  short : Option Char := none
  takesValue : Bool := false

inductive UsageFault where
  | unknownOption (name : String)
  | missingValue (name : String)
  | unwantedValue (name : String)
  | badValue (name value : String)
  | missingArgument
  | unwantedArgument (value : String)
  | unknownCommand (name : String)
  | missingCommand
  | missingFile (path : String)
  deriving DecidableEq

def UsageFault.message : UsageFault → String
  | .unknownOption name => "No such option: " ++ name
  | .missingValue name => s!"Option '{name}' requires an argument."
  | .unwantedValue name => s!"Option '{name}' does not take a value."
  | .badValue name value => s!"Invalid value for '{name}': {value}"
  | .missingArgument => "Missing argument 'PATH'."
  | .unwantedArgument value => s!"Got unexpected extra argument ({value})"
  | .unknownCommand name => s!"No such command '{name}'."
  | .missingCommand => "Missing command."
  | .missingFile path => s!"File '{path}' does not exist."

structure Arguments where
  options : List (String × String) := []
  others : List String := []

namespace Arguments

def addOther (value : String) (a : Arguments) : Arguments := { a with others := value :: a.others }

/-- Short options that are written together. Only the last may take a value, which follows it at once
or is the next argument. -/
def cluster (switches : List Switch) :
    List Char → Except UsageFault (List (String × String) × Option Switch)
  | [] => .ok ([], none)
  | c :: cs =>
    match switches.find? (·.short == some c) with
    | none => .error (.unknownOption (String.ofList ['-', c]))
    | some s =>
      if !s.takesValue then do
        let (found, last) ← cluster switches cs
        return ((s.long, "") :: found, last)
      else if cs.isEmpty then .ok ([], some s)
      else .ok ([(s.long, String.ofList cs)], none)

def cutLong (arg : String) : String × Option String :=
  let cs := arg.toList
  match cs.dropWhile (· != '=') with
  | [] => (arg, none)
  | _ :: value => (String.ofList (cs.takeWhile (· != '=')), some (String.ofList value))

def optionsIn (switches : List Switch) (arg : String) :
    Except UsageFault (List (String × String) × Option Switch) :=
  match arg.toList with
  | '-' :: '-' :: _ =>
    let (name, value) := cutLong arg
    match switches.find? (·.long == name), value with
    | none, _ => .error (.unknownOption name)
    | some s, some v => if s.takesValue then .ok ([(name, v)], none) else .error (.unwantedValue name)
    | some s, none => .ok (if s.takesValue then ([], some s) else ([(name, "")], none))
  | _ :: cs => cluster switches cs
  | [] => .ok ([], none)

def isOption (arg : String) : Bool := arg.toList.head? == some '-' && 1 < arg.length

/-- Two dashes end the options, and so does the first argument that is none unless they may be mixed. -/
def parse (switches : List Switch) (mixed : Bool) : List String → Except UsageFault Arguments
  | [] => .ok {}
  | arg :: rest =>
    if arg == "--" then .ok { others := rest }
    else if !isOption arg then
      if mixed then (parse switches mixed rest).map (addOther arg) else .ok { others := arg :: rest }
    else match optionsIn switches arg with
      | .error e => .error e
      | .ok (found, none) => do
        let a ← parse switches mixed rest
        return { a with options := found ++ a.options }
      | .ok (found, some s) => match rest with
        | [] => .error (.missingValue s.long)
        | value :: rest => do
          let a ← parse switches mixed rest
          return { a with options := found ++ (s.long, value) :: a.options }

def values (name : String) (a : Arguments) : List String :=
  (a.options.filter (·.1 == name)).map Prod.snd

def value? (name : String) (a : Arguments) : Option String := (a.values name).getLast?

def has (name : String) (a : Arguments) : Bool := !(a.values name).isEmpty

def only (a : Arguments) : Except UsageFault String :=
  match a.others with
  | [] => .error .missingArgument
  | [x] => .ok x
  | _ :: x :: _ => .error (.unwantedArgument x)

end Arguments

end GuidedJourney
