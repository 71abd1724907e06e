import GuidedJourney.CommandLine.Arguments
import GuidedJourney.Definition.Document

namespace GuidedJourney

abbrev Output := Option DocumentFormat

structure SimulateOptions where
  path : String
  events : List String
  tools : List String
  script : Option String
  state : Option String
  servicesUrl : Option String
  output : Output

inductive Command where
  | help
  | version
  | validate (path : String)
  | profile (path : String) (format : DocumentFormat)
  | simulate (o : SimulateOptions)

namespace Command

def helpSwitch : Switch := { long := "--help" }

def outputSwitch : Switch := { long := "--output", short := some 'o', takesValue := true }

def mainSwitches : List Switch := [{ long := "--version" }, { long := "--debug" }, helpSwitch]

def simulateSwitches : List Switch := [
  { long := "--event", short := some 'e', takesValue := true },
  { long := "--tool", short := some 't', takesValue := true },
  { long := "--script", short := some 's', takesValue := true },
  { long := "--state", takesValue := true },
  { long := "--services-url", takesValue := true },
  outputSwitch, helpSwitch]

def choose {α : Type} (choices : List (String × α)) (default : α) (a : Arguments) :
    Except UsageFault α :=
  match a.value? "--output" with
  | none => .ok default
  | some v => match choices.lookup v with
    | some x => .ok x
    | none => .error (.badValue "--output" v)

def formats : List (String × DocumentFormat) := [("yaml", .yaml), ("json", .json)]

def outputs : List (String × Output) := ("table", none) :: formats.map fun f => (f.1, some f.2)

def ofValidate (args : List String) : Except UsageFault Command := do
  let a ← Arguments.parse [helpSwitch] true args
  if a.has "--help" then return .help
  return .validate (← a.only)

def ofProfile (args : List String) : Except UsageFault Command := do
  let a ← Arguments.parse [outputSwitch, helpSwitch] true args
  if a.has "--help" then return .help
  return .profile (← a.only) (← choose formats .yaml a)

def ofSimulate (defaultUrl : Option String) (args : List String) : Except UsageFault Command := do
  let a ← Arguments.parse simulateSwitches true args
  if a.has "--help" then return .help
  return .simulate {
    path := ← a.only
    events := a.values "--event"
    tools := a.values "--tool"
    script := a.value? "--script"
    state := (a.value? "--state").filter (!·.isEmpty)
    servicesUrl := ((a.value? "--services-url").or defaultUrl).filter (!·.isEmpty)
    output := ← choose outputs none a }

/-- The command that arguments ask for; whichever comes first of help and version goes before it. -/
def parse (defaultUrl : Option String) (args : List String) : Except UsageFault Command := do
  let a ← Arguments.parse mainSwitches false args
  match a.options.find? fun o => o.1 != "--debug" with
  | some (name, _) => return if name == "--version" then .version else .help
  | none => match a.others with
    | [] => throw .missingCommand
    | "validate" :: rest => ofValidate rest
    | "profile" :: rest => ofProfile rest
    | "simulate" :: rest => ofSimulate defaultUrl rest
    | name :: _ => throw (.unknownCommand name)

def paths : Command → List String
  | .help | .version => []
  | .validate path | .profile path _ => [path]
  | .simulate o => o.path :: o.script.toList

end Command

end GuidedJourney
