import GuidedJourney.Assistant.Profile
import GuidedJourney.CommandLine.Command
import GuidedJourney.CommandLine.Step
import GuidedJourney.Console.Report
import GuidedJourney.Service.Http
import GuidedJourney.Settings.Basic
import GuidedJourney.Storage.Folder
import GuidedJourney.Yaml.Reader

namespace GuidedJourney

structure Report where
  exhibits : List Exhibit
  requests : List PostRequest := []

inductive CommandError where
  | usage (cause : UsageFault)
  | badStep
  /-- Something that the command was given is not as it should be. -/
  | failed (exhibits : List Exhibit)
  | crash (cause : Refusal)

def CommandError.exitCode : CommandError → Nat
  | .usage _ | .badStep => 2
  | .failed _ | .crash _ => 1

structure Surroundings where
  settings : Settings := {}
  files : Folder
  /-- The time in milliseconds. -/
  now : Int
  post : PostRequest → PostReply

namespace Exhibit

def success (message : String) : Exhibit := .line ("[green]✓[/green] " ++ message)
def failure (message : String) : Exhibit := .line ("[red]✗[/red] " ++ message)
def warning (message : String) : Exhibit := .line ("[yellow]![/yellow] " ++ message)

end Exhibit

namespace Command

def versionLine : String := "journey, version 1.0.0"

def usage : List String := [
  "Usage: journey [--version] [--debug] [--help] COMMAND",
  "",
  "Commands:",
  "  validate PATH   Check a journey file for structural problems.",
  "  profile PATH    Show the agent runtime view of every agent.",
  "  simulate PATH   Run a journey against a sequence of events and tool calls."]

def crash {α : Type} (f : Fault) : Except CommandError α := .error (.crash (.fault f))

def fail {α : Type} (exhibits : List Exhibit) (message : String) : Except CommandError α :=
  .error (.failed (exhibits ++ [.failure message]))

def readFile (s : Surroundings) (path : String) : Except CommandError (Except Fault Value) :=
  match s.files.document Yaml.read path with
  | .ok v => .ok (.ok v)
  | .error (.fault f) => .ok (.error f)
  | .error _ => .error (.usage (.missingFile path))

def load (s : Surroundings) (path : String) : Except CommandError Journey := do
  match (← readFile s path).bind Journey.ofDocument with
  | .ok j => return j
  | .error (.format cause) => fail [] s!"Could not load {path}: {cause.message}"
  | .error f => crash f

def title (j : Journey) : String := if j.name.isEmpty then j.id else j.name

def issueFields (i : Issue) : Fields := [("path", .str i.path), ("problem", .str i.message)]

def validateJourney (j : Journey) : Except CommandError Report :=
  match j.issues with
  | .error f => crash f
  | .ok [] => .ok { exhibits := [.success s!"Journey [bold]{title j}[/bold] is valid"] }
  | .ok issues =>
    fail [.table "Validation issues" ["path", "problem"] (issues.map issueFields)]
      s!"{issues.length} issue(s) found"

def profileJourney (s : Surroundings) (format : DocumentFormat) (j : Journey) :
    Except CommandError Report :=
  match j.agents.mapM (Profile.ofAgent s.settings.bridge j) with
  | .error f => crash f
  | .ok profiles => .ok { exhibits := [.data format (.list (profiles.map Profile.toDocument))] }

def steps (read : String → Except Fault ScriptStep) (raws : List String) :
    Except CommandError (List ScriptStep) :=
  match raws.mapM read with
  | .ok steps => .ok steps
  | .error .badArgument => .error .badStep
  | .error f => crash f

def scriptSteps (s : Surroundings) : Option String → Except CommandError (List ScriptStep)
  | none => .ok []
  | some path => do
    match ← readFile s path with
    | .error f => crash f
    | .ok v => match ScriptStep.listOfDocument? v with
      | some steps => return steps
      | none => fail [] "Script must be a list of steps"

def stateFields (v : Value) : Except Fault Fields :=
  if !v.truthy then .ok []
  else match v with
    | .obj fields => .ok fields
    | _ => .error .wrongKind

def moduleState : Option String → Except CommandError Fields
  | none => .ok []
  | some text => match (Json.read text).bind stateFields with
    | .ok fields => .ok fields
    | .error (.format cause) => fail [] s!"Invalid --state JSON: {cause.message}"
    | .error f => crash f

def columns : List String := ["step", "outcome", "screen", "agent", "completed", "warnings"]

def reasonText (r : Run) : String := (r.completionReason.orElse (.str "no reason")).text

def stateLine (label : String) (fields : Fields) : Exhibit :=
  .line (label ++ Json.write Json.spaced (.obj fields))

def performanceTable (j : Journey) (p : Performance) : List Exhibit :=
  [.table ("Simulation: " ++ title j) columns (p.scenes.map Scene.fields),
    stateLine "\nModule state: " p.run.store.module,
    stateLine "Screen state: " p.run.store.screen] ++
    if p.run.completed then [.success s!"Run completed ({reasonText p.run})"] else []

def performanceData (p : Performance) : Value :=
  .obj [("steps", .list (p.scenes.map fun s => .obj s.fields)), ("run", p.run.toDocument)]

def setupFor (s : Surroundings) (endpoint : Option Endpoint) : Setup where
  interpreter := s.settings.interpreter
  bridge := s.settings.bridge
  services := endpoint.map fun e => e.serve s.post
  recording := false
  timestamp := s.now

def simulateJourney (s : Surroundings) (o : SimulateOptions) (state : Fields)
    (script : List ScriptStep) (j : Journey) : Except CommandError Report :=
  let endpoint : Option Endpoint := o.servicesUrl.map fun url => ⟨url, s.settings.services.apiKey⟩
  match j.perform (setupFor s endpoint) state script with
  | .error (.invalidJourney _ issues) =>
    fail (issues.map fun i => .warning i.text) "Journey is invalid; fix it before simulating"
  | .error e => .error (.crash e)
  | .ok p =>
    let requests := match endpoint with
      | some e => p.calls.map e.request
      | none => []
    match o.output with
    | some format => .ok { exhibits := [.data format (performanceData p)], requests }
    | none => .ok { exhibits := performanceTable j p, requests }

def runSimulation (s : Surroundings) (o : SimulateOptions) : Except CommandError Report := do
  let j ← load s o.path
  let events ← steps ScriptStep.ofEventArgument o.events
  let tools ← steps ScriptStep.ofToolArgument o.tools
  let script ← scriptSteps s o.script
  simulateJourney s o (← moduleState o.state) (events ++ tools ++ script) j

def execute (s : Surroundings) (c : Command) : Except CommandError Report :=
  match c.paths.find? fun p => (s.files.lookup p).isNone with
  | some path => .error (.usage (.missingFile path))
  | none => match c with
    | .help => .ok { exhibits := usage.map .line }
    | .version => .ok { exhibits := [.line versionLine] }
    | .validate path => do validateJourney (← load s path)
    | .profile path format => do profileJourney s format (← load s path)
    | .simulate o => runSimulation s o

end Command

end GuidedJourney
