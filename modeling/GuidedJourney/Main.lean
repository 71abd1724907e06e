import GuidedJourney.CommandLine.Execution
import GuidedJourney.Settings.Reader
import Std.Time.DateTime.Timestamp

namespace GuidedJourney.CommandLine

def readEnvironment (names : List String) : IO Setting.Environment :=
  names.filterMapM fun name => do return (← IO.getEnv name).map (name, ·)

def readFolder (paths : List String) : IO Folder :=
  paths.filterMapM fun (path : String) => do
    try return some (path, ← IO.FS.readFile path)
    catch _ => return none

def currentTime : IO Int := do
  return (← Std.Time.Timestamp.now).toMillisecondsSinceUnixEpoch.val

def postNowhere (_ : PostRequest) : PostReply := .unreachable "Services cannot be reached"

def showExhibit : Exhibit → IO Unit
  | .data format v => IO.println (Exhibit.text format v)
  | e => match e.lines with
    | .ok lines => lines.forM IO.println
    | .error _ => IO.eprintln "The style of a text cannot be understood."

def complaint : CommandError → String
  | .usage cause => cause.message
  | .badStep => "Invalid JSON in a step."
  | .failed _ => ""
  | .crash cause => cause.message?.getD "The definitions do not have the right shape."

def showOutcome : Except CommandError Report → IO UInt32
  | .ok r => do
    r.exhibits.forM showExhibit
    return 0
  | .error e => do
    match e with
    | .failed exhibits => exhibits.forM showExhibit
    | e => IO.eprintln ("Error: " ++ complaint e)
    return UInt32.ofNat e.exitCode

def carryOut (settings : Settings) (args : List String) : IO UInt32 := do
  match Command.parse settings.services.baseUrl args with
  | .error cause => showOutcome (.error (.usage cause))
  | .ok c =>
    let files ← readFolder c.paths
    showOutcome (c.execute ⟨settings, files, ← currentTime, postNowhere⟩)

def start (args : List String) : IO UInt32 := do
  match Settings.ofEnvironment (← readEnvironment Settings.variableNames) with
  | .ok settings => carryOut settings args
  | .error _ =>
    IO.eprintln "Error: The settings in the environment cannot be understood."
    return 1

end GuidedJourney.CommandLine

def main (args : List String) : IO UInt32 := GuidedJourney.CommandLine.start args
