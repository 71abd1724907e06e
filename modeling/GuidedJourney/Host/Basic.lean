import GuidedJourney.Definition.Validation
import GuidedJourney.Session.Call

namespace GuidedJourney

inductive Refusal where
  | fault (cause : Fault)
  | invalidJourney (id : String) (issues : List Issue)
  | unknownJourney (id : String)
  | unknownRun (id : String)
  | noCatalog

def Refusal.message? : Refusal → Option String
  | .fault (.format cause) => some cause.message
  | .fault _ => none
  | .invalidJourney id issues =>
    some ("Journey " ++ Text.quoted id ++ " is invalid: " ++ "; ".intercalate (issues.map Issue.text))
  | .unknownJourney id => some ("Journey not found: " ++ id)
  | .unknownRun id => some ("Run not found: " ++ id)
  | .noCatalog => some "RunManager has no journey repository"

/-- Journeys by their ids, and the screens that all of them share. -/
structure Catalog where
  journeys : List (String × Journey) := []
  globals : List Screen := []

namespace Catalog

def ofJourneys (journeys : List Journey) (globals : List Screen) : Catalog :=
  ⟨journeys.foldl (fun js j => Fields.put j.id j js) [], globals⟩

def find (c : Catalog) (id : Value) : Except Refusal Journey :=
  match id.asText?.bind fun s => c.journeys.lookup s with
  | some j => .ok j
  | none => .error (.unknownJourney id.text)

end Catalog

structure Host where
  setup : Setup
  catalog : Option Catalog := none
  sessions : List (Session Caller) := []
  /-- The sessions of the runs that are listed, by the ids of the runs. -/
  runs : List (String × Nat) := []

namespace Host

def session? (h : Host) (i : Nat) : Option (Session Caller) := h.sessions[i]?

def setSession (h : Host) (i : Nat) (s : Session Caller) : Host :=
  { h with sessions := h.sessions.set i s }

def newRun (h : Host) (j : Journey) (globals : List Screen) (state : Fields) (id : String) :
    Except Refusal Run :=
  match j.issues with
  | .error f => .error (.fault f)
  | .ok (issue :: issues) => .error (.invalidJourney j.id (issue :: issues))
  | .ok [] => .ok {
      id
      journey := j
      globals
      agentId := j.startingAgent?.map Agent.id
      store := { module := state }
      logLimit := h.setup.interpreter.maxEventLog }

def addSession (h : Host) (r : Run) : Host × Nat :=
  ({ h with sessions := h.sessions ++ [{ run := r }] }, h.sessions.length)

def register (h : Host) (i : Nat) : Host :=
  match h.session? i with
  | some s => { h with runs := Fields.put s.run.id i h.runs }
  | none => h

def find (h : Host) (id : String) : Except Refusal Nat :=
  match h.runs.lookup id with
  | some i => .ok i
  | none => .error (.unknownRun id)

def close (h : Host) (i : Nat) : Host :=
  match h.session? i with
  | some s => h.setSession i s.close
  | none => h

def remove (h : Host) (id : String) : Host := { h with runs := h.runs.filter (·.1 != id) }

def runIds (h : Host) : List String := h.runs.map Prod.fst

def active (h : Host) : Nat :=
  (h.runs.filter fun e => (h.session? e.2).any fun s => !s.run.completed).length

end Host

end GuidedJourney
