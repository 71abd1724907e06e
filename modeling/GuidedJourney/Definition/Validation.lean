import GuidedJourney.Definition.Journey
import GuidedJourney.Text.Blank

namespace GuidedJourney

structure Issue where
  path : String
  message : String
  deriving DecidableEq, Repr

def Issue.text (i : Issue) : String := i.path ++ ": " ++ i.message

namespace Journey

def nameIssues (j : Journey) : List Issue :=
  if Text.isBlankText j.name then [⟨"name", "journey name is required"⟩] else []

def startIssues (j : Journey) : Except Fault (List Issue) :=
  if !j.startingAgentId.truthy then .ok []
  else match j.startingAgentId with
    | .list _ | .obj _ => .error .wrongKind
    | v =>
      if (v.asText?.map fun s => j.agents.any (·.id == s)).getD false then .ok []
      else .ok [⟨"startingAgentId", "starting agent " ++ v.literal ++ " does not exist"⟩]

/-- Ids must be given and differ from those before them; `what` names their kind and `place` says
where the one at a position stands. -/
def idIssues (what : String) (place : Nat → String) (index : Nat) (seen : List String) :
    List String → List Issue
  | [] => []
  | id :: ids =>
    (if id.isEmpty then [⟨place index ++ ".id", what ++ " id is required"⟩]
     else if seen.contains id then
       [⟨place index ++ ".id", "duplicate " ++ what ++ " id " ++ Text.quoted id⟩]
     else []) ++ idIssues what place (index + 1) (id :: seen) ids

def place (list : String) (index : Nat) : String := list ++ "[" ++ toString index ++ "]"

def handoffIssues (known : List String) (path : String) (a : Agent) : List Issue :=
  (a.handoffs.filter (!known.contains ·)).map fun target =>
    ⟨path ++ ".handoffs", "handoff target " ++ Text.quoted target ++ " does not exist"⟩

def toolIssues (path : String) (a : Agent) : List Issue :=
  a.tools.zipIdx.filterMap fun (t, i) =>
    if Text.isBlankText t.name then
      some ⟨place (path ++ ".tools") i ++ ".name", "tool name is required"⟩
    else none

def agentIssues (known : List String) (path : String) (a : Agent) : List Issue :=
  handoffIssues known path a ++
    idIssues "screen" (place (path ++ ".screens")) 0 [] (a.screens.map Screen.id) ++
    toolIssues path a

def agentsIssues (known : List String) (index : Nat) (seen : List String) : List Agent → List Issue
  | [] => []
  | a :: as =>
    idIssues "agent" (fun _ => place "agents" index) index seen [a.id] ++
      agentIssues known (place "agents" index) a ++ agentsIssues known (index + 1) (a.id :: seen) as

def issues (j : Journey) : Except Fault (List Issue) :=
  if j.agents.isEmpty then .ok (j.nameIssues ++ [⟨"agents", "at least one agent is required"⟩])
  else do
    let starts ← j.startIssues
    return j.nameIssues ++ starts ++ agentsIssues (j.agents.map Agent.id) 0 [] j.agents

end Journey

end GuidedJourney
