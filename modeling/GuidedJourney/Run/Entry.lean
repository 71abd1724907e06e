import GuidedJourney.Run.Perform
import GuidedJourney.Settings.Basic

namespace GuidedJourney

/-- What the processing of requests depends on besides the run. -/
structure Rules where
  interpreter : InterpreterSettings
  canCall : Bool

namespace Act

variable (rules : Rules)

def moveTo (s : Screen) : Act Unit := do
  let r ← run
  if (r.screenId.getD "").isEmpty then pure () else release (.ofScreen r.screenId)
  modify fun t => { t with
    run := t.run.arrive s (t.run.stack ++ [s.id])
    entered := t.entered ++ [s.id] }

/-- Sees to the ending of a batch: a closing completes the run and lets all timers go, a navigation
enters its screen. -/
def conclude (enter : Screen → Act Unit) (b : Batch) : Act Unit :=
  match b.ending with
  | .exhausted => pure ()
  | .close reason flowCompleted => do
    setRun (·.complete reason flowCompleted)
    release .all
  | .navigate id => do
    match (← run).findScreen? id with
    | some s => enter s
    | none => pure ()

def isEntryEvent (e : Event) : Bool := rules.interpreter.entryEventTypes.contains e.kind.tag

def fireEntryEvents (enter : Screen → Act Unit) (s : Screen) : List Event → Act Unit
  | [] => pure ()
  | e :: es =>
    if !isEntryEvent rules e then fireEntryEvents enter s es
    else do
      let r ← run
      if r.completed || r.screenId != some s.id then pure ()
      else if ← allHold e.conditions [] then do
        setRun (·.record (.str e.id) .null)
        conclude enter (← Action.performAll rules.canCall [] e.actions {})
        fireEntryEvents enter s es
      else fireEntryEvents enter s es

/-- Enters a screen; the entry events of so many screens in a row may still lead on. -/
def enterWithin : Nat → Screen → Act Unit
  | 0, s => do
    moveTo s
    warn ("Entry event chain limit reached at " ++ s.id)
  | n + 1, s => do
    moveTo s
    fireEntryEvents rules (enterWithin n) s s.events

def enter (s : Screen) : Act Unit := enterWithin rules rules.interpreter.maxChainedEntries s

end Act

end GuidedJourney
