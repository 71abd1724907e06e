import GuidedJourney.Run.Basic
import GuidedJourney.Service.Basic

namespace GuidedJourney

structure ToolCall where
  tool : String
  params : Fields

structure CallRecord where
  call : ServiceCall
  ok : Bool
  error : Option String

inductive Release where
  | ofScreen (id : Option String)
  | all

/-- The run, and what the turn has done besides changing it. -/
structure Turn where
  run : Run
  /-- The timers let go since the turn last waited. -/
  released : List Release := []
  entered : List String := []
  writes : List StateWrite := []
  toolCalls : List ToolCall := []
  serviceCalls : List CallRecord := []
  warnings : List String := []

/-- The course of a turn: it ends, fails, or waits for the answer to a call and goes on from there. -/
inductive Work (α : Type) where
  | done (turn : Turn) (value : α)
  | failed (turn : Turn) (fault : Fault)
  | waiting (turn : Turn) (call : ServiceCall) (resume : ServiceReply → Work α)

namespace Work

variable {α β : Type}

def bind (w : Work α) (f : Turn → α → Work β) : Work β :=
  match w with
  | .done t a => f t a
  | .failed t e => .failed t e
  | .waiting t c k => .waiting t c fun r => (k r).bind f

/-- How a turn ends if every call is answered as it is made. -/
def finish (serve : ServiceCall → ServiceReply) : Work α → Turn × Except Fault α
  | .done t a => (t, .ok a)
  | .failed t e => (t, .error e)
  | .waiting _ c k => (k (serve c)).finish serve

end Work

def Act (α : Type) := Turn → Work α

namespace Act

instance : Monad Act where
  pure a := fun t => .done t a
  bind x f := fun t => (x t).bind fun t a => f a t

def turn : Act Turn := fun t => .done t t

def run : Act Run := fun t => .done t t.run

def modify (f : Turn → Turn) : Act Unit := fun t => .done (f t) ()

def ofExcept {α : Type} (x : Except Fault α) : Act α := fun t =>
  match x with
  | .ok a => .done t a
  | .error e => .failed t e

/-- Waits for a service; what was let go before is settled by then. -/
def call (c : ServiceCall) : Act ServiceReply := fun t =>
  .waiting t c fun r => .done { t with released := [] } r

def setRun (f : Run → Run) : Act Unit := modify fun t => { t with run := f t.run }

def warn (message : String) : Act Unit := modify fun t => { t with warnings := t.warnings ++ [message] }

def release (r : Release) : Act Unit := modify fun t => { t with released := t.released ++ [r] }

def commit (w : StateWrite) : Act Unit :=
  if w.updates.isEmpty then pure ()
  else modify fun t => { t with
    run := { t.run with store := t.run.store.commit w }
    writes := t.writes ++ [w] }

/-- Writes copies into the state, one after another up to a value that cannot be copied. -/
def write (w : StateWrite) : Act Unit := do
  commit w.copied
  if w.copies then pure () else ofExcept (.error .tooDeep)

def allHold (conditions : List Condition) (transient : Fields) : Act Bool := do
  ofExcept (Condition.allHold conditions ((← run).context transient))

def render (fields : Fields) : Act Fields := do
  ofExcept ((← run).scopes.renderFields fields)

end Act

end GuidedJourney
