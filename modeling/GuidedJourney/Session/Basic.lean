import GuidedJourney.Assistant.Signal
import GuidedJourney.Run.Request
import GuidedJourney.Session.Answer

namespace GuidedJourney

/-- What stays the same in all sessions of a host. Services are assumed to report their failures in
replies and to leave what they are handed as it is, and recording an answer never to fail. -/
structure Setup where
  interpreter : InterpreterSettings := {}
  bridge : BridgeSettings := {}
  services : Option (ServiceCall → TimedReply) := none
  recording : Bool := true
  /-- The time that recorded input is stamped with, in milliseconds. -/
  timestamp : Int := 0

namespace Setup

def rules (u : Setup) : Rules := ⟨u.interpreter, u.services.isSome⟩

def instant? (u : Setup) (c : ServiceCall) : Option ServiceReply :=
  match u.services with
  | none => none
  | some serve => match serve c with
    | ⟨none, reply⟩ => some reply
    | _ => none

end Setup

/-- Someone who is told of responses, or of something else that comes out of a session. Listeners are
assumed to leave what they are told of as it is, and to fail with ordinary exceptions only, which end
their own hearing of it; a cancellation is none. -/
structure Listener (α : Type := Response) where
  react : List α → α → Except Fault Unit
  heard : List α := []

def Listener.tell {α : Type} (a : α) (l : Listener α) : Listener α × Except Fault Unit :=
  ({ l with heard := l.heard ++ [a] }, l.react l.heard a)

/-- Tells one listener after another, whether or not they fail on it. -/
def Listener.tellAll {α : Type} (a : α) (ls : List (Listener α)) : List (Listener α) :=
  ls.map fun l => (l.tell a).1

/-- A request with the mark of its caller. -/
structure Queued (ε : Type) where
  caller : ε
  request : Request

structure Suspension (ε : Type) where
  caller : ε
  call : ServiceCall
  resume : ServiceReply → Work Response

/-- A run with its timers and its requests, and all that has come out of it so far. -/
structure Session (ε : Type) where
  run : Run
  timers : List Timer := []
  /-- The timers that have been armed, those let go or gone off included. -/
  armed : List Timer := []
  queue : List (Queued ε) := []
  /-- Whether someone is taking up requests. -/
  draining : Bool := false
  suspended : Option (Suspension ε) := none
  /-- The requests that have been taken up, each with the run as it found it. -/
  taken : List (Queued ε × Run) := []
  /-- What became of the requests that have been processed, for their callers. -/
  finished : List (ε × Except Fault Response) := []
  /-- The responses that have been told of. -/
  heard : List Response := []
  listeners : List Listener := []
  /-- Those on the side of the assistant, who are told of signals. -/
  signalListeners : List (Listener Signal) := []
  signals : List Signal := []
  answers : List Answer := []
  calls : List ServiceCall := []

namespace Session

variable {ε : Type}

def isBusy (s : Session ε) : Bool := s.draining

def isWaiting (s : Session ε) : Bool := s.suspended.isSome

def screenTimers (s : Session ε) : List Timer := s.timers.filter (·.owner == s.run.screenId)

end Session

def Release.apply (timers : List Timer) : Release → List Timer
  | .ofScreen id => timers.filter (·.owner != id)
  | .all => []

end GuidedJourney
