import GuidedJourney.Session.Basic

namespace GuidedJourney.Session

variable {ε : Type} (u : Setup)

def settle (t : Turn) (s : Session ε) : Session ε :=
  { s with run := t.run, timers := t.released.foldl Release.apply s.timers }

/-- Tells the listeners about a response, and those of signals about its signal. A response that cannot
be put into a signal makes none. -/
def notify (r : Response) (s : Session ε) : Session ε :=
  let signal := (Signal.ofResponse s.run.journey r).toOption
  { s with
    heard := s.heard ++ [r]
    listeners := Listener.tellAll r s.listeners
    signalListeners := signal.elim s.signalListeners (Listener.tellAll · s.signalListeners)
    signals := s.signals ++ signal.toList
    answers := s.answers ++ if u.recording then Answer.ofResponse u.bridge r else [] }

/-- Ends a request; listeners do not hear of one that failed. -/
def finish (caller : ε) (outcome : Except Fault Response) (s : Session ε) : Session ε :=
  let s := match outcome with
    | .ok r => s.notify u r
    | .error _ => s
  { s with finished := s.finished ++ [(caller, outcome)] }

def follow (caller : ε) : Work Response → Session ε → Session ε
  | .done t r, s => (s.settle t).finish u caller (.ok r)
  | .failed t f, s => (s.settle t).finish u caller (.error f)
  | .waiting t c resume, s =>
    let s := { s.settle t with calls := s.calls ++ [c] }
    match u.instant? c with
    | some r => follow caller (resume r) s
    | none => { s with suspended := some ⟨caller, c, resume⟩ }

def take (q : Queued ε) (s : Session ε) : Session ε :=
  { s with draining := true, taken := s.taken ++ [(q, s.run)] }.follow u q.caller
    (q.request.process u.rules { run := s.run })

def drain : List (Queued ε) → Session ε → Session ε
  | [], s => { s with queue := [], draining := false }
  | q :: rest, s =>
    let s := s.take u q
    if s.isWaiting then { s with queue := rest } else drain rest s

def submit (caller : ε) (q : Request) (s : Session ε) : Session ε :=
  let queue := s.queue ++ [⟨caller, q⟩]
  if s.isBusy then { s with queue } else s.drain u queue

def reply (r : ServiceReply) (s : Session ε) : Session ε :=
  match s.suspended with
  | none => s
  | some w =>
    let s := { s with suspended := none }.follow u w.caller (w.resume r)
    if s.isWaiting then s else s.drain u s.queue

def nextTimer (event element context : Value) (delay : Option Binary64) (s : Session ε) : Timer :=
  ⟨s.armed.length, event, element, context, s.run.screenId, s.run.visit, delay⟩

/-- Arms a timer for an event, unless the run is over. Nobody but the caller hears of it. -/
def schedule (event element context : Value) (delay : Option Binary64) (s : Session ε) :
    Session ε × Response :=
  let respond (o : Outcome) : Response :=
    { ({ run := s.run } : Turn).response s.run o with eventId := event, elementId := element }
  if s.run.completed then (s, respond .ignored)
  else
    let timer := s.nextTimer event element context delay
    ({ s with timers := s.timers ++ [timer], armed := s.armed ++ [timer] }, respond .scheduled)

def fire (caller : ε) (id : Nat) (s : Session ε) : Session ε :=
  match s.timers.find? (·.id == id) with
  | none => s
  | some timer =>
    let s := { s with timers := s.timers.filter (·.id != id) }
    match timer.request? with
    | none => s
    | some q => s.submit u caller q

def close (s : Session ε) : Session ε := { s with timers := [] }

end GuidedJourney.Session
