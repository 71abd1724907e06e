import GuidedJourney.Host.Basic

namespace GuidedJourney

inductive Operation where
  | call (session : Nat) (c : Call)
  | sleep (delay : Binary64)
  | start (r : Run)
  | finish (id : String) (reason : Value)
  | shutdown (ids : List String)

/-- What is left to be done for a ticket when its call is over. -/
inductive Sequel where
  | register (session : Nat)
  | remove (id : String) (session : Nat)
  | shutdown (session : Nat) (id : String) (rest : List String)

inductive Job where
  | begin (ticket : Nat) (op : Operation)
  | resume (session : Nat) (c : Caller) (outcome : Except Fault Response)
  | reply (session : Nat) (r : ServiceReply)
  | arm (session : Nat) (timer : Nat)
  | fire (session : Nat) (timer : Nat)
  | wake (ticket : Nat)

structure Sleeper where
  due : Binary64
  job : Job

/-- Whoever processes the requests of a session; it goes on itself only when none is left, also if its
own request is done earlier. -/
structure Drainer where
  session : Nat
  ticket : Nat
  held : Option (Caller × Except Fault Response) := none

abbrev Upshot := Except Refusal (Option Response)

structure World where
  host : Host
  clock : Binary64 := .zero
  ready : List Job := []
  /-- What falls due later, in the order in which it was put off. -/
  sleepers : List Sleeper := []
  drainers : List Drainer := []
  sequels : List (Nat × Sequel) := []
  tickets : Nat := 0
  results : List (Nat × Upshot) := []

namespace World

def push (j : Job) (w : World) : World := { w with ready := w.ready ++ [j] }

def pushFront (j : Job) (w : World) : World := { w with ready := j :: w.ready }

/-- Does a job after a delay; without one it comes after all that is ready. -/
def later (delay : Binary64) (j : Job) (w : World) : World :=
  if delay.le .zero then w.push j
  else { w with sleepers := w.sleepers ++ [⟨w.clock.add delay, j⟩] }

def newTicket (w : World) : World × Nat := ({ w with tickets := w.tickets + 1 }, w.tickets)

def awaitService (i : Nat) (before after : Session Caller) (w : World) : World :=
  if after.calls.length = before.calls.length then w
  else match after.suspended, w.host.setup.services with
    | some s, some serve =>
      let answer := serve s.call
      w.later (answer.delay.getD .zero) (.reply i answer.reply)
    | _, _ => w

/-- Lets callers go on whose requests are done; the one that processes the requests goes on first, and
not before there is none left. -/
def release (i ticket : Nat) (before after : Session Caller) (w : World) : World :=
  let drainer := (w.drainers.find? (·.session == i)).getD { session := i, ticket }
  let done := after.finished.drop before.finished.length
  let isOwn (e : Caller × Except Fault Response) : Bool := e.1.ticket == drainer.ticket
  let held := (done.find? isOwn).or drainer.held
  let resume (e : Caller × Except Fault Response) : Job := .resume i e.1 e.2
  let drainers := w.drainers.filter (·.session != i)
  let w := { w with ready := w.ready ++ (done.filter (!isOwn ·)).map resume }
  if after.isBusy then { w with drainers := { drainer with held } :: drainers }
  else { w with drainers, ready := (held.map resume).toList ++ w.ready }

def armTimers (i : Nat) (before after : Session Caller) (w : World) : World :=
  { w with ready := w.ready ++
      (after.armed.drop before.armed.length).map fun t => .arm i t.id }

def result (ticket : Nat) (u : Upshot) (w : World) : World :=
  { w with results := (ticket, u) :: w.results }

def result? (w : World) (ticket : Nat) : Option Upshot := w.results.lookup ticket

def setHost (h : Host) (w : World) : World := { w with host := h }

def part (ticket : Nat) (id : String) (i : Nat) (goOn : World → World) (w : World) : World :=
  let w := w.setHost (w.host.close i)
  match w.host.find id with
  | .error e => w.result ticket (.error e)
  | .ok _ => goOn (w.setHost (w.host.remove id))

def conclude (ticket : Nat) (outcome : Except Fault Response) (w : World) : World :=
  match outcome, w.sequels.lookup ticket with
  | .error f, _ => w.result ticket (.error (.fault f))
  | .ok r, none => w.result ticket (.ok (some r))
  | .ok r, some (.register i) => (w.setHost (w.host.register i)).result ticket (.ok (some r))
  | .ok r, some (.remove id i) => w.part ticket id i fun w => w.result ticket (.ok (some r))
  | .ok _, some (.shutdown i id rest) =>
    w.part ticket id i fun w => w.pushFront (.begin ticket (.shutdown rest))

def act (i ticket : Nat) (f : Session Caller → CallStep) (w : World) : World :=
  match w.host.session? i with
  | none => w
  | some before =>
    let (after, outcome) := f before
    let w := { w with host := w.host.setSession i after }
    let w := (w.armTimers i before after).release i ticket before after
    let w := w.awaitService i before after
    match outcome with
    | some o => w.conclude ticket o
    | none => w

def terminate (ticket : Nat) (id : String) (reason : Value) (sequel : Nat → Sequel) (w : World) :
    World :=
  match w.host.find id with
  | .error e => w.result ticket (.error e)
  | .ok i =>
    let w := { w with sequels := (ticket, sequel i) :: w.sequels }
    w.act i ticket (Session.ask w.host.setup ticket .none ⟨.terminate reason false, none⟩)

def begin (ticket : Nat) (op : Operation) (w : World) : World :=
  match op with
  | .call i c => w.act i ticket (Session.begin w.host.setup ticket c)
  | .sleep delay => w.later delay (.wake ticket)
  | .start r =>
    let (host, i) := w.host.addSession r
    let w := { w with host, sequels := (ticket, .register i) :: w.sequels }
    w.act i ticket (Session.ask w.host.setup ticket .none ⟨.start, none⟩)
  | .finish id reason => w.terminate ticket id reason (.remove id)
  | .shutdown [] => w.result ticket (.ok none)
  | .shutdown (id :: rest) => w.terminate ticket id (.str "shutdown") fun i => .shutdown i id rest

def arm (i timer : Nat) (w : World) : World :=
  match (w.host.session? i).bind fun s => s.timers.find? (·.id == timer) with
  | some ⟨_, _, _, _, _, _, some delay⟩ => w.later delay (.fire i timer)
  | _ => w

def perform (j : Job) (w : World) : World :=
  match j with
  | .begin ticket op => w.begin ticket op
  | .resume i c outcome => w.act i c.ticket (Session.resume w.host.setup c outcome)
  | .reply i r => w.act i 0 fun s => (s.reply w.host.setup r, none)
  | .arm i timer => w.arm i timer
  | .fire i timer =>
    let (w, ticket) := w.newTicket
    w.act i ticket fun s => (s.fire w.host.setup ⟨ticket, .none⟩ timer, none)
  | .wake ticket => w.result ticket (.ok none)

/-- What is not due later than now is due, also if it is due at no time that can be told. -/
def isDue (now : Binary64) (x : Sleeper) : Bool := !now.lt x.due

def work (w : World) : World :=
  match w.ready with
  | [] => w
  | j :: rest => { w with ready := rest }.perform j

def pass (now : Binary64) (w : World) : World := if w.clock.le now then { w with clock := now } else w

-- What is due need not go off at once, nor in order of time: timers that are due together have no
-- order, and one that is due at no time that can be told may hold up those behind it.
def rise (n : Nat) (w : World) : World :=
  match w.sleepers[n]? with
  | some x =>
    if isDue w.clock x then { w with ready := w.ready ++ [x.job], sleepers := w.sleepers.eraseIdx n }
    else w
  | none => w

/-- The sleeper to go off next, if one is due: one that no other is due before, and of these the one that
was put off first. -/
def nextDue? (w : World) : Option Nat :=
  w.sleepers.findIdx? fun x => isDue w.clock x && w.sleepers.all fun y => !y.due.lt x.due

def nextMoment? (w : World) : Option Binary64 :=
  w.sleepers.foldl (fun next x => next.elim x.due fun due => if x.due.lt due then x.due else due) none

def settle : Nat → World → World
  | 0, w => w
  | n + 1, w => match w.nextDue?, w.ready with
    | some k, _ => settle n (w.rise k)
    | none, _ :: _ => settle n w.work
    | none, [] => w

def runUntil (ticket : Nat) : Nat → World → World
  | 0, w => w
  | n + 1, w =>
    if (w.result? ticket).isSome then w
    else match w.nextDue?, w.ready, w.nextMoment? with
      | some k, _, _ => runUntil ticket n (w.rise k)
      | none, _ :: _, _ => runUntil ticket n w.work
      | none, [], some due => runUntil ticket n (w.pass (w.clock.max due))
      | none, [], none => w

/-- A simulation that has not settled after so many steps is broken off. -/
def longest : Nat := 1000000

def await (ticket : Nat) (w : World) : World × Option Upshot :=
  let w := (w.runUntil ticket longest).settle longest
  (w, w.result? ticket)

def spawn (op : Operation) (w : World) : World × Nat :=
  let (w, ticket) := w.newTicket
  ((w.push (.begin ticket op)).settle longest, ticket)

def run (op : Operation) (w : World) : World × Option Upshot :=
  let (w, ticket) := w.newTicket
  (w.push (.begin ticket op)).await ticket

end World

end GuidedJourney
