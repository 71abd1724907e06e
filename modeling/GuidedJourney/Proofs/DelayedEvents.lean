import GuidedJourney.Proofs.Desk
import GuidedJourney.Proofs.Refusals

namespace GuidedJourney

/-- The response as if its event had not been put off. -/
def Response.undelayed (o : Response) : Response := { o with delayed := false }

def Signal.undelayed (g : Signal) : Signal := { g with delayed := false }

theorem Signal.ofResponse_undelayed (j : Journey) (o : Response) :
    ofResponse j o.undelayed = (ofResponse j o).map undelayed := by
  have hreason : o.undelayed.completionReason = o.completionReason := rfl
  have hprompt : promptOf j o.undelayed = promptOf j o := rfl
  unfold ofResponse
  rw [hreason, hprompt]
  cases o.completionReason.toText? with
  | error f => rfl
  | ok reason =>
      cases (promptOf j o).toText? with
      | error f => rfl
      | ok prompt => rfl

def Listener.amend {α : Type} (f : α → α) (l : Listener α) : Listener α :=
  { l with heard := l.heard.map f }

theorem Listener.tellAll_amend {α : Type} (f : α → α) (a : α) (ls : List (Listener α)) :
    (tellAll a ls).map (amend f) = tellAll (f a) (ls.map (amend f)) := by
  simp [tellAll, tell, amend, Function.comp_def]

namespace Work

variable {α β γ : Type}

def map (f : α → β) (w : Work α) : Work β := w.bind fun t a => .done t (f a)

theorem map_bind (f : β → γ) (w : Work α) (k : Turn → α → Work β) :
    (w.bind k).map f = w.bind fun t a => (k t a).map f := by
  induction w with
  | done t a => rfl
  | failed t e => rfl
  | waiting t c r ih => exact congrArg (Work.waiting t c) (funext ih)

end Work

theorem Timer.request?_ok {t : Timer} {context : Fields} (h : t.context.toFields = .ok context) :
    t.request? =
      some ⟨.event { id := t.event, element := t.element, context, armed := some t }, none⟩ := by
  rw [request?, h]

def EventCall.plain (c : EventCall) : EventCall := { c with values := [], armed := none }

def EventCall.Valueless (c : EventCall) : Prop := c.values = [] ∨ c.element.truthy = false

namespace Act

variable (rules : Rules)

theorem transientOf_valueless (s : Screen) {c : EventCall} (h : c.Valueless) :
    transientOf s c = pure c.context := by
  have hnone : (c.element.truthy && !c.values.isEmpty) = false := by
    rcases h with h | h <;> simp [h]
  unfold transientOf
  rw [if_neg (by simp [hnone])]

theorem eventOutcome_plain {c : EventCall} (h : c.Valueless) {t : Turn}
    (harmed : ∀ a, c.armed = some a → a.visit = t.run.visit) :
    eventOutcome rules c t = eventOutcome rules c.plain t := by
  have hvisit : c.armed.any (·.visit != t.run.visit) = false := by
    cases ha : c.armed with
    | none => rfl
    | some a => simp [harmed a ha]
  have hplain : c.plain.Valueless := .inl rfl
  have happly : ∀ e transient, applyEvent rules c e transient = applyEvent rules c.plain e transient :=
    fun _ _ => rfl
  -- Both ask the same questions of the run, and only a timer of another visit would part them.
  change (if t.run.completed = true then _ else if c.armed.any _ = true then _ else _ : Act Outcome) t =
    (if t.run.completed = true then _ else if c.plain.armed.any _ = true then _ else _ : Act Outcome) t
  rw [hvisit]
  by_cases hover : t.run.completed = true
  · rw [if_pos hover, if_pos hover]
  · rw [if_neg hover, if_neg hover]
    simp only [transientOf_valueless _ h, transientOf_valueless _ hplain, happly]
    rfl

theorem processEvent_plain {c : EventCall} (h : c.Valueless) {t : Turn}
    (harmed : ∀ a, c.armed = some a → a.visit = t.run.visit) :
    (processEvent rules c t).map Response.undelayed =
      (processEvent rules c.plain t).map Response.undelayed := by
  have houtcome := eventOutcome_plain rules (c := { c with id := c.id.orElse (.str "") }) h harmed
  rw [processEvent_apply, processEvent_apply, Work.map_bind, Work.map_bind, houtcome]
  rfl

end Act

/-- Two requests come to the same on a visit, apart from whether an event was put off. -/
def Request.Alike (rules : Rules) (visit : Nat) (q q' : Request) : Prop :=
  ∀ r : Run, r.visit = visit →
    (q.process rules { run := r }).map Response.undelayed =
      (q'.process rules { run := r }).map Response.undelayed

theorem EventCall.alike (rules : Rules) {c c' : EventCall} (h : c.Valueless) (h' : c'.Valueless)
    (hplain : c.plain = c'.plain) {visit : Nat}
    (harmed : ∀ a, c.armed = some a → a.visit = visit)
    (harmed' : ∀ a, c'.armed = some a → a.visit = visit) :
    Request.Alike rules visit ⟨.event c, none⟩ ⟨.event c', none⟩ := by
  intro r hr
  change (Act.processEvent rules c { run := r }).map _ = (Act.processEvent rules c' { run := r }).map _
  rw [Act.processEvent_plain rules h fun a ha => (harmed a ha).trans hr.symm,
    Act.processEvent_plain rules h' fun a ha => (harmed' a ha).trans hr.symm, hplain]

def Suspension.undelayed {ε : Type} (w : Suspension ε) : Suspension ε :=
  { w with resume := fun x => (w.resume x).map Response.undelayed }

namespace Session

variable {ε : Type} (u : Setup)

/-- The session as if no event had been put off: all that has come of it, without the requests as they
came and the timers that have been armed. -/
def undelayed (s : Session ε) : Session ε := { s with
  armed := []
  queue := []
  taken := []
  suspended := s.suspended.map Suspension.undelayed
  finished := s.finished.map fun e => (e.1, e.2.map Response.undelayed)
  heard := s.heard.map Response.undelayed
  listeners := s.listeners.map (Listener.amend Response.undelayed)
  signalListeners := s.signalListeners.map (Listener.amend Signal.undelayed)
  signals := s.signals.map Signal.undelayed }

theorem notify_undelayed (o : Response) (s : Session ε) :
    (s.notify u o).undelayed = s.undelayed.notify u o.undelayed := by
  have hsignal : Signal.ofResponse s.undelayed.run.journey o.undelayed =
      (Signal.ofResponse s.run.journey o).map Signal.undelayed := Signal.ofResponse_undelayed _ o
  have hanswers : Answer.ofResponse u.bridge o.undelayed = Answer.ofResponse u.bridge o := rfl
  simp only [notify, hsignal, hanswers]
  cases Signal.ofResponse s.run.journey o <;>
    simp [undelayed, Listener.tellAll_amend, Except.toOption, Except.map]

theorem finish_undelayed (caller : ε) (o : Except Fault Response) (s : Session ε) :
    (s.finish u caller o).undelayed = s.undelayed.finish u caller (o.map Response.undelayed) := by
  have hadd : ∀ s : Session ε, { s with finished := s.finished ++ [(caller, o)] }.undelayed =
      { s.undelayed with
        finished := s.undelayed.finished ++ [(caller, o.map Response.undelayed)] } := by
    simp [undelayed]
  cases o with
  | error f => exact hadd s
  | ok o =>
      have hfinish := hadd (s.notify u o)
      rw [notify_undelayed] at hfinish
      exact hfinish

/-- Whether an event was put off has no part in what a turn does. -/
theorem follow_undelayed (caller : ε) (w : Work Response) (s : Session ε) :
    (s.follow u caller w).undelayed = s.undelayed.follow u caller (w.map Response.undelayed) := by
  induction w generalizing s with
  | done t o => exact finish_undelayed u caller (.ok o) (s.settle t)
  | failed t f => exact finish_undelayed u caller (.error f) (s.settle t)
  | waiting t c k ih =>
      change _ = s.undelayed.follow u caller (.waiting t c fun x => (k x).map Response.undelayed)
      rw [follow, follow]
      cases u.instant? c with
      | none => rfl
      | some x => exact ih x _

theorem take_undelayed (q : Queued ε) (s : Session ε) :
    (s.take u q).undelayed = { s.undelayed with draining := true }.follow u q.caller
      ((q.request.process u.rules { run := s.run }).map Response.undelayed) :=
  follow_undelayed u q.caller _ _

theorem undelayed_run {x y : Session ε} (h : x.undelayed = y.undelayed) : x.run = y.run :=
  congrArg (fun s => s.run) h

theorem undelayed_isWaiting {x y : Session ε} (h : x.undelayed = y.undelayed) :
    x.isWaiting = y.isWaiting := by
  have hwaiting : x.undelayed.isWaiting = y.undelayed.isWaiting := by rw [h]
  simpa [isWaiting, undelayed] using hwaiting

theorem undelayed_idle {x y : Session ε} (h : x.undelayed = y.undelayed) (hx : x.suspended = none) :
    y.suspended = none := by
  have hwaiting := undelayed_isWaiting h
  simpa [isWaiting, hx] using hwaiting

variable {u} {x y : Session ε}

theorem take_alike (h : x.undelayed = y.undelayed) {caller : ε} {q q' : Request} {visit : Nat}
    (hq : q.Alike u.rules visit q') (hvisit : y.run.visit = visit) :
    (x.take u ⟨caller, q⟩).undelayed = (y.take u ⟨caller, q'⟩).undelayed := by
  rw [take_undelayed, take_undelayed, h, undelayed_run h, hq y.run hvisit]

theorem take_same (h : x.undelayed = y.undelayed) (q : Queued ε) :
    (x.take u q).undelayed = (y.take u q).undelayed :=
  take_alike h (fun _ _ => rfl) rfl

theorem drain_same (queue : List (Queued ε)) (h : x.undelayed = y.undelayed) :
    (x.drain u queue).undelayed = (y.drain u queue).undelayed ∧
      (x.drain u queue).queue = (y.drain u queue).queue := by
  induction queue generalizing x y with
  | nil => exact ⟨congrArg (fun s : Session ε => { s with draining := false }) h, rfl⟩
  | cons q rest ih =>
      have htake := take_same (u := u) h q
      rw [drain_cons, drain_cons, undelayed_isWaiting htake]
      split
      · exact ⟨htake, rfl⟩
      · exact ih htake

theorem resumed_alike (h : x.undelayed = y.undelayed) {w : Suspension ε} (hw : x.suspended = some w)
    (r : ServiceReply) : ∃ w', y.suspended = some w' ∧
      (x.resumed u w r).undelayed = (y.resumed u w' r).undelayed := by
  have hsuspended : x.suspended.map Suspension.undelayed = y.suspended.map Suspension.undelayed :=
    congrArg (fun s => s.suspended) h
  rw [hw] at hsuspended
  obtain ⟨w', hw', hsame⟩ := Option.map_eq_some_iff.mp hsuspended.symm
  have hcaller : w.caller = w'.caller := congrArg (fun w => w.caller) hsame.symm
  have hresume : (w.resume r).map Response.undelayed = (w'.resume r).map Response.undelayed :=
    congrArg (fun w => w.resume r) hsame.symm
  refine ⟨w', hw', ?_⟩
  have hrest : ({ x with suspended := none } : Session ε).undelayed =
      ({ y with suspended := none } : Session ε).undelayed :=
    congrArg (fun s : Session ε => { s with suspended := none }) h
  rw [resumed, resumed, follow_undelayed, follow_undelayed, hrest, hcaller, hresume]

/-- Two sessions keep in step that have got `q` and `q'` as the requests of one place, unless the one of
the second is taken up on another visit. -/
inductive Abreast (visit place : Nat) (q q' : Queued ε) (x y : Session ε) : Prop
  | apart (e : Queued ε × Run) (taken : y.taken[place]? = some e) (left : e.2.visit ≠ visit)
  | before (ahead behind : List (Queued ε)) (same : x.undelayed = y.undelayed)
      (queue : x.queue = ahead ++ q :: behind) (queue' : y.queue = ahead ++ q' :: behind)
      (length : y.taken.length + ahead.length = place)
  | after (same : x.undelayed = y.undelayed) (queue : x.queue = y.queue)

namespace Abreast

variable {visit place : Nat} {caller : ε} {q q' : Request}

theorem drain (hq : q.Alike u.rules visit q') (ahead behind : List (Queued ε))
    (h : x.undelayed = y.undelayed) (hplace : y.taken.length + ahead.length = place) :
    Abreast visit place ⟨caller, q⟩ ⟨caller, q'⟩
      (x.drain u (ahead ++ ⟨caller, q⟩ :: behind)) (y.drain u (ahead ++ ⟨caller, q'⟩ :: behind)) := by
  -- The queues differ at one place only, so all depends on the visit when that place is reached.
  induction ahead generalizing x y with
  | nil =>
      by_cases hvisit : y.run.visit = visit
      · have htake : (x.take u ⟨caller, q⟩).undelayed = (y.take u ⟨caller, q'⟩).undelayed :=
          take_alike h hq hvisit
        rw [List.nil_append, List.nil_append, drain_cons, drain_cons, undelayed_isWaiting htake]
        split
        · exact .after htake rfl
        · obtain ⟨hsame, hqueue⟩ := drain_same behind htake
          exact .after hsame hqueue
      · refine .apart (⟨caller, q'⟩, y.run) ?_ hvisit
        have htake : (y.take u ⟨caller, q'⟩).taken[place]? = some (⟨caller, q'⟩, y.run) := by
          rw [(take_frame u _ y).1, ← hplace]
          exact List.getElem?_concat_length
        rw [List.nil_append, drain_cons]
        split
        · exact htake
        · exact drain_taken u behind htake
  | cons p ahead ih =>
      have htake := take_same (u := u) h p
      have hlength : (y.take u p).taken.length + ahead.length = place := by
        rw [(take_frame u p y).1, ← hplace, List.length_append, List.length_cons, List.length_cons,
          List.length_nil]
        omega
      rw [List.cons_append, List.cons_append, drain_cons, drain_cons, undelayed_isWaiting htake]
      split
      · exact .before ahead behind htake rfl rfl hlength
      · exact ih htake hlength

theorem submit (hq : q.Alike u.rules visit q') (h : x.undelayed = y.undelayed)
    (hqueue : x.queue = y.queue) :
    Abreast visit y.requests.length ⟨caller, q⟩ ⟨caller, q'⟩
      (x.submit u caller q) (y.submit u caller q') := by
  have hbusy : x.isBusy = y.isBusy := congrArg (fun s => s.draining) h
  have hplace : y.taken.length + y.queue.length = y.requests.length := by simp [requests]
  unfold Session.submit
  rw [hbusy, hqueue]
  split
  · exact .before y.queue [] h rfl rfl hplace
  · exact drain hq y.queue [] h hplace

theorem reply (hq : q.Alike u.rules visit q')
    (h : Abreast visit place ⟨caller, q⟩ ⟨caller, q'⟩ x y) (r : ServiceReply) :
    Abreast visit place ⟨caller, q⟩ ⟨caller, q'⟩ (x.reply u r) (y.reply u r) := by
  cases h with
  | apart e taken left => exact .apart e (reply_taken u r taken) left
  | before ahead behind same queue queue' length =>
      cases hw : x.suspended with
      | none =>
          rw [reply_idle u hw, reply_idle u (undelayed_idle same hw)]
          exact .before ahead behind same queue queue' length
      | some w =>
          obtain ⟨w', hw', hsame⟩ := resumed_alike (u := u) same hw r
          obtain ⟨hx, -, -⟩ := resumed_frame u w r x
          obtain ⟨hy, htaken, -⟩ := resumed_frame u w' r y
          rw [reply_waiting u hw, reply_waiting u hw', undelayed_isWaiting hsame, hx, hy, queue, queue']
          rw [← htaken] at length
          split
          · exact .before ahead behind hsame (hx.trans queue) (hy.trans queue') length
          · exact drain hq ahead behind hsame length
  | after same queue =>
      cases hw : x.suspended with
      | none =>
          rw [reply_idle u hw, reply_idle u (undelayed_idle same hw)]
          exact .after same queue
      | some w =>
          obtain ⟨w', hw', hsame⟩ := resumed_alike (u := u) same hw r
          have hqueue : (x.resumed u w r).queue = (y.resumed u w' r).queue := by
            rw [(resumed_frame u w r x).1, (resumed_frame u w' r y).1, queue]
          rw [reply_waiting u hw, reply_waiting u hw', undelayed_isWaiting hsame, hqueue]
          split
          · exact .after hsame hqueue
          · obtain ⟨hdrained, hleft⟩ := drain_same (u := u) (y.resumed u w' r).queue hsame
            exact .after hdrained hleft

end Abreast

/-- A timer that goes off right after it was armed leaves the other timers as they are. -/
theorem fire_scheduled {s : Session ε} (h : Numbered s) (hopen : s.run.completed = false)
    (event element context : Value) (delay : Option Binary64) (caller : ε) {q : Request}
    (hq : (s.nextTimer event element context delay).request? = some q) :
    (s.schedule event element context delay).1.fire u caller s.armed.length =
      { s with armed := s.armed ++ [s.nextTimer event element context delay] }.submit u caller q := by
  have hother : ∀ t ∈ s.timers, t.id ≠ s.armed.length :=
    fun t ht => Nat.ne_of_lt (h.bound t (h.pending t ht))
  have hfind : (s.timers ++ [s.nextTimer event element context delay]).find?
      (·.id == s.armed.length) = some (s.nextTimer event element context delay) := by
    rw [List.find?_append, List.find?_eq_none.mpr fun t ht => by simpa using hother t ht]
    simp [nextTimer]
  have hrest : (s.timers ++ [s.nextTimer event element context delay]).filter
      (·.id != s.armed.length) = s.timers := by
    rw [List.filter_append, List.filter_eq_self.mpr fun t ht => by simpa using hother t ht]
    simp [nextTimer]
  rcases schedule_cases event element context delay s with ⟨hover, -⟩ | ⟨-, he⟩
  · rw [hopen] at hover
    cases hover
  · rw [he]
    simp only [fire, hfind, hrest, hq]

end Session

namespace Tour

def volume : Element where
  declared := .str "circularStepper"
  state := [("id", .str "volume")]
  style := []
  conditions := []
  events := [event "turn" [.update [] .module [("turned", .bool true)]]]

def console : Section where
  id := "console"
  title := .null
  position := .body
  layout := .stack
  direction := .vertical
  scrollable := false
  elements := [volume]

def stepper : Run := { run with journey := { journey with agents := [{ guide with
  screens := [{ hall with sections := [console] }] }] } }

end Tour

namespace Desk

variable (u : Setup)

theorem play_abreast {visit place : Nat} {caller : Caller} {q q' : Request}
    (hq : q.Alike u.rules visit q') {d d' : Desk} (rs : List ServiceReply)
    (h : Session.Abreast visit place ⟨caller, q⟩ ⟨caller, q'⟩ d.session d'.session) :
    Session.Abreast visit place ⟨caller, q⟩ ⟨caller, q'⟩ (d.play u (rs.map .reply)).session
      (d'.play u (rs.map .reply)).session := by
  induction rs generalizing d d' with
  | nil => exact h
  | cons r rs ih => exact ih (h.reply hq r)

theorem step_dispatch {event element context values delay : Value} {fields entries : Fields}
    (hdelay : delay.isPositive = .ok false) (hcontext : context.toFields = .ok fields)
    (hvalues : values.toFields = .ok entries) (ticket : Nat) (d : Desk) :
    (d.step u (.call ticket (.dispatch event element context values delay))).session =
      d.session.submit u ⟨ticket, .none⟩
        ⟨.event { id := event, element, context := fields, values := entries }, none⟩ := by
  change (d.session.dispatch u ticket event element context values delay).1 = _
  rw [Session.dispatch, hdelay, hcontext, hvalues]
  rfl

theorem step_delayed {event element context values delay : Value} {fields : Fields}
    (hdelay : delay.isPositive = .ok true) (hcontext : context.toFields = .ok fields) (ticket : Nat)
    {d : Desk} (h : Session.Numbered d.session) (hopen : d.session.run.completed = false) :
    let t := d.session.nextTimer event element context delay.seconds?
    ((d.step u (.call ticket (.dispatch event element context values delay))).step u
      (.fire ticket d.session.armed.length)).session =
      { d.session with armed := d.session.armed ++ [t] }.submit u ⟨ticket, .none⟩
        ⟨.event { id := event, element, context := fields, armed := some t }, none⟩ := by
  change (d.session.dispatch u ticket event element context values delay).1.fire u ⟨ticket, .none⟩
    d.session.armed.length = _
  rw [Session.dispatch, hdelay]
  exact Session.fire_scheduled h hopen event element context _ _ (Timer.request?_ok hcontext)

/-- Whatever has happened to a run that is not over: if an event is put off and its timer goes off
before anything else happens, and no request before it leaves the visit, then all that comes of it, also
over calls of services, is what comes of the event when it is asked for at that moment without values
for its element, apart from the note that it was put off. Values given to the element along with an
event that is put off play no part. -/
theorem play_delayed (r : Run) (ls : List Listener) (ms : List Deed) (ticket : Nat)
    (event element context values delay given : Value) {fields entries : Fields}
    (hdelay : delay.isPositive = .ok true) (hcontext : context.toFields = .ok fields)
    (hgiven : given.toFields = .ok entries) (hvalueless : entries = [] ∨ element.truthy = false)
    (rs : List ServiceReply) :
    let d := (fresh r ls).play u ms
    let later := d.play u ([.call ticket (.dispatch event element context values delay),
      .fire ticket d.session.armed.length] ++ rs.map .reply)
    let now := d.play u (.call ticket (.dispatch event element context given .null) :: rs.map .reply)
    d.session.run.completed = false →
    (∀ e, now.session.taken[d.session.requests.length]? = some e →
      e.2.visit = d.session.run.visit) →
    later.session.undelayed = now.session.undelayed := by
  intro d later now hopen hstay
  have hattended : Session.Attended u ls d.session := play_attended u _ ms (.fresh u r ls)
  let t := d.session.nextTimer event element context delay.seconds?
  let c : EventCall := { id := event, element, context := fields, armed := some t }
  let c' : EventCall := { id := event, element, context := fields, values := entries }
  have halike : Request.Alike u.rules d.session.run.visit ⟨.event c, none⟩ ⟨.event c', none⟩ := by
    have hc : c.Valueless := .inl rfl
    have hc' : c'.Valueless := hvalueless
    refine EventCall.alike u.rules hc hc' rfl (fun t' ht => ?_) nofun
    rw [← Option.some.inj ht]
    rfl
  have hsubmitted : Session.Abreast d.session.run.visit d.session.requests.length
      ⟨⟨ticket, .none⟩, ⟨.event c, none⟩⟩ ⟨⟨ticket, .none⟩, ⟨.event c', none⟩⟩
      ((d.step u (.call ticket (.dispatch event element context values delay))).step u
        (.fire ticket d.session.armed.length)).session
      (d.step u (.call ticket (.dispatch event element context given .null))).session := by
    rw [step_delayed u hdelay hcontext ticket hattended.numbered hopen,
      step_dispatch u rfl hcontext hgiven]
    exact .submit halike rfl rfl
  cases play_abreast u halike rs hsubmitted with
  | apart e taken left => exact absurd (hstay e taken) left
  | before _ _ same => exact same
  | after same => exact same

theorem play_delayed_tour :
    let d := (fresh Tour.run []).play Tour.setup [.call 0 (.demand .start), Tour.ask "ask" 1]
    let later := d.play Tour.setup [
      .call 2 (.dispatch (.str "walk") .null .null .null (.int 1)), .fire 2 0, .reply (.success .null)]
    let now := d.play Tour.setup [
      .call 2 (.dispatch (.str "walk") .null .null .null .null), .reply (.success .null)]
    d.session.isBusy = true ∧ later.session.undelayed = now.session.undelayed ∧
      later.session.run.screenId = some "garden" ∧ later.session.heard.getLast?.any Response.delayed := by
  intro d later now
  have hstay : (now.session.taken[2]?).all (·.2.visit = d.session.run.visit) = true := by
    decide +kernel
  refine ⟨by decide +kernel, ?_, by decide +kernel, by decide +kernel⟩
  exact play_delayed Tour.setup Tour.run [] [.call 0 (.demand .start), Tour.ask "ask" 1] 2
    (.str "walk") .null .null .null (.int 1) .null rfl rfl rfl (.inl rfl) [.success .null]
    (by decide +kernel) fun e he => by
      change now.session.taken[2]? = some e at he
      rw [he] at hstay
      simpa using hstay

/-- What a user has set a stepper to is lost when the event that comes with it is put off. -/
theorem delayed_values_lost : ¬ ∀ (u : Setup) (r : Run) (ls : List Listener) (ms : List Deed)
    (ticket : Nat) (event element context values delay : Value) (fields entries : Fields),
    delay.isPositive = .ok true → context.toFields = .ok fields → values.toFields = .ok entries →
    let d := (fresh r ls).play u ms
    let later := d.play u [.call ticket (.dispatch event element context values delay),
      .fire ticket d.session.armed.length]
    let now := d.play u [.call ticket (.dispatch event element context values .null)]
    d.session.isBusy = false → d.session.run.completed = false →
      later.session.run.interactions = now.session.run.interactions := by
  intro h
  have hsame := h Tour.setup Tour.stepper [] [.call 0 (.demand .start)] 1 (.str "turn")
    (.str "volume") .null (.obj [("value", .int 3)]) (.int 1) _ _ rfl rfl rfl (by decide +kernel)
    (by decide +kernel)
  have hlength := congrArg List.length hsame
  revert hlength
  decide +kernel

end Desk

end GuidedJourney
