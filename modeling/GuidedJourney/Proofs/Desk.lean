import GuidedJourney.Proofs.SessionCourse
import GuidedJourney.Proofs.TimerRequests
import GuidedJourney.Proofs.ValidJourney
import GuidedJourney.Session.Call

namespace GuidedJourney

def Call.direct : Call → Call
  | .demand d => .demand (Request.direct ⟨d, none⟩).demand
  | c => c

/-- The tool whose call is counted with the request that a call hands in. -/
def Call.tally? (u : Setup) : Call → Option String
  | .tool name _ => if u.bridge.trackToolCalls then some name else none
  | _ => none

def Setup.forwards (u : Setup) : Except Fault Response → List Answer
  | .ok r => if u.recording then Answer.ofResponse u.bridge r else []
  | .error _ => []

/-- What may happen to a session with callers. -/
inductive Deed where
  | call (ticket : Nat) (c : Call)
  /-- The caller of the request that was finished at this place goes on. -/
  | goOn (place : Nat)
  | reply (r : ServiceReply)
  | fire (ticket timer : Nat)
  | close

/-- A session with the places of the requests whose callers have gone on, and the answers that have
been recorded, each with the place of its request. -/
structure Desk where
  session : Session Caller
  gone : List Nat := []
  records : List (Nat × Answer) := []

def Deed.tally? (u : Setup) : Deed → Option String
  | .call _ c => c.tally? u
  | _ => none

namespace Desk

variable (u : Setup)

def fresh (r : Run) (ls : List Listener) : Desk := { session := { run := r, listeners := ls } }

def waiting? (d : Desk) (place : Nat) : Option (Caller × Except Fault Response) :=
  if d.gone.contains place then none else d.session.finished[place]?

/-- The answers that are forwarded of the requests finished from the place `n` on. -/
def forwarded (s : Session Caller) (n : Nat) : List (Nat × Answer) :=
  (s.finished.zipIdx.drop n).flatMap fun e => (u.forwards e.1.2).map (e.2, ·)

def own (c : Caller) (o : Except Fault Response) : List Answer :=
  match c.errand, o with
  | .record input, .ok r =>
    if u.recording && !r.isNoop then [input.answer u.bridge r] else []
  | _, _ => []

def said (d : Desk) : Deed → List (Nat × Answer)
  | .goOn place =>
    match d.waiting? place with
    | none => []
    | some (c, o) => (own u c o).map (place, ·)
  | _ => []

def turnTo (d : Desk) (s : Session Caller) (as : List (Nat × Answer)) : Desk :=
  { d with session := s, records := d.records ++ as ++ forwarded u s d.session.finished.length }

def step (d : Desk) : Deed → Desk
  | .call ticket c => d.turnTo u (d.session.begin u ticket c.direct).1 []
  | .goOn place =>
    match d.waiting? place with
    | none => d
    | some (c, o) =>
      { d.turnTo u (d.session.resume u c o).1 ((own u c o).map (place, ·)) with
        gone := place :: d.gone }
  | .reply r => d.turnTo u (d.session.reply u r) []
  | .fire ticket timer => d.turnTo u (d.session.fire u ⟨ticket, .none⟩ timer) []
  | .close => d.turnTo u d.session.close []

def play (d : Desk) : List Deed → Desk
  | [] => d
  | m :: ms => (d.step u m).play ms

end Desk

def Errand.Fits (e : Errand) (q : Request) : Prop :=
  match e with
  | .arm .. | .record _ => ∃ label writes, q.demand = .write label writes
  | _ => True

def Errand.Suits (u : Setup) (e : Errand) (d : Demand) : Prop :=
  match e with
  | .arm .. => ∃ label, d = .write label []
  | .record _ => ∃ writes, d = .write (.str u.bridge.recordInputTool) writes
  | _ => True

theorem Errand.Suits.fits {u : Setup} {e : Errand} {q : Request} (h : e.Suits u q.demand) :
    e.Fits q := by
  cases e with
  | arm event delay context =>
      obtain ⟨label, hd⟩ := h
      exact ⟨label, [], hd⟩
  | record input => exact ⟨_, h⟩
  | _ => trivial

/-- A request of a caller with the right errand and the given ticket, by which the given tool call is
counted, and which no timer has made. -/
structure Queued.Asked (u : Setup) (ticket : Nat) (tally : Option String) (q : Queued Caller) :
    Prop where
  direct : q.request.direct = q.request
  tally : q.request.tally = tally
  suits : q.caller.errand.Suits u q.request.demand
  ticket : q.caller.ticket = ticket

def Input.Fits : Input Caller → Prop
  | .submit caller q => caller.errand.Fits q.direct
  | .fire caller _ => caller.errand = .none
  | _ => True

namespace Session

variable (u : Setup)

def noted (s : Session Caller) (as : List Answer) : Session Caller :=
  { s with answers := s.answers ++ as }

def Plays (s : Session Caller) (step : CallStep) : Prop :=
  ∃ is, step.1 = s.play u is ∧ ∀ i ∈ is, i.Fits

/-- What a step of a call can come to: nothing, an event that is put off, or a request that is handed
in and has the property `P`. -/
inductive Takes (P : Queued Caller → Prop) (s : Session Caller) : CallStep → Prop
  | ended (o : Except Fault Response) : Takes P s (ended o s)
  | scheduled (event element context : Value) (delay : Option Binary64)
      (o : Except Fault Response) : Takes P s (ended o (s.schedule event element context delay).1)
  | asked (ticket : Nat) (errand : Errand) {q : Request} (h : P ⟨⟨ticket, errand⟩, q⟩) :
      Takes P s (s.ask u ticket errand q)

variable {u} in
theorem Takes.plays {ticket : Nat} {tally : Option String} {s : Session Caller} {x : CallStep}
    (h : Takes u (Queued.Asked u ticket tally) s x) : Plays u s x := by
  cases h with
  | ended o => exact ⟨[], rfl, by simp⟩
  | scheduled event element context delay o =>
      exact ⟨[.schedule event element context delay], rfl, by simp [Input.Fits]⟩
  | @asked ticket errand q h =>
      have hdirect : q.direct = q := h.direct
      exact ⟨[.submit ⟨ticket, errand⟩ q], by simp [play, apply, ask, hdirect],
        by simpa [Input.Fits, hdirect] using h.suits.fits⟩

theorem ite_takes {P : Queued Caller → Prop} {c : Prop} [Decidable c] {x y : CallStep}
    {s : Session Caller} (hx : Takes u P s x) (hy : Takes u P s y) :
    Takes u P s (if c then x else y) := by
  split
  · exact hx
  · exact hy

theorem dispatch_takes (ticket : Nat) (event element context values delay : Value)
    (s : Session Caller) : Takes u (Queued.Asked u ticket none) s
      (s.dispatch u ticket event element context values delay) := by
  unfold dispatch
  split
  · exact .ended _
  · exact .scheduled _ _ _ _ _
  · split
    · exact .ended _
    · exact .ended _
    · exact .asked ticket _ ⟨rfl, rfl, trivial, rfl⟩

theorem triggerEvent_takes (ticket : Nat) (tally : Option String) (args : Fields)
    (s : Session Caller) : Takes u (Queued.Asked u ticket tally) s
      (s.triggerEvent u ticket tally args) := by
  unfold triggerEvent
  cases (Fields.get args "eventId").printedOrEmpty with
  | error f => exact .ended _
  | ok event =>
      cases (Fields.get args "delay").delay with
      | error f => exact .ended _
      | ok given =>
          refine ite_takes u (ite_takes u ?_ ?_) ?_
          · exact .asked ticket _ ⟨rfl, rfl, ⟨_, rfl⟩, rfl⟩
          · exact .scheduled _ _ _ _ _
          · refine .asked ticket _ ⟨rfl, rfl, ?_, rfl⟩
            split <;> trivial

theorem recordInput_takes (ticket : Nat) (tally : Option String) (args : Fields)
    (s : Session Caller) : Takes u (Queued.Asked u ticket tally) s
      (s.recordInput u ticket tally args) := by
  unfold recordInput
  dsimp only
  cases (RecordedInput.ofFields args).writes u.timestamp with
  | error f => exact .ended _
  | ok writes => exact .asked ticket _ ⟨rfl, rfl, ⟨_, rfl⟩, rfl⟩

theorem endCall_takes (ticket : Nat) (tally : Option String) (args : Fields)
    (s : Session Caller) : Takes u (Queued.Asked u ticket tally) s
      (s.endCall u ticket tally args) := by
  unfold endCall
  cases feedbackEvent u args with
  | error f => exact .ended _
  | ok event => exact .asked ticket _ ⟨rfl, rfl, trivial, rfl⟩

theorem callTool_takes (ticket : Nat) (name : String) (args : Value) (s : Session Caller) :
    Takes u (Queued.Asked u ticket ((Call.tool name args).tally? u)) s
      (s.callTool u ticket name args) := by
  unfold callTool
  cases args.toFields with
  | error f => exact .ended _
  | ok args =>
      refine ite_takes u (triggerEvent_takes u ticket _ args s)
        (ite_takes u (recordInput_takes u ticket _ args s)
          (ite_takes u (endCall_takes u ticket _ args s) ?_))
      exact .asked ticket _ ⟨rfl, rfl, trivial, rfl⟩

theorem begin_takes (ticket : Nat) (c : Call) (s : Session Caller) :
    Takes u (Queued.Asked u ticket (c.tally? u)) s (s.begin u ticket c.direct) := by
  cases c with
  | dispatch event element context values delay => exact dispatch_takes u ticket _ _ _ _ _ s
  | schedule event element context delay => exact .scheduled _ _ _ _ _
  | tool name args => exact callTool_takes u ticket name args s
  | demand d =>
      refine .asked ticket _ ⟨?_, rfl, trivial, rfl⟩
      cases d <;> rfl

theorem Takes.requests {P : Queued Caller → Prop} {ls : List Listener} {s : Session Caller}
    {x : CallStep} (h : Takes u P s x) (ho : InOrder u ls s) :
    ∃ new, x.1.requests = s.requests ++ new ∧ new.length ≤ 1 ∧ ∀ q ∈ new, P q := by
  cases h with
  | ended o => exact ⟨[], (List.append_nil _).symm, by simp, by simp⟩
  | scheduled event element context delay o =>
      refine ⟨[], ?_, by simp, by simp⟩
      change (s.schedule event element context delay).1.requests = s.requests ++ []
      rcases schedule_cases event element context delay s with ⟨-, he⟩ | ⟨-, he⟩
      · simp [he]
      · simp [he, Session.requests]
  | asked ticket errand h => exact ⟨_, (ho.submit u _ _).2, by simp, by simpa using h⟩

theorem InOrder.noted {ls : List Listener} {s : Session Caller} (h : InOrder u ls s)
    (as : List Answer) : InOrder u ls (s.noted as) := by
  cases h with
  | idle hp hs hq hd => exact .idle ⟨hp.results, hp.heard, hp.listeners⟩ hs hq hd
  | waiting w t hp hs hof hd => exact .waiting w t ⟨hp.results, hp.heard, hp.listeners⟩ hs hof hd

theorem Holds.noted {I : Run → List Timer → Prop} {first : List (Queued Caller × Run)}
    {s : Session Caller} (h : Holds I first s) (as : List Answer) : Holds I first (s.noted as) :=
  ⟨h.now, h.taken, h.onward, h.waiting, h.resting⟩

variable {u} in
theorem Traced.noted {r₀ : Run} {s : Session Caller} (h : Traced u r₀ s) (as : List Answer) :
    Traced u r₀ (s.noted as) := by
  cases h with
  | through hc hs => exact .through hc hs
  | waiting ps q r t c k hc ht hw hr hs => exact .waiting ps q r t c k hc ht hw hr hs

theorem noted_nil (s : Session Caller) : s.noted [] = s := by
  rw [noted, List.append_nil]

variable {u} in
theorem Takes.unnoted {P : Queued Caller → Prop} {s : Session Caller} {x : CallStep}
    (h : Takes u P s x) : Takes u P (s.noted []) x := by
  rw [noted_nil]
  exact h

theorem recordAnswer_noted (a : Answer) (s : Session Caller) :
    s.recordAnswer u a = s.noted (if u.recording then [a] else []) := by
  unfold recordAnswer
  split
  · rfl
  · exact (noted_nil s).symm

theorem recorded_takes {P : Queued Caller → Prop} (ticket : Nat) (input : RecordedInput)
    (r : Response) (s : Session Caller) :
    Takes u P (s.noted (Desk.own u ⟨ticket, .record input⟩ (.ok r))) (s.recorded u input r) := by
  unfold recorded
  cases hn : r.isNoop with
  | true =>
      have hown : Desk.own u ⟨ticket, .record input⟩ (.ok r) = [] := by simp [Desk.own, hn]
      rw [hown]
      exact (Takes.ended _).unnoted
  | false =>
      have hown : s.recordAnswer u (input.answer u.bridge r) =
          s.noted (Desk.own u ⟨ticket, .record input⟩ (.ok r)) := by
        rw [recordAnswer_noted]
        simp [Desk.own, hn]
      rw [if_neg (by simp), ← hown]
      refine ite_takes u ?_ (.ended _)
      cases input.delay.delay with
      | error f => exact .ended _
      | ok given =>
          cases input.nextEvent.printed with
          | error f => exact .ended _
          | ok event => exact .scheduled _ _ _ _ _

theorem resume_takes (c : Caller) (o : Except Fault Response) (s : Session Caller) :
    Takes u (Queued.Asked u c.ticket none) (s.noted (Desk.own u c o)) (s.resume u c o) := by
  rcases c with ⟨ticket, errand⟩
  cases o with
  | error f =>
      have hown : Desk.own u ⟨ticket, errand⟩ (.error f) = [] := by cases errand <;> rfl
      have hended : s.resume u ⟨ticket, errand⟩ (.error f) = ended (.error f) s := by
        cases errand <;> rfl
      rw [hown, hended]
      exact (Takes.ended _).unnoted
  | ok r =>
      cases errand with
      | record input => exact recorded_takes u ticket input r s
      | none => exact (Takes.ended _).unnoted
      | nameless => exact (Takes.ended _).unnoted
      | arm event delay context => exact (Takes.scheduled _ _ _ _ _).unnoted
      | hungUp feedback => exact (Takes.ended _).unnoted
      | hangUp reason => exact (Takes.asked ticket _ ⟨rfl, rfl, trivial, rfl⟩).unnoted

/-- What holds of a session whose callers see to their calls. -/
structure Attended (ls : List Listener) (s : Session Caller) : Prop where
  inOrder : InOrder u ls s
  holds : Holds (fun _ _ => True) [] s
  numbered : Numbered s
  fits : ∀ q ∈ s.requests, q.caller.errand.Fits q.request

theorem Attended.fresh (r : Run) (ls : List Listener) :
    Attended u ls ({ run := r, listeners := ls } : Session Caller) :=
  ⟨.fresh u r ls, .fresh r ls trivial, .fresh r ls, by simp [requests]⟩

theorem Attended.noted {ls : List Listener} {s : Session Caller} (h : Attended u ls s)
    (as : List Answer) : Attended u ls (s.noted as) :=
  ⟨h.inOrder.noted u as, h.holds.noted as,
    ⟨h.numbered.bound, h.numbered.pending, h.numbered.own, h.numbered.once, h.numbered.apart⟩, h.fits⟩

theorem true_lasting : Lasting fun _ _ => True := ⟨fun _ _ _ _ _ => trivial, by simp, by simp⟩

theorem Attended.apply {ls : List Listener} {s : Session Caller} (h : Attended u ls s)
    {i : Input Caller} (hi : i.Fits) : Attended u ls (s.apply u i) := by
  obtain ⟨hinOrder, hrequests⟩ := h.inOrder.apply u i
  refine ⟨hinOrder, h.holds.apply u true_lasting i, h.numbered.apply u h.holds h.inOrder i, ?_⟩
  intro q hq
  change q ∈ (s.apply u i).taken.map Prod.fst ++ (s.apply u i).queue at hq
  rw [hrequests] at hq
  rcases List.mem_append.mp hq with hq | hq
  · exact h.fits q hq
  · cases i with
    | submit caller q' =>
        obtain rfl : q = ⟨caller, q'.direct⟩ := by simpa [arrival?] using hq
        exact hi
    | fire caller timer =>
        have hcaller : q.caller = caller := by
          obtain ⟨t, -, hq⟩ := Option.bind_eq_some_iff.mp (Option.mem_toList.mp hq)
          obtain ⟨q', -, rfl⟩ := Option.map_eq_some_iff.mp hq
          rfl
        rw [hcaller, hi]
        trivial
    | reply r => simp [arrival?] at hq
    | schedule event element context delay => simp [arrival?] at hq
    | close => simp [arrival?] at hq

end Session

namespace Desk

variable (u : Setup)

theorem waiting?_eq_some {d : Desk} {place : Nat} {e : Caller × Except Fault Response}
    (h : d.waiting? place = some e) : d.session.finished[place]? = some e := by
  unfold waiting? at h
  split at h
  · cases h
  · exact h

theorem said_answers {d : Desk} {place : Nat} {c : Caller} {o : Except Fault Response}
    (h : d.waiting? place = some (c, o)) : (d.said u (.goOn place)).map Prod.snd = own u c o := by
  have hsaid : d.said u (.goOn place) = (own u c o).map (place, ·) := by simp only [said, h]
  rw [hsaid, List.map_map]
  exact List.map_id _

theorem step_play (d : Desk) (m : Deed) : ∃ is, (d.step u m).session =
    (d.session.noted ((d.said u m).map Prod.snd)).play u is ∧ ∀ i ∈ is, i.Fits := by
  have hone : ∀ i : Input Caller, i.Fits →
      ∃ is, d.session.apply u i = (d.session.noted []).play u is ∧ ∀ i ∈ is, i.Fits :=
    fun i hi => ⟨[i], by rw [Session.noted_nil]; rfl, by simpa using hi⟩
  cases m with
  | call ticket c => exact (Session.begin_takes u ticket c d.session).unnoted.plays
  | goOn place =>
      cases hw : d.waiting? place with
      | none =>
          have hsaid : d.said u (.goOn place) = [] := by simp only [said, hw]
          rw [step, hw, hsaid]
          exact ⟨[], (Session.noted_nil _).symm, by simp⟩
      | some e =>
          rw [step, hw, said_answers u hw]
          exact (Session.resume_takes u e.1 e.2 d.session).plays
  | reply r => exact hone (.reply r) trivial
  | fire ticket timer => exact hone (.fire ⟨ticket, .none⟩ timer) rfl
  | close => exact hone .close trivial

theorem step_keeps {P : Session Caller → Prop} (hnoted : ∀ s as, P s → P (s.noted as))
    (happly : ∀ s i, i.Fits → P s → P (s.apply u i)) (d : Desk) (m : Deed) (hd : P d.session) :
    P (d.step u m).session := by
  obtain ⟨is, he, hi⟩ := d.step_play u m
  have hplay : ∀ s, P s → (∀ i ∈ is, i.Fits) → P (s.play u is) := by
    clear he hi
    induction is with
    | nil => exact fun s hs _ => hs
    | cons i is ih =>
        intro s hs hi
        rw [List.forall_mem_cons] at hi
        exact ih _ (happly s i hi.1 hs) hi.2
  rw [he]
  exact hplay _ (hnoted _ _ hd) hi

/-- What records and inputs keep of the session is kept by all deeds. -/
theorem play_keeps {P : Session Caller → Prop} (hnoted : ∀ s as, P s → P (s.noted as))
    (happly : ∀ s i, i.Fits → P s → P (s.apply u i)) (d : Desk) (ms : List Deed)
    (hd : P d.session) : P (d.play u ms).session := by
  induction ms generalizing d with
  | nil => exact hd
  | cons m ms ih => exact ih _ (step_keeps u hnoted happly d m hd)

theorem step_requests {ls : List Listener} {d : Desk} (h : Session.Attended u ls d.session)
    (m : Deed) : ∃ new, (d.step u m).session.requests = d.session.requests ++ new ∧
      new.length ≤ 1 ∧ ∀ q ∈ new, q.request.tally = m.tally? u ∧
        q.caller.errand.Suits u q.request.demand := by
  have htakes : ∀ {ticket : Nat} {tally : Option String} {s : Session Caller} {x : CallStep},
      Session.InOrder u ls s → Session.Takes u (Queued.Asked u ticket tally) s x →
      ∃ new, x.1.requests = s.requests ++ new ∧ new.length ≤ 1 ∧
        ∀ q ∈ new, q.request.tally = tally ∧ q.caller.errand.Suits u q.request.demand := by
    intro ticket tally s x ho hx
    obtain ⟨new, hnew, hlength, hasked⟩ := hx.requests u ho
    exact ⟨new, hnew, hlength, fun q hq => ⟨(hasked q hq).tally, (hasked q hq).suits⟩⟩
  have hinput : ∀ i : Input Caller, (∀ q ∈ (d.session.arrival? i).toList, q.request.tally = none ∧
      q.caller.errand.Suits u q.request.demand) →
      ∃ new, (d.session.apply u i).requests = d.session.requests ++ new ∧ new.length ≤ 1 ∧
        ∀ q ∈ new, q.request.tally = none ∧ q.caller.errand.Suits u q.request.demand := by
    intro i hi
    refine ⟨_, (h.inOrder.apply u i).2, ?_, hi⟩
    cases d.session.arrival? i <;> simp
  cases m with
  | call ticket c => exact htakes h.inOrder (Session.begin_takes u ticket c d.session)
  | goOn place =>
      cases hw : d.waiting? place with
      | none =>
          refine ⟨[], ?_, by simp, by simp⟩
          simp only [step, hw, List.append_nil]
      | some e =>
          have hnoted := h.inOrder.noted u (own u e.1 e.2)
          have hresume := htakes hnoted (Session.resume_takes u e.1 e.2 d.session)
          simp only [step, hw]
          exact hresume
  | reply r => exact hinput (.reply r) (by simp [Session.arrival?])
  | fire ticket timer =>
      refine hinput (.fire ⟨ticket, .none⟩ timer) fun q hq => ?_
      obtain ⟨t, -, hq⟩ := Option.bind_eq_some_iff.mp (Option.mem_toList.mp hq)
      obtain ⟨q', hq', rfl⟩ := Option.map_eq_some_iff.mp hq
      exact ⟨Timer.request?_tally hq', trivial⟩
  | close => exact hinput .close (by simp [Session.arrival?])

theorem play_attended {ls : List Listener} (d : Desk) (ms : List Deed)
    (h : Session.Attended u ls d.session) : Session.Attended u ls (d.play u ms).session :=
  play_keeps u (fun _ as h => h.noted u as) (fun _ _ hi h => h.apply u hi) d ms h

theorem play_holds {I : Run → List Timer → Prop} (hI : Session.Lasting I)
    {first : List (Queued Caller × Run)} (d : Desk) (ms : List Deed)
    (h : Session.Holds I first d.session) : Session.Holds I first (d.play u ms).session :=
  play_keeps u (fun _ as h => h.noted as) (fun _ i _ h => h.apply u hI i) d ms h

theorem play_traced (r : Run) (ls : List Listener) (ms : List Deed) :
    Session.Traced u r ((fresh r ls).play u ms).session :=
  (play_keeps u (P := fun s => Session.Traced u r s ∧ Session.InOrder u ls s)
    (fun _ as h => ⟨h.1.noted as, h.2.noted u as⟩)
    (fun _ i _ h => ⟨h.1.apply u h.2 i, (h.2.apply u i).1⟩) (fresh r ls) ms
    ⟨.fresh u r ls, .fresh u r ls⟩).1

end Desk

-- Deeds of a tour, on which the guidebook takes its time.
namespace Tour

def setup : Setup := { services := some fun _ => ⟨some (.ofNat 5), .success .null⟩ }

def ask (event : String) (ticket : Nat) : Deed :=
  .call ticket (.dispatch (.str event) .null .null .null .null)

def record (input : Fields) (ticket : Nat) : Deed := .call ticket (.tool "record_input" (.obj input))

end Tour

end GuidedJourney
