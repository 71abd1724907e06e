import GuidedJourney.Proofs.HangingUp
import GuidedJourney.Proofs.NumberRange

namespace GuidedJourney

namespace Value

def Composite (v : Value) : Prop := (∃ xs, v = .list xs) ∨ ∃ fs, v = .obj fs

theorem orElse_truthy {v w : Value} (hw : w.truthy = false) : (v.orElse w).truthy = v.truthy := by
  unfold orElse
  split
  · rfl
  · rename_i hv
    rw [hw, Bool.eq_false_iff.mpr hv]

theorem delay_error {v : Value} {f : Fault} : v.delay = .error f ↔ f = .tooLarge ∧ v.Oversized := by
  cases v with
  | int n =>
      change (intNumber n).map _ = _ ↔ _
      rw [map_error_iff, intNumber_error]
      simp [Oversized]
  | _ =>
      refine iff_of_false (fun h => ?_) (by simp [Oversized])
      cases h

theorem printed_error_truthy {v : Value} {f : Fault} (h : v.printed = .error f) : v.truthy = true := by
  by_contra hv
  have hlegible : v.legible stackRoom = .ok () := by
    cases v with
    | int n =>
        obtain rfl : n = 0 := by simpa [truthy] using hv
        rfl
    | list xs =>
        obtain rfl : xs = [] := by simpa [truthy] using hv
        rfl
    | obj fs =>
        obtain rfl : fs = [] := by simpa [truthy] using hv
        rfl
    | _ => rfl
  rw [printed, hlegible] at h
  cases h

theorem printedOrEmpty_error {v : Value} {f : Fault} :
    v.printedOrEmpty = .error f ↔ v.printed = .error f := by
  unfold printedOrEmpty
  split
  · rfl
  · rename_i hv
    exact iff_of_false nofun fun h => hv (printed_error_truthy h)

end Value

theorem Key.ofValue_error {v : Value} {f : Fault} :
    ofValue v = .error f ↔ f = .wrongKind ∧ v.Composite := by
  cases v with
  | list xs => simp [ofValue, Value.Composite, eq_comm]
  | obj fs => simp [ofValue, Value.Composite, eq_comm]
  | _ => exact iff_of_false nofun (by simp [Value.Composite])

theorem Session.feedbackEvent_error {u : Setup} {fields : Fields} {f : Fault} :
    feedbackEvent u fields = .error f ↔ (Fields.get fields "feedbackScreenId").printed = .error f := by
  unfold feedbackEvent
  dsimp only
  split
  · rw [map_error_iff]
  · rename_i hscreen
    exact iff_of_false nofun fun h => hscreen (Value.printed_error_truthy h)

theorem RecordedInput.writes_error {i : RecordedInput} {timestamp : Int} {f : Fault} :
    i.writes timestamp = .error f ↔ f = .wrongKind ∧
      i.storeKey.truthy = true ∧ i.summary.truthy = true ∧ i.storeKey.Composite := by
  unfold writes
  dsimp only
  split
  · rename_i hgiven
    rw [Bool.and_eq_true] at hgiven
    rw [bind_error_iff, Key.ofValue_error]
    constructor
    · rintro (⟨rfl, hkey⟩ | ⟨k, -, hk⟩)
      · exact ⟨rfl, hgiven.1, hgiven.2, hkey⟩
      · cases hk
    · rintro ⟨rfl, -, -, hkey⟩
      exact .inl ⟨rfl, hkey⟩
  · rename_i hgiven
    refine iff_of_false nofun fun h => hgiven ?_
    rw [h.2.1, h.2.2.1]
    rfl

/-- The arguments with which the call of a tool fails before it hands in a request: an event whose id
cannot be written as a text, or with a delay that is too long to be counted in, an input under a key that
is none, or a feedback screen whose id cannot be written. -/
inductive Setup.Refuses (u : Setup) (name : String) (fields : Fields) : Fault → Prop
  | event (hname : name = u.bridge.triggerEventTool) {f : Fault}
      (h : (Fields.get fields "eventId").printed = .error f) : Refuses u name fields f
  | delay (hname : name = u.bridge.triggerEventTool)
      (hevent : ∀ f, (Fields.get fields "eventId").printed ≠ .error f)
      (h : (Fields.get fields "delay").Oversized) : Refuses u name fields .tooLarge
  | feedback (hname : name = u.bridge.endCallTool) (htrigger : name ≠ u.bridge.triggerEventTool)
      (hrecord : name ≠ u.bridge.recordInputTool) {f : Fault}
      (h : (Fields.get fields "feedbackScreenId").printed = .error f) : Refuses u name fields f
  | key (hname : name = u.bridge.recordInputTool) (htrigger : name ≠ u.bridge.triggerEventTool)
      (hkey : (Fields.get fields "storeKey").truthy = true)
      (hsummary : (Fields.get fields "summary").truthy = true)
      (h : (Fields.get fields "storeKey").Composite) : Refuses u name fields .wrongKind

namespace Session

variable (u : Setup)

/-- What the call of a tool fails with: it is refused, or the request at the place fails that it has
handed in, or the event after recorded input has a delay that is too long to be counted in or an id that
cannot be written. -/
inductive ToolFault (name : String) (fields : Fields) (place : Nat) (s : Session Caller) : Fault → Prop
  | refused {f : Fault} (h : u.Refuses name fields f) : ToolFault name fields place s f
  | failed {c : Caller} {f : Fault} (h : s.finished[place]? = some (c, .error f)) :
      ToolFault name fields place s f
  | late {ticket : Nat} {o : Response}
      (h : s.finished[place]? = some (⟨ticket, .record (.ofFields fields)⟩, .ok o))
      (hopen : o.isNoop = false) (hnext : (Fields.get fields "nextEventId").truthy = true)
      (hdelay : (Fields.get fields "delay").Oversized) : ToolFault name fields place s .tooLarge
  | unnamed {ticket : Nat} {o : Response}
      (h : s.finished[place]? = some (⟨ticket, .record (.ofFields fields)⟩, .ok o))
      (hopen : o.isNoop = false) (hdelay : ¬ (Fields.get fields "delay").Oversized) {f : Fault}
      (hnext : (Fields.get fields "nextEventId").printed = .error f) : ToolFault name fields place s f

/-- What the call of a tool comes to at first: it is refused, or the event is put off, or a request is
handed in; and if an input is to be recorded after that request, it is the one that is given. -/
inductive ToolCase (name : String) (fields : Fields) (ticket : Nat) (s : Session Caller) :
    CallStep → Prop
  | refused {f : Fault} (h : ∀ f', u.Refuses name fields f' ↔ f' = f) :
      ToolCase name fields ticket s (ended (.error f) s)
  | armed {o : Response} {s' : Session Caller} (h : ∀ f, ¬ u.Refuses name fields f)
      (hs : s'.finished = s.finished) : ToolCase name fields ticket s (ended (.ok o) s')
  | asked {errand : Errand} {q : Request} (h : ∀ f, ¬ u.Refuses name fields f)
      (he : ∀ input, errand = .record input → input = .ofFields fields) :
      ToolCase name fields ticket s (s.ask u ticket errand q)

theorem arm_ended (event : String) (delay : Binary64) (context : Fields) (s : Session Caller) :
    ∃ o, s.arm event delay context =
      ended (.ok o) (s.schedule (.str event) .null (.obj context) (some delay)).1 :=
  ⟨_, rfl⟩

theorem schedule_finished (event element context : Value) (delay : Option Binary64)
    (s : Session Caller) : (s.schedule event element context delay).1.finished = s.finished := by
  rcases schedule_cases event element context delay s with ⟨-, he⟩ | ⟨-, he⟩
  · rw [he]
  · rw [he]

theorem begin_triggerEvent (ticket : Nat) (fields : Fields) (s : Session Caller) : ∃ tally,
    s.begin u ticket (Call.direct (.tool u.bridge.triggerEventTool (.obj fields))) =
      s.triggerEvent u ticket tally fields := by
  refine ⟨if u.bridge.trackToolCalls then some u.bridge.triggerEventTool else none, ?_⟩
  change s.callTool u ticket u.bridge.triggerEventTool (.obj fields) = _
  rw [callTool, Value.toFields_obj]
  simp only [if_true]

theorem triggerEvent_refused (ticket : Nat) (tally : Option String) {fields : Fields} {event : String}
    {f : Fault} (hevent : (Fields.get fields "eventId").printedOrEmpty = .ok event)
    (h : (Fields.get fields "delay").delay = .error f) (s : Session Caller) :
    s.triggerEvent u ticket tally fields = ended (.error f) s := by
  unfold triggerEvent
  rw [hevent, h]

theorem triggerEvent_case (ticket : Nat) (tally : Option String) (fields : Fields)
    (s : Session Caller) : ToolCase u u.bridge.triggerEventTool fields ticket s
      (s.triggerEvent u ticket tally fields) := by
  have hrefuses : ∀ f, u.Refuses u.bridge.triggerEventTool fields f ↔
      (Fields.get fields "eventId").printedOrEmpty = .error f ∨
      (∀ f, (Fields.get fields "eventId").printedOrEmpty ≠ .error f) ∧
        (Fields.get fields "delay").delay = .error f := by
    intro f
    simp only [ne_eq, Value.printedOrEmpty_error, Value.delay_error]
    constructor
    · rintro (⟨-, h⟩ | ⟨-, hevent, h⟩ | ⟨-, h, -⟩ | ⟨-, h, -⟩)
      · exact .inl h
      · exact .inr ⟨hevent, rfl, h⟩
      · exact absurd rfl h
      · exact absurd rfl h
    · rintro (h | ⟨hevent, rfl, h⟩)
      · exact .event rfl h
      · exact .delay rfl hevent h
  cases hevent : (Fields.get fields "eventId").printedOrEmpty with
  | error f =>
      rw [triggerEvent, hevent]
      refine .refused fun f' => (hrefuses f').trans ?_
      simp [hevent, eq_comm]
  | ok event =>
      cases hdelay : (Fields.get fields "delay").delay with
      | error f =>
          rw [triggerEvent_refused u ticket tally hevent hdelay]
          refine .refused fun f' => (hrefuses f').trans ?_
          simp [hevent, hdelay, eq_comm]
      | ok given =>
          rw [triggerEvent, hevent, hdelay]
          have hnone : ∀ f, ¬ u.Refuses u.bridge.triggerEventTool fields f := by
            intro f
            rw [hrefuses, hevent, hdelay]
            simp
          refine iteInduction (motive := ToolCase u _ fields ticket s)
            (fun _ => iteInduction (fun _ => ?_) fun _ => ?_) fun _ => ?_
          · exact .asked hnone nofun
          · obtain ⟨o, he⟩ := s.arm_ended event _ _
            rw [he]
            exact .armed hnone (schedule_finished _ _ _ _ s)
          · refine .asked hnone fun input he => ?_
            split at he <;> cases he

theorem recordInput_case (hrecord : u.bridge.recordInputTool ≠ u.bridge.triggerEventTool)
    (ticket : Nat) (tally : Option String) (fields : Fields) (s : Session Caller) :
    ToolCase u u.bridge.recordInputTool fields ticket s (s.recordInput u ticket tally fields) := by
  have hrefuses : ∀ f, u.Refuses u.bridge.recordInputTool fields f ↔
      (RecordedInput.ofFields fields).writes u.timestamp = .error f := by
    intro f
    have hsummary : (RecordedInput.ofFields fields).summary.truthy =
        (Fields.get fields "summary").truthy := Value.orElse_truthy rfl
    rw [RecordedInput.writes_error, hsummary]
    constructor
    · rintro (⟨h, -⟩ | ⟨h, -⟩ | ⟨-, -, h, -⟩ | ⟨-, -, hkey, hgiven, h⟩)
      · exact absurd h hrecord
      · exact absurd h hrecord
      · exact absurd rfl h
      · exact ⟨rfl, hkey, hgiven, h⟩
    · rintro ⟨rfl, hkey, hgiven, h⟩
      exact .key rfl hrecord hkey hgiven h
  unfold recordInput
  dsimp only
  cases hwrites : (RecordedInput.ofFields fields).writes u.timestamp with
  | error f =>
      refine .refused fun f' => (hrefuses f').trans ?_
      rw [hwrites, Except.error.injEq, eq_comm]
  | ok writes =>
      refine .asked (fun f h => ?_) ?_
      · have h := (hrefuses f).mp h
        rw [hwrites] at h
        cases h
      · rintro input ⟨⟩
        rfl

theorem endCall_case (htrigger : u.bridge.endCallTool ≠ u.bridge.triggerEventTool)
    (hrecord : u.bridge.endCallTool ≠ u.bridge.recordInputTool) (ticket : Nat) (tally : Option String)
    (fields : Fields) (s : Session Caller) :
    ToolCase u u.bridge.endCallTool fields ticket s (s.endCall u ticket tally fields) := by
  have hrefuses : ∀ f, u.Refuses u.bridge.endCallTool fields f ↔ feedbackEvent u fields = .error f := by
    intro f
    rw [feedbackEvent_error]
    constructor
    · rintro (⟨h, -⟩ | ⟨h, -⟩ | ⟨-, -, -, h⟩ | ⟨h, -⟩)
      · exact absurd h htrigger
      · exact absurd h htrigger
      · exact h
      · exact absurd h hrecord
    · exact fun h => .feedback rfl htrigger hrecord h
  cases hfeedback : feedbackEvent u fields with
  | error f =>
      rw [endCall_refused u hfeedback]
      refine .refused fun f' => (hrefuses f').trans ?_
      rw [hfeedback, Except.error.injEq, eq_comm]
  | ok event =>
      rw [endCall_asks u hfeedback]
      refine .asked (fun f h => ?_) nofun
      have h := (hrefuses f).mp h
      rw [hfeedback] at h
      cases h

theorem callTool_case (ticket : Nat) (name : String) (fields : Fields) (s : Session Caller) :
    ToolCase u name fields ticket s (s.callTool u ticket name (.obj fields)) := by
  rw [callTool, Value.toFields_obj]
  dsimp only
  split
  · rename_i hname
    subst hname
    exact triggerEvent_case u ticket _ fields s
  · rename_i htrigger
    split
    · rename_i hname
      subst hname
      exact recordInput_case u htrigger ticket _ fields s
    · rename_i hrecord
      split
      · rename_i hname
        subst hname
        exact endCall_case u htrigger hrecord ticket _ fields s
      · rename_i hend
        refine .asked (fun f => ?_) fun _ h => ?_
        · rintro (⟨h, -⟩ | ⟨h, -⟩ | ⟨h, -⟩ | ⟨h, -⟩)
          · exact htrigger h
          · exact htrigger h
          · exact hend h
          · exact hrecord h
        · cases h

end Session

/-- What the errand of a caller fails with after the request has come to `o`. -/
def Errand.Trips (e : Errand) (o : Except Fault Response) (f : Fault) : Prop :=
  ∃ input r, e = .record input ∧ o = .ok r ∧ r.isNoop = false ∧
    (input.nextEvent.truthy = true ∧ input.delay.Oversized ∧ f = .tooLarge ∨
      ¬ input.delay.Oversized ∧ input.nextEvent.printed = .error f)

theorem Errand.trips_record {input : RecordedInput} {r : Response} {f : Fault} :
    Trips (.record input) (.ok r) f ↔ r.isNoop = false ∧
      (input.nextEvent.truthy = true ∧ input.delay.Oversized ∧ f = .tooLarge ∨
        ¬ input.delay.Oversized ∧ input.nextEvent.printed = .error f) := by
  constructor
  · rintro ⟨_, _, ⟨⟩, ⟨⟩, h⟩
    exact h
  · exact fun h => ⟨_, _, rfl, rfl, h⟩

theorem Errand.not_trips {e : Errand} (h : ∀ input, e ≠ .record input) {o : Except Fault Response}
    {f : Fault} : ¬ e.Trips o f := by
  rintro ⟨input, _, he, -⟩
  exact h input he

theorem Session.toolFault_unasked (u : Setup) {name : String} {fields : Fields} {place : Nat}
    {s : Session Caller} (hnew : s.finished[place]? = none) {f : Fault} :
    s.ToolFault u name fields place f ↔ u.Refuses name fields f := by
  refine ⟨?_, .refused⟩
  rintro (h | h | h | h)
  · exact h
  all_goals
    rw [hnew] at h
    cases h

theorem Session.toolFault_asked (u : Setup) {name : String} {fields : Fields} {place ticket : Nat}
    {errand : Errand} {o : Except Fault Response} {s : Session Caller}
    (hnone : ∀ f, ¬ u.Refuses name fields f)
    (he : ∀ input, errand = .record input → input = .ofFields fields)
    (hfinished : s.finished[place]? = some (⟨ticket, errand⟩, o)) {f : Fault} :
    s.ToolFault u name fields place f ↔ o = .error f ∨ errand.Trips o f := by
  constructor
  · rintro (h | h | ⟨h, hopen, hnext, hlarge⟩ | ⟨h, hopen, hsmall, hnext⟩)
    · exact absurd h (hnone f)
    · rw [hfinished] at h
      cases h
      exact .inl rfl
    · rw [hfinished] at h
      cases h
      exact .inr ⟨_, _, rfl, rfl, hopen, .inl ⟨hnext, hlarge, rfl⟩⟩
    · rw [hfinished] at h
      cases h
      exact .inr ⟨_, _, rfl, rfl, hopen, .inr ⟨hsmall, hnext⟩⟩
  · rintro (rfl | ⟨input, r, rfl, rfl, hopen, htrips⟩)
    · exact .failed hfinished
    · obtain rfl := he input rfl
      rcases htrips with ⟨hnext, hlarge, rfl⟩ | ⟨hsmall, hnext⟩
      · exact .late hfinished hopen hnext hlarge
      · exact .unnamed hfinished hopen hsmall hnext

theorem Session.recorded_outcome (u : Setup) (input : RecordedInput) (r : Response)
    (s : Session Caller) : ∃ out, (s.recorded u input r).2 = some out ∧
      ∀ f, out = .error f ↔ Errand.Trips (.record input) (.ok r) f := by
  unfold recorded
  simp only [Errand.trips_record]
  cases hopen : r.isNoop with
  | true => exact ⟨.ok r, rfl, fun f => iff_of_false nofun nofun⟩
  | false =>
      rw [if_neg Bool.false_ne_true]
      cases hnext : input.nextEvent.truthy with
      | false =>
          have hprints : ∀ f, input.nextEvent.printed ≠ .error f := fun f h => by
            rw [Value.printed_error_truthy h] at hnext
            cases hnext
          exact ⟨.ok r, rfl, fun f => iff_of_false nofun (by simp [hprints])⟩
      | true =>
          rw [if_pos rfl]
          cases hdelay : input.delay.delay with
          | error f =>
              obtain ⟨rfl, hlarge⟩ := Value.delay_error.mp hdelay
              exact ⟨.error .tooLarge, rfl, fun f' => by simp [hlarge, eq_comm]⟩
          | ok given =>
              have hsmall : ¬ input.delay.Oversized := fun h => by
                rw [Value.delay_error.mpr ⟨rfl, h⟩] at hdelay
                cases hdelay
              cases hprinted : input.nextEvent.printed with
              | error f => exact ⟨.error f, rfl, fun f' => by simp [hsmall]⟩
              | ok event => exact ⟨.ok r, rfl, fun f => iff_of_false nofun (by simp [hsmall])⟩

namespace Desk

variable (u : Setup)

theorem Settles.mono {Q Q' : Desk → Except Fault Response → Prop} {d : Desk} {place : Nat}
    {out : Option (Except Fault Response)} (h : Settles u Q d place out)
    (hQ : ∀ d out, Q d out → Q' d out) : Settles u Q' d place out := by
  induction h with
  | settled h => exact .settled (hQ _ _ h)
  | goOn hgets _ ih => exact .goOn hgets ih

theorem From.resumes {r : Run} {ls : List Listener} {d : Desk} (h : From u r ls d) {place : Nat}
    {c : Caller} {o : Except Fault Response} (hw : d.waiting? place = some (c, o)) :
    Settles u (fun d' out => d'.session.finished[place]? = some (c, o) ∧
        ∀ f, out = .error f ↔ o = .error f ∨ c.errand.Trips o f)
      (d.step u (.goOn place)) d.session.requests.length (d.session.resume u c o).2 := by
  have hstays : (d.step u (.goOn place)).session.finished[place]? = some (c, o) :=
    play_finished u (waiting?_eq_some hw) [.goOn place]
  rcases c with ⟨ticket, errand⟩
  cases o with
  | error f =>
      rw [Session.resume_error]
      exact .settled ⟨hstays, fun f' => (or_iff_left (by rintro ⟨_, _, -, ⟨⟩, -⟩)).symm⟩
  | ok o =>
      have hnone : (∀ input, errand ≠ .record input) → ∀ (last : Response) f,
          (.ok last : Except Fault Response) = .error f ↔
            (.ok o : Except Fault Response) = .error f ∨ errand.Trips (.ok o) f :=
        fun he _ f => iff_of_false nofun (not_or.mpr ⟨nofun, Errand.not_trips he⟩)
      cases errand with
      | record input =>
          obtain ⟨out, hout, hfails⟩ := d.session.recorded_outcome u input o
          change Settles u _ _ _ (d.session.recorded u input o).2
          rw [hout]
          refine .settled ⟨hstays, fun f => ?_⟩
          rw [hfails, or_iff_right nofun]
      | hangUp reason =>
          refine h.settles_asked u (step_goOn u hw) fun ms o' hprocessed hw' => ?_
          obtain ⟨last, c, rfl, -⟩ :=
            (h.play (.goOn place :: ms)).traced.terminated u (h.play _).attended.inOrder hprocessed
          exact .settled ⟨play_finished u (play_finished u hstays ms) [.goOn _], hnone nofun _⟩
      | _ => exact .settled ⟨hstays, hnone nofun _⟩

/-- However the call of a tool goes on that is given an object of arguments, it comes to its end. It fails
if its arguments make it refused, if its request fails, or if the event after recorded input has a delay
that is too long to be counted in or an id that cannot be written; and otherwise it comes to a
response. -/
theorem callTool_settles (r : Run) (ls : List Listener) (ms : List Deed) (ticket : Nat) (name : String)
    (fields : Fields) :
    let d := (fresh r ls).play u ms
    d.Handles u ticket (.tool name (.obj fields)) fun d' out => ∀ f, out = .error f ↔
      d'.session.ToolFault u name fields d.session.requests.length f := by
  intro d
  have hd : From u r ls d := ⟨ms, rfl⟩
  have hcase := d.session.callTool_case u ticket name fields
  change Session.ToolCase u name fields ticket d.session
    (d.session.begin u ticket (Call.direct (.tool name (.obj fields)))) at hcase
  -- Where no request is handed in, none is found at its place.
  have hover : ∀ out s', d.session.begin u ticket (Call.direct (.tool name (.obj fields))) =
      Session.ended out s' → s'.finished = d.session.finished →
      (∀ f, out = .error f ↔ u.Refuses name fields f) →
      d.Handles u ticket (.tool name (.obj fields)) fun d' out => ∀ f, out = .error f ↔
        d'.session.ToolFault u name fields d.session.requests.length f := by
    intro out s' hbegin hs' hrefuses
    refine handles_ended u hbegin fun d' hsession f =>
      (hrefuses f).trans (Session.toolFault_unasked u ?_).symm
    rw [hsession, hs']
    exact List.getElem?_eq_none hd.finished_le
  generalize hbegin : d.session.begin u ticket _ = step at hcase
  cases hcase with
  | refused hrefuses => exact hover _ _ hbegin rfl fun f => by rw [hrefuses, Except.error.injEq, eq_comm]
  | armed hnone hs =>
      refine hover _ _ hbegin hs fun f => iff_of_false (fun h => ?_) (hnone f)
      cases h
  | asked hnone he =>
      refine hd.handles_asked u hbegin fun ms o hprocessed hw => ?_
      refine Settles.mono u ((hd.play _).resumes u hw) fun d' out hresumed f => ?_
      obtain ⟨hfinished, hout⟩ := hresumed
      exact (hout f).trans (Session.toolFault_asked u hnone he hfinished).symm

/-- The assistant asks for a walk after more seconds than can be counted, and the call fails though no
request of its own has. -/
theorem callTool_fails : ¬ ∀ (u : Setup) (r : Run) (ls : List Listener) (ms : List Deed) (ticket : Nat)
    (name : String) (fields : Fields), let d := (fresh r ls).play u ms
    d.session.isBusy = false →
    d.Handles u ticket (.tool name (.obj fields)) fun d' out =>
      (∀ c f, d'.session.finished[d.session.requests.length]? ≠ some (c, .error f)) →
        ∃ o, out = .ok o := by
  intro h
  let fields : Fields := [("eventId", .str "walk"), ("delay", .int (2 ^ 1024))]
  have hdelay : (Fields.get fields "delay").delay = .error .tooLarge :=
    Value.delay_error.mpr ⟨rfl, 2 ^ 1024, rfl, by decide +kernel⟩
  let d := (fresh Tour.run []).play {} [.call 0 (.demand .start)]
  have hevent : (Fields.get fields "eventId").printedOrEmpty = .ok "walk" := by decide
  obtain ⟨tally, hbegin⟩ := d.session.begin_triggerEvent {} 1 fields
  rw [Session.triggerEvent_refused {} 1 tally hevent hdelay] at hbegin
  obtain ⟨d', hsession, hreturns⟩ :=
    (h {} Tour.run [] [.call 0 (.demand .start)] 1 "trigger_event" fields rfl).ended {} hbegin
  have hnew : d.session.finished[d.session.requests.length]? = none := rfl
  obtain ⟨o, ho⟩ := hreturns fun c f he => by
    rw [hsession, hnew] at he
    cases he
  cases ho

end Desk

end GuidedJourney
