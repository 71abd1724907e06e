import GuidedJourney.Proofs.CallCourse
import GuidedJourney.Proofs.Failures
import GuidedJourney.Proofs.Signals

namespace GuidedJourney

theorem Request.terminate_done (rules : Rules) (reason : Value) (flowCompleted : Bool) (r : Run) :
    ∃ t o, (⟨.terminate reason flowCompleted, none⟩ : Request).process rules { run := r } = .done t o ∧
      t.run.completion = some (r.completion.getD ⟨reason, flowCompleted⟩) := by
  cases hover : r.completed with
  | true =>
      obtain ⟨t, o, he, hkept⟩ :=
        over_done rules (r := r) ⟨.terminate reason flowCompleted, none⟩ hover
      obtain ⟨c, hc⟩ := Option.isSome_iff_exists.mp hover
      refine ⟨t, o, he, ?_⟩
      rw [hkept, hc]
      rfl
  | false =>
      refine ⟨_, _, Act.processTerminate_open (t := { run := r }) reason flowCompleted hover, ?_⟩
      rw [Run.completed_iff.mp hover]
      rfl

namespace Session

variable {ε : Type} (u : Setup)

/-- The request at a place has completed the run in the way `c`. -/
structure ClosedAt (s : Session ε) (place : Nat) (c : Completion) : Prop where
  before : (s.runAt place).completion = none
  after : (s.runAt (place + 1)).completion = some c
  closes : ∃ q o, s.taken[place]? = some (q, s.runAt place) ∧
    s.finished[place]? = some (q.caller, .ok o) ∧
    c ∈ q.request.demand.closings (s.runAt place).screens ∧ q.request.Closes u.rules (s.runAt place) c o

theorem Traced.closed_since {r₀ : Run} {s : Session ε} (h : Traced u r₀ s) {place later : Nat}
    (hle : place ≤ later) {c : Completion} (hc : (s.runAt later).completion = some c) :
    (s.runAt place).completion = some c ∨ ∃ k, place ≤ k ∧ k < later ∧ s.ClosedAt u k c := by
  obtain ⟨n, rfl⟩ := Nat.exists_eq_add_of_le hle
  clear hle
  induction n with
  | zero => exact .inl hc
  | succ n ih =>
      rcases h.completion u (place + n) with
        he | ⟨q, o, htaken, hfinished, hnone, c', hmem, hclosed, hcloses⟩
      · refine (ih (he.symm.trans hc)).imp_right ?_
        rintro ⟨k, hk, hlt, hclosed⟩
        exact ⟨k, hk, Nat.lt_succ_of_lt hlt, hclosed⟩
      · obtain rfl : c' = c := Option.some.inj (hclosed.symm.trans hc)
        exact .inr ⟨place + n, Nat.le_add_right place n, Nat.lt_succ_self _, hnone, hclosed, q, o,
          htaken, hfinished, hmem, hcloses⟩

theorem Processed.failed_open {s : Session ε} {place : Nat} {q : Queued ε} {f : Fault}
    (h : s.Processed u place q (.error f)) : (s.runAt (place + 1)).completion = none := by
  obtain ⟨t, hw, hr⟩ := h.work
  rw [← hr]
  cases hover : (s.runAt place).completed with
  | true =>
      obtain ⟨t', o, he, -⟩ := q.request.over_done u.rules hover
      rw [he] at hw
      cases hw
  | false =>
      rcases Request.ended_completion u.rules hw with hkept | ⟨-, c, -, o, ho, -⟩
      · rw [hkept, Run.completed_iff.mp hover]
      · cases ho

/-- After a termination the run is over, in the way that it is told unless it was over before; and the
response to the termination tells it. -/
theorem Traced.terminated {r₀ : Run} {ls : List Listener} {s : Session ε} (h : Traced u r₀ s)
    (ho : InOrder u ls s) {place : Nat} {caller : ε} {reason : Value} {flowCompleted : Bool}
    {o : Except Fault Response}
    (hp : s.Processed u place ⟨caller, ⟨.terminate reason flowCompleted, none⟩⟩ o) :
    ∃ last c, o = .ok last ∧ last.completion = some c ∧ s.run.completion = some c ∧
      (c = ⟨reason, flowCompleted⟩ ∧ s.ClosedAt u place c ∨
        r₀.completion = some c ∨ ∃ k < place, s.ClosedAt u k c) := by
  obtain ⟨t, hwork, hr⟩ := hp.work
  obtain ⟨t', last, hdone, hclosed⟩ :=
    Request.terminate_done u.rules reason flowCompleted (s.runAt place)
  have hlt := (List.getElem?_eq_some_iff.mp hp.taken).1
  rw [hdone] at hwork
  cases o with
  | error f => cases hwork
  | ok o =>
      cases hwork
      rw [hr] at hclosed
      have hnow := h.completion_stays u hclosed hlt
      rw [runAt_end (Nat.le_refl _)] at hnow
      refine ⟨last, _, rfl, (h.response_completion u ho hp.finished).trans hclosed, hnow, ?_⟩
      rcases h.closed_since u (Nat.zero_le _) hclosed with hr₀ | ⟨k, -, hk, hclosedAt⟩
      · rw [h.runAt_zero] at hr₀
        exact .inr (.inl hr₀)
      · rcases Nat.lt_or_eq_of_le (Nat.le_of_lt_succ hk) with hk | rfl
        · exact .inr (.inr ⟨k, hk, hclosedAt⟩)
        · exact .inl ⟨by rw [hclosedAt.before]; rfl, hclosedAt⟩

/-- After a failure the run is over only if a later request has completed it. -/
theorem Traced.failed {r₀ : Run} {s : Session ε} (h : Traced u r₀ s) {place : Nat} {q : Queued ε}
    {f : Fault} (hp : s.Processed u place q (.error f)) {c : Completion}
    (hc : s.run.completion = some c) : ∃ k, place < k ∧ s.ClosedAt u k c := by
  have hlt := (List.getElem?_eq_some_iff.mp hp.taken).1
  rw [← runAt_end (Nat.le_refl _)] at hc
  rcases h.closed_since u (Nat.succ_le_of_lt hlt) hc with hsome | ⟨k, hk, -, hclosed⟩
  · rw [hp.failed_open] at hsome
    cases hsome
  · exact ⟨k, hk, hclosed⟩

theorem begin_endCall (htrigger : u.bridge.endCallTool ≠ u.bridge.triggerEventTool)
    (hrecord : u.bridge.endCallTool ≠ u.bridge.recordInputTool) (ticket : Nat) (fields : Fields)
    (s : Session Caller) : ∃ tally,
      s.begin u ticket (Call.direct (.tool u.bridge.endCallTool (.obj fields))) =
        s.endCall u ticket tally fields := by
  refine ⟨if u.bridge.trackToolCalls then some u.bridge.endCallTool else none, ?_⟩
  change s.callTool u ticket u.bridge.endCallTool (.obj fields) = _
  rw [callTool, Value.toFields_obj]
  simp only [if_neg htrigger, if_neg hrecord, if_true]

theorem endCall_refused {fields : Fields} {f : Fault} (h : feedbackEvent u fields = .error f)
    (ticket : Nat) (tally : Option String) (s : Session Caller) :
    s.endCall u ticket tally fields = ended (.error f) s := by
  rw [endCall, h]

theorem endCall_asks {fields : Fields} {event : String} (h : feedbackEvent u fields = .ok event)
    (ticket : Nat) (tally : Option String) (s : Session Caller) :
    s.endCall u ticket tally fields = s.ask u ticket (.hangUp (Fields.get fields "reason"))
      ⟨.event { id := .str event }, tally⟩ := by
  rw [endCall, h]

end Session

def Brink.parting : Run := { run with journey := { journey with agents := [{ Tour.guide with
  screens := [{ Tour.hall with events := [Tour.event "show_feedback_screen" (way "http://[")] }] }] } }

namespace Desk

variable (u : Setup)

/-- A call that hangs up comes to its end however it goes on. If it comes to a response, the run is over,
and the response tells the completion: it is the one for the given reason, unless the run was completed
by another request, or by the feedback event, before the termination was taken up. The call fails at once,
with nothing done, if the feedback screen cannot be named, and later only if the feedback event does; then
no termination has been asked for, and the run is over only if a request behind that event has completed
it. -/
theorem endCall_settles (htrigger : u.bridge.endCallTool ≠ u.bridge.triggerEventTool)
    (hrecord : u.bridge.endCallTool ≠ u.bridge.recordInputTool) (r : Run) (ls : List Listener)
    (ms : List Deed) (ticket : Nat) (fields : Fields) :
    let d := (fresh r ls).play u ms
    let reason := Fields.get fields "reason"
    d.Handles u ticket (.tool u.bridge.endCallTool (.obj fields)) fun d' out =>
      (∀ o, out = .ok o → ∃ c place feedback, d'.session.run.completion = some c ∧
        o.completion = some c ∧
        d'.session.taken[place]? = some
          (⟨⟨ticket, .hungUp feedback⟩, ⟨.terminate reason true, none⟩⟩, d'.session.runAt place) ∧
        (c = ⟨reason, true⟩ ∧ d'.session.ClosedAt u place c ∨
          r.completion = some c ∨ ∃ k < place, d'.session.ClosedAt u k c)) ∧
      ∀ f, out = .error f →
        Session.feedbackEvent u fields = .error f ∧ d'.session = d.session ∨
        ∃ event tally,
          let place := d.session.requests.length
          Session.feedbackEvent u fields = .ok event ∧
          d'.session.Processed u place ⟨⟨ticket, .hangUp reason⟩,
            ⟨.event { id := .str event }, tally⟩⟩ (.error f) ∧
          (d'.session.runAt (place + 1)).completion = none ∧
          ∀ c, d'.session.run.completion = some c → ∃ k, place < k ∧ d'.session.ClosedAt u k c := by
  intro d reason
  have hd : From u r ls d := ⟨ms, rfl⟩
  obtain ⟨tally, hbegin⟩ := d.session.begin_endCall u htrigger hrecord ticket fields
  rcases hfeedback : Session.feedbackEvent u fields with f | event
  · rw [Session.endCall_refused u hfeedback] at hbegin
    refine handles_ended u hbegin fun d' hsession => ⟨fun o ho => ?_, fun f' hf => ?_⟩
    · cases ho
    · cases hf
      exact .inl ⟨rfl, hsession⟩
  rw [Session.endCall_asks u hfeedback] at hbegin
  refine hd.handles_asked u hbegin fun before o hprocessed hw => ?_
  have hd₁ := hd.play (.call ticket (.tool u.bridge.endCallTool (.obj fields)) :: before)
  generalize d.play u _ = d₁ at *
  cases o with
  | error f =>
      have hsession : (d₁.step u (.goOn d.session.requests.length)).session = d₁.session := by
        rw [step_goOn u hw, Session.resume_error]
        rfl
      rw [Session.resume_error]
      refine .settled ⟨fun o ho => ?_, fun f' hf => ?_⟩
      · cases ho
      · cases hf
        rw [hsession]
        exact .inr ⟨event, tally, rfl, hprocessed, hprocessed.failed_open u,
          fun c => hd₁.traced.failed u hprocessed⟩
  | ok feedback =>
      refine hd₁.settles_asked u (step_goOn u hw) fun after o hprocessed hw => ?_
      have hd₂ := hd₁.play (.goOn d.session.requests.length :: after)
      generalize d₁.play u _ = d₂ at *
      obtain ⟨last, c, rfl, htold, hnow, hclosed⟩ :=
        hd₂.traced.terminated u hd₂.attended.inOrder hprocessed
      have hsession : (d₂.step u (.goOn d₁.session.requests.length)).session = d₂.session :=
        step_goOn u hw
      refine .settled ⟨fun o ho => ?_, fun f hf => ?_⟩
      · cases ho
        rw [hsession]
        exact ⟨c, d₁.session.requests.length, feedback, hnow, htold, hprocessed.taken, hclosed⟩
      · cases hf

theorem endCall_settles_tour :
    let d := (fresh Tour.run []).play {} (Tour.farewell (.str "done"))
    ({ : BridgeSettings }).endCallTool ≠ ({ : BridgeSettings }).triggerEventTool ∧
    ({ : BridgeSettings }).endCallTool ≠ ({ : BridgeSettings }).recordInputTool ∧
    ∃ caller last o c, d.waiting? 2 = some (caller, last) ∧
      (d.session.resume {} caller last).2 = some (.ok o) ∧ o.completion = some c ∧
      (d.step {} (.goOn 2)).session.run.completion = some c := by
  intro d
  have hsettles := endCall_settles {} (by decide) (by decide) Tour.run [] [.call 0 (.demand .start)] 1
    [("reason", .str "done")]
  have hfeedback := hsettles.goesOn _ [] rfl
  have hover := (hfeedback.goesOn _ [] rfl).outcome
  obtain ⟨c, -, -, hc, ho, -⟩ := hover.1 _ rfl
  have hwaits : d.waiting? 2 = some (_, _) := rfl
  refine ⟨by decide, by decide, _, _, _, c, hwaits, rfl, ?_, ?_⟩
  · exact ho
  · exact hc

/-- A feedback event that cannot be carried out keeps the assistant from ending the run. -/
theorem endCall_fails : ¬ ∀ (u : Setup) (r : Run) (ls : List Listener) (ms : List Deed) (ticket : Nat)
    (fields : Fields), u.bridge.endCallTool ≠ u.bridge.triggerEventTool →
    u.bridge.endCallTool ≠ u.bridge.recordInputTool →
    ((fresh r ls).play u ms).Handles u ticket (.tool u.bridge.endCallTool (.obj fields))
      fun d' _ => d'.session.run.completed = true := by
  intro h
  have hsettles := h {} Brink.parting [] [.call 0 (.demand .start)] 1 [] (by decide) (by decide)
  have hover := (hsettles.goesOn _ [] rfl).outcome
  revert hover
  decide

end Desk

end GuidedJourney
