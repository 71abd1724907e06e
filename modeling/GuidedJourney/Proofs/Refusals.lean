import GuidedJourney.Proofs.FieldUpdate
import GuidedJourney.Proofs.GivenValues
import GuidedJourney.Proofs.RequestEnd
import GuidedJourney.Proofs.ValidJourney

namespace GuidedJourney

/-- The outcomes that tell of a refusal. -/
def Outcome.refusals : List Outcome := [.unmatched, .conditionsNotMet, .rejected, .stale]

/-- The interactions of the run, but for values of an element of the current screen under its own
keys. -/
def Run.Given (r : Run) (element : Value) (interactions : Interactions) : Prop :=
  interactions = r.interactions ∨ ∃ s e id, r.screen? = some s ∧ element = .str id ∧
    s.element? element = some e ∧ (∀ id' ≠ id, interactions.lookup id' = r.interactions.lookup id') ∧
    ∀ key ∉ e.interactiveKeys, Fields.find? ((interactions.lookup id).getD []) key =
      Fields.find? ((r.interactions.lookup id).getD []) key

/-- Since `t`, values have been given to the element at most, with warnings. -/
def Turn.Given (element : Value) (t t' : Turn) : Prop :=
  ∃ interactions warnings, t.run.Given element interactions ∧
    t' = { t with run := { t.run with interactions }, warnings }

theorem Turn.Given.warned (element : Value) (t : Turn) (warnings : List String) :
    t.Given element { t with warnings } :=
  ⟨t.run.interactions, warnings, .inl rfl, rfl⟩

namespace Act

variable (rules : Rules) {t t' : Turn} {s : Screen}

theorem gave_given {element : Value} {e : Element} (values : Fields) (hs : t.run.screen? = some s)
    (he : s.element? element = some e) (ht : element.truthy = true) (warnings : List String) :
    t.Given element { t with run := t.run.gave e values, warnings } := by
  obtain ⟨id, rfl, hid⟩ := Screen.element_id he ht
  unfold Run.gave
  split
  · exact .warned _ t warnings
  · refine ⟨_, warnings, .inr ⟨s, e, id, hs, rfl, he, fun id' hid' => ?_, fun key hkey => ?_⟩, rfl⟩
    · rw [hid, Option.getD_some, Interactions.lookup_give, if_neg hid']
    · rw [hid, Option.getD_some, Interactions.lookup_give, if_pos rfl, Option.getD_some]
      refine Fields.find?_overlay (fun u hu hsame => hkey ?_) _
      have hallowed : e.allows u = true := (List.mem_filter.mp hu).2
      rw [← hsame]
      simpa [Element.allows] using hallowed

theorem transientOf_done (c : EventCall) (hs : t.run.screen? = some s) :
    ∃ t' transient, transientOf s c t = .done t' transient ∧ t.Given c.element t' := by
  unfold transientOf
  split
  · rename_i hgiven
    rw [Bool.and_eq_true] at hgiven
    cases he : s.element? c.element with
    | none => exact ⟨t, _, rfl, .warned _ t t.warnings⟩
    | some e =>
        refine ⟨_, Fields.overlay c.context ((t.run.gave e c.values).givenTo e), ?_,
          gave_given c.values hs he hgiven.1 (t.warnings ++ e.refusal c.values)⟩
        change (giveValues e c.values t).bind _ = _
        rw [giveValues_apply]
        rfl
  · exact ⟨t, _, rfl, .warned _ t t.warnings⟩

/-- The event `e` is the one that is asked for and on offer, and its conditions are to be tried at the turn
`t'` with the fields `transient` besides the state. -/
structure Offered (c : EventCall) (t : Turn) (e : Event) (transient : Fields) (t' : Turn) : Prop where
  isOpen : t.run.completed = false
  screen : ∃ s, t.run.screen? = some s ∧ s.offers? c.id c.element = some e ∧
    transientOf s c t = .done t' transient

theorem Offered.given {c : EventCall} {e : Event} {transient : Fields}
    (h : Offered c t e transient t') : t.Given c.element t' := by
  obtain ⟨s, hs, -, hdone⟩ := h.screen
  obtain ⟨_, _, hdone', hgiven⟩ := transientOf_done c hs
  cases hdone.symm.trans hdone'
  exact hgiven

/-- How an event is taken up: its id cannot be written into a warning, it can be said at once that it is
not applied, or its conditions decide. -/
theorem eventOutcome_cases (c : EventCall) (t : Turn) :
    (∃ f, eventOutcome rules c t = .failed t f) ∨
    (∃ t' o, o ≠ .applied ∧ t.Given c.element t' ∧ eventOutcome rules c t = .done t' o) ∨
    ∃ t' e transient, Offered c t e transient t' ∧
      eventOutcome rules c t = applyEvent rules c e transient t' := by
  have houtcome := eventOutcome_apply rules c t
  cases hover : t.run.completed with
  | true =>
      rw [hover] at houtcome
      exact .inr <| .inl ⟨t, .ignored, nofun, .warned _ t t.warnings, houtcome⟩
  | false =>
      cases harmed : c.armed.any (·.visit != t.run.visit) with
      | true =>
          rw [hover, harmed] at houtcome
          rw [houtcome]
          cases c.id.legible Value.stackRoom with
          | error f => exact .inl ⟨f, rfl⟩
          | ok => exact .inr (.inl ⟨_, .stale, nofun, .warned _ t _, rfl⟩)
      | false =>
          cases hs : t.run.screen? with
          | none =>
              rw [hover, harmed, hs] at houtcome
              exact .inr <| .inl ⟨_, .unmatched, nofun, .warned _ t _, houtcome⟩
          | some s =>
              obtain ⟨t', transient, hdone, hgiven⟩ := transientOf_done c hs
              rw [eventOutcome_open rules hover harmed hs, hdone]
              cases he : s.offers? c.id c.element with
              | none =>
                  refine .inr <| .inl ⟨t', .unmatched, nofun, hgiven, ?_⟩
                  simp only [Work.bind, applyOffered, he]
                  rfl
              | some e =>
                  refine .inr <| .inr ⟨t', e, transient, ⟨hover, s, hs, he, hdone⟩, ?_⟩
                  simp only [Work.bind, applyOffered, he]

theorem applyEvent_holds (c : EventCall) {e : Event} {transient : Fields}
    (h : Condition.allHold e.conditions (t.run.context transient) = .ok true) :
    applyEvent rules c e transient t =
      (Action.performAll rules.canCall transient e.actions {}
        { t with run := t.run.record c.id c.element }).bind fun t b =>
          (conclude (enter rules) b t).bind fun t _ => .done t .applied := by
  have happly : applyEvent rules c e transient t =
      (ofExcept (Condition.allHold e.conditions (t.run.context transient)) t).bind _ := rfl
  rw [happly, h]
  rfl

theorem applyEvent_cases (c : EventCall) (e : Event) (transient : Fields) (t : Turn) :
    (∃ f, applyEvent rules c e transient t = .failed t f) ∨
    applyEvent rules c e transient t = .done t .conditionsNotMet ∨
    Condition.allHold e.conditions (t.run.context transient) = .ok true := by
  have happly : applyEvent rules c e transient t =
      (ofExcept (Condition.allHold e.conditions (t.run.context transient)) t).bind _ := rfl
  rw [happly]
  cases Condition.allHold e.conditions (t.run.context transient) with
  | error f => exact .inl ⟨f, rfl⟩
  | ok holds =>
      cases holds with
      | false => exact .inr (.inl rfl)
      | true => exact .inr (.inr rfl)

theorem eventOutcome_refused {c : EventCall} {o : Outcome}
    (h : (eventOutcome rules c t).Reaches (.done t' o)) (ho : o ≠ .applied) :
    eventOutcome rules c t = .done t' o ∧ t.Given c.element t' := by
  rcases eventOutcome_cases rules c t with
    ⟨f, he⟩ | ⟨t₁, o₁, -, hgiven, he⟩ | ⟨t₁, e, transient, hoffered, he⟩
  · rw [he] at h
    cases h
  · rw [he] at h ⊢
    cases h
    exact ⟨rfl, hgiven⟩
  · rw [he] at h ⊢
    rcases applyEvent_cases rules c e transient t₁ with ⟨f, he⟩ | he | hholds
    · rw [he] at h
      cases h
    · rw [he] at h ⊢
      cases h
      exact ⟨rfl, hoffered.given⟩
    · -- To say that the event is applied is then the last thing done.
      rw [applyEvent_holds rules c hholds] at h
      obtain ⟨_, _, -, h⟩ := h.bind_done
      obtain ⟨_, _, -, h⟩ := h.bind_done
      cases h
      exact absurd rfl ho

end Act

namespace Demand

variable (rules : Rules) {t t' : Turn} {o : Response}

theorem refused {d : Demand} (hopen : t.Open) (h : (d.process rules t).Reaches (.done t' o))
    (ho : o.outcome ∈ Outcome.refusals) : d.process rules t = .done t' o ∧
      ((∃ c, d = .event c ∧ t.Given c.element t') ∨ ∃ warnings, t' = { t with warnings }) := by
  have happlied : o.outcome ≠ .applied := fun he => by simp [Outcome.refusals, he] at ho
  cases d with
  | start =>
      cases Demand.ends rules hopen h with
      | unstarted => simp [Outcome.refusals, Turn.response] at ho
      | started => simp [Outcome.refusals, Turn.response] at ho
  | event c =>
      change (Act.processEvent rules c t).Reaches _ at h
      change Act.processEvent rules c t = _ ∧ _
      rw [Act.processEvent_apply] at h ⊢
      obtain ⟨t₁, outcome, houtcome, hdone⟩ := h.bind_done
      cases hdone
      obtain ⟨he, hgiven⟩ := Act.eventOutcome_refused rules houtcome happlied
      rw [he]
      exact ⟨rfl, .inl ⟨c, rfl, hgiven⟩⟩
  | back =>
      rcases Act.processBack_open hopen with ⟨message, -, he⟩ | ⟨s, -, he⟩
      · change Act.processBack t = _ ∧ _
        change (Act.processBack t).Reaches _ at h
        rw [he] at h ⊢
        cases h
        exact ⟨rfl, .inr ⟨_, rfl⟩⟩
      · change (Act.processBack t).Reaches _ at h
        rw [he] at h
        cases h
        exact absurd rfl happlied
  | handoff id =>
      change (Act.processHandoff rules id t).Reaches _ at h
      change Act.processHandoff rules id t = _ ∧ _
      rcases Act.processHandoff_open rules id hopen with
        ⟨f, -, -, he⟩ | ⟨message, -, he⟩ | ⟨a, -, he⟩
      · rw [he] at h
        cases h
      · rw [he] at h ⊢
        cases h
        exact ⟨rfl, .inr ⟨_, rfl⟩⟩
      · rw [he] at h
        obtain ⟨_, _, -, h⟩ := h.bind_done
        cases h
        exact absurd rfl happlied
  | write label ws =>
      cases Demand.ends rules hopen h
      exact absurd rfl happlied
  | terminate reason flowCompleted =>
      cases Demand.ends rules hopen h
      exact absurd rfl happlied

end Demand

theorem Request.refused (rules : Rules) {q : Request} {r : Run} {t : Turn} {o : Response}
    (hq : q.tally = none) (h : (q.process rules { run := r }).Reaches (.done t o))
    (ho : o.outcome ∈ Outcome.refusals) : q.process rules { run := r } = .done t o ∧
      ((∃ c, q.demand = .event c ∧ Turn.Given c.element { run := r } t) ∨
        ∃ warnings, t = { run := r, warnings }) := by
  cases hover : r.completed with
  | true =>
      rcases (ends_over rules hover h).2.1 with he | he
      · simp [Outcome.refusals, he] at ho
      · simp [Outcome.refusals, he] at ho
  | false =>
      rw [q.process_apply, hq] at h ⊢
      exact Demand.refused rules (t := { run := r }) hover h ho

namespace Session

variable {ε : Type}

/-- A request that counts no tool call and is refused has come to its end at once, with the run and its
timers as before, but for values given to the element that the request names; and its response tells of
no write, no screen and no call. -/
theorem take_refused (u : Setup) (s : Session ε) (caller : ε) {q : Request} (hq : q.tally = none)
    {t : Turn} {o : Response} (h : (q.process u.rules { run := s.run }).Reaches (.done t o))
    (ho : o.outcome ∈ Outcome.refusals) :
    (s.take u ⟨caller, q⟩).finished = s.finished ++ [(caller, .ok o)] ∧
    (s.take u ⟨caller, q⟩).timers = s.timers ∧
    (∃ interactions, (s.take u ⟨caller, q⟩).run = { s.run with interactions } ∧
      ((∃ c, q.demand = .event c ∧ s.run.Given c.element interactions) ∨
        interactions = s.run.interactions)) ∧
    o.writes = [] ∧ o.entered = [] ∧ o.serviceCalls = [] ∧ o.toolCalls = [] := by
  obtain ⟨hdone, hgiven⟩ := Request.refused u.rules hq h ho
  have htake : s.take u ⟨caller, q⟩ = Session.follow u caller (q.process u.rules { run := s.run })
      { s with draining := true, taken := s.taken ++ [(⟨caller, q⟩, s.run)] } := rfl
  rw [hdone] at htake
  obtain ⟨_, _, _, _, htells⟩ := Request.tells u.rules h
  rw [htake, htells]
  rcases hgiven with ⟨c, hc, interactions, warnings, hgiven, rfl⟩ | ⟨warnings, rfl⟩
  · exact ⟨by rw [← htells]; rfl, rfl, ⟨interactions, rfl, .inl ⟨c, hc, hgiven⟩⟩, rfl, rfl, rfl, rfl⟩
  · exact ⟨by rw [← htells]; rfl, rfl, ⟨s.run.interactions, rfl, .inr rfl⟩, rfl, rfl, rfl, rfl⟩

end Session

theorem Session.take_refused_tour :
    let s : Session Unit := {
      run := { Tour.run with screenId := some "hall" }
      timers := [⟨0, .str "walk", .null, .null, some "hall", 0, none⟩] }
    let s' := s.take {} ⟨(), ⟨.event { id := .str "sing", values := [("song", .str "ode")] }, none⟩⟩
    ∃ o, o.outcome = .unmatched ∧ s'.finished = [((), .ok o)] ∧ s'.timers = s.timers ∧
      s'.run = s.run ∧ o.writes = [] := by
  intro s s'
  have hreaches := Work.Reaches.refl ((⟨.event { id := .str "sing", values := [("song", .str "ode")] },
    none⟩ : Request).process ({} : Setup).rules { run := s.run })
  obtain ⟨hfinished, htimers, -, hwrites, -⟩ := take_refused {} s () rfl hreaches (.head _)
  exact ⟨_, rfl, hfinished, htimers, rfl, hwrites⟩

end GuidedJourney
