import GuidedJourney.Proofs.Refusals
import GuidedJourney.Proofs.SessionPlay
import GuidedJourney.Proofs.Warnings

namespace GuidedJourney

namespace Run

/-- What the element that an event names accepts of the values that come with it. -/
def acceptedOf (r : Run) (c : EventCall) : Fields :=
  ((r.screen?.bind (·.element? c.element)).map (·.accepted c.values)).getD []

/-- The warning about the values that the element does not accept. -/
def refusalOf (r : Run) (c : EventCall) : List String :=
  ((r.taker? c).map (·.refusal c.values)).getD []

/-- None of the values that come with the event is accepted, and something was given before. -/
def Recalls (r : Run) (c : EventCall) (e : Element) : Prop :=
  r.taker? c = some e ∧ c.values ≠ [] ∧ e.accepted c.values = [] ∧ r.givenTo e ≠ []

variable {r : Run} {c : EventCall} {e : Element}

theorem acceptedOf_taker (h : r.taker? c = some e) : r.acceptedOf c = e.accepted c.values := by
  obtain ⟨-, -, -, s, hs, he⟩ := taker?_eq_some_iff.mp h
  simp [acceptedOf, hs, he]

end Run

namespace Act

variable (rules : Rules) {t : Turn} {c c' : EventCall} {e : Element}

theorem applyOffered_heedless (s : Screen) (c : EventCall) (transient : Fields) :
    (applyOffered rules s c transient).Heedless := by
  unfold applyOffered
  split
  · exact heedless_spreads.applyEvent rules c _ transient
  · exact .pure _

theorem eventOutcome_accepted (htaker : t.run.taker? c = some e) (hsome : e.accepted c.values ≠ [])
    (hw : t.warnings = []) : eventOutcome rules c t =
      (eventOutcome rules { c with values := e.accepted c.values } t).warned (e.refusal c.values) id := by
  have hvalues : c.values ≠ [] := fun hnone => hsome (by rw [hnone]; rfl)
  obtain ⟨s, hs, hwhole⟩ := eventOutcome_taken rules htaker hvalues
  obtain ⟨s', hs', hpart⟩ := eventOutcome_taken rules
    (c := { c with values := e.accepted c.values }) htaker hsome
  obtain rfl := Option.some.inj (hs.symm.trans hs')
  have hheedless := applyOffered_heedless rules s c
    (Fields.overlay c.context ((t.run.gave e c.values).givenTo e)) (e.refusal c.values)
    { t with run := t.run.gave e c.values, warnings := [] }
  rw [Turn.warned, List.append_nil] at hheedless
  rw [hwhole, hpart, hw, List.nil_append, List.nil_append, hheedless]
  dsimp only
  rw [Run.gave_accepted, Element.refusal_accepted]
  rfl

theorem eventOutcome_unaccepted (htaker : t.run.taker? c = some e) (hvalues : c.values ≠ [])
    (hnone : e.accepted c.values = []) (hw : t.warnings = []) :
    eventOutcome rules c t = (eventOutcome rules
      { c with values := [], context := Fields.overlay c.context (t.run.givenTo e) } t).warned
        (e.refusal c.values) id := by
  obtain ⟨hopen, harmed, -⟩ := Run.taker?_eq_some_iff.mp htaker
  obtain ⟨s, hs, hwhole⟩ := eventOutcome_taken rules htaker hvalues
  have hpart := eventOutcome_valueless rules (c := { c with
    values := [], context := Fields.overlay c.context (t.run.givenTo e) }) hopen harmed hs rfl
  have hgave : t.run.gave e c.values = t.run := by
    rw [Run.gave, hnone]
    rfl
  have hheedless := applyOffered_heedless rules s c (Fields.overlay c.context (t.run.givenTo e))
    (e.refusal c.values) { t with warnings := [] }
  rw [Turn.warned, List.append_nil] at hheedless
  rw [hwhole, hpart, hgave, hw, List.nil_append, hheedless, ← hw]
  rfl

/-- The values that are not accepted make no difference, unless something is remembered for them. -/
theorem eventOutcome_filtered (htaker : t.run.taker? c = some e) (hplain : ¬ t.run.Recalls c e)
    (hw : t.warnings = []) : eventOutcome rules c t =
      (eventOutcome rules { c with values := e.accepted c.values } t).warned (e.refusal c.values) id := by
  by_cases hsome : e.accepted c.values = []
  · rw [hsome]
    by_cases hvalues : c.values = []
    · rw [hvalues, Element.refusal_nil, Work.warned_nil, ← hvalues]
    · have hgiven : t.run.givenTo e = [] := by
        by_contra hgiven
        exact hplain ⟨htaker, hvalues, hsome, hgiven⟩
      have hrecalled := eventOutcome_unaccepted rules htaker hvalues hsome hw
      rw [hgiven] at hrecalled
      exact hrecalled
  · exact eventOutcome_accepted rules htaker hsome hw

theorem processEvent_warned {ms : List String} (hid : c'.id = c.id) (helement : c'.element = c.element)
    (harmed : c'.armed = c.armed)
    (h : eventOutcome rules { c with id := c.id.orElse (.str "") } t =
      (eventOutcome rules { c' with id := c.id.orElse (.str "") } t).warned ms id) :
    processEvent rules c t = (processEvent rules c' t).warned ms (Response.warned ms) := by
  rw [processEvent_apply, processEvent_apply, h, hid, helement, harmed]
  exact Work.warned_bind (fun _ _ => rfl) _

end Act

namespace Request

variable (rules : Rules) {r : Run} {c : EventCall} (tally : Option String)

theorem process_event (r : Run) (tally : Option String) : ∃ store, ∀ c,
    process rules ⟨.event c, tally⟩ { run := r } =
      Act.processEvent rules c { run := { r with store } } := by
  obtain ⟨store, hcounted⟩ := r.counted_eq tally
  refine ⟨store, fun c => ?_⟩
  rw [process_apply]
  dsimp only
  rw [hcounted]
  rfl

theorem process_filtered (hplain : ∀ e, ¬ r.Recalls c e) :
    process rules ⟨.event c, tally⟩ { run := r } =
      (process rules ⟨.event { c with values := r.acceptedOf c }, tally⟩ { run := r }).warned
        (r.refusalOf c) (Response.warned (r.refusalOf c)) := by
  obtain ⟨store, hprocess⟩ := process_event rules r tally
  rw [hprocess, hprocess]
  refine Act.processEvent_warned rules rfl rfl rfl ?_
  cases htaker : r.taker? c with
  | none =>
      rw [Run.refusalOf, htaker, Option.map_none, Option.getD_none, Work.warned_nil]
      exact (Act.eventOutcome_untaken rules (c := { c with id := c.id.orElse (.str "") }) htaker _).symm
  | some e =>
      rw [Run.refusalOf, htaker, Option.map_some, Option.getD_some, Run.acceptedOf_taker htaker]
      exact Act.eventOutcome_filtered rules (t := { run := { r with store } })
        (c := { c with id := c.id.orElse (.str "") }) htaker (hplain e) rfl

theorem process_recalled {e : Element} (h : r.Recalls c e) :
    process rules ⟨.event c, tally⟩ { run := r } =
      (process rules ⟨.event { c with
          values := [], context := Fields.overlay c.context (r.givenTo e) }, tally⟩
        { run := r }).warned (r.refusalOf c) (Response.warned (r.refusalOf c)) := by
  obtain ⟨htaker, hvalues, hnone, -⟩ := h
  obtain ⟨store, hprocess⟩ := process_event rules r tally
  rw [hprocess, hprocess, Run.refusalOf, htaker, Option.map_some, Option.getD_some]
  refine Act.processEvent_warned rules rfl rfl rfl ?_
  exact Act.eventOutcome_unaccepted rules (t := { run := { r with store } })
    (c := { c with id := c.id.orElse (.str "") }) htaker hvalues hnone rfl

/-- A request for an event that comes with values goes the same way, whatever the services reply, as
the one with the values that the element accepts, apart from the warning about the others; unless none
is accepted and the element was given something before. Then it goes the way of the one without values
whose context has what was given before over it. -/
theorem process_accepted (r : Run) (c : EventCall) :
    ((∀ e, ¬ r.Recalls c e) →
      process rules ⟨.event c, tally⟩ { run := r } =
        (process rules ⟨.event { c with values := r.acceptedOf c }, tally⟩ { run := r }).warned
          (r.refusalOf c) (Response.warned (r.refusalOf c))) ∧
    ∀ e, r.Recalls c e →
      process rules ⟨.event c, tally⟩ { run := r } =
        (process rules ⟨.event { c with
            values := [], context := Fields.overlay c.context (r.givenTo e) }, tally⟩
          { run := r }).warned (r.refusalOf c) (Response.warned (r.refusalOf c)) :=
  ⟨process_filtered rules tally, fun _ => process_recalled rules tally⟩

end Request

-- A study with a lamp; one reads there by its light.
namespace Study

def lamp : Element where
  declared := .str "toggleCard"
  state := [("id", .str "lamp")]
  style := []
  conditions := []
  events := [
    Tour.event "switch" [],
    { Tour.event "read" [] with conditions := [⟨.obj [("var", .str "isToggled")], []⟩] }]

def desk : Section := ⟨"desk", .null, .body, .stack, .vertical, false, [lamp]⟩

def study : Screen := { Tour.hall with id := "study", sections := [desk], events := [] }

def run : Run :=
  { Tour.run with journey := { Tour.journey with agents := [{ Tour.guide with screens := [study] }] } }

def lit (interactions : Interactions) : Run := { run with screenId := some "study", interactions }

def touch (event : String) (values : Fields) : EventCall :=
  { id := .str event, element := .str "lamp", values }

def light : Fields := [("isToggled", .bool true)]

def paint : Fields := [("color", .str "red")]

end Study

/-- With light there is nothing to remember; the paint alone brings back the light given before. -/
theorem Request.process_accepted_study :
    let rules := ({} : Setup).rules
    let mixed := Study.touch "read" (Study.light ++ Study.paint)
    let painted := Study.touch "read" Study.paint
    let dark := Study.lit []
    let bright := Study.lit [("lamp", Study.light)]
    process rules ⟨.event mixed, none⟩ { run := dark } =
      (process rules ⟨.event (Study.touch "read" Study.light), none⟩ { run := dark }).warned
        (dark.refusalOf mixed) (Response.warned (dark.refusalOf mixed)) ∧
    bright.Recalls painted Study.lamp ∧ process rules ⟨.event painted, none⟩ { run := bright } =
      (process rules ⟨.event { Study.touch "read" [] with context := Study.light }, none⟩
        { run := bright }).warned (bright.refusalOf painted)
          (Response.warned (bright.refusalOf painted)) := by
  intro rules mixed painted dark bright
  have hplain : ∀ e, ¬ dark.Recalls mixed e := by
    rintro e ⟨htaker, -, -, hgiven⟩
    exact hgiven rfl
  have hrecalls : bright.Recalls painted Study.lamp := ⟨rfl, nofun, rfl, nofun⟩
  exact ⟨(process_accepted rules none dark mixed).1 hplain, hrecalls,
    (process_accepted rules none bright painted).2 Study.lamp hrecalls⟩

def Session.outcomes {ε : Type} (s : Session ε) : List (Option Outcome) :=
  s.finished.map fun e => e.2.toOption.map Response.outcome

/-- Once the lamp has been switched on, painting it makes the reading possible that it does not make
without the paint, which it does not accept. -/
theorem Session.unaccepted_values_steer : ¬ ∀ (u : Setup) (r : Run) (is : List (Input Unit))
    (c : EventCall),
    let s := ({ run := r } : Session Unit).play u is
    (s.apply u (.submit () ⟨.event c, none⟩)).outcomes =
      (s.apply u (.submit () ⟨.event { c with values := s.run.acceptedOf c }, none⟩)).outcomes := by
  intro h
  have hsame := h {} Study.run
    [.submit () ⟨.start, none⟩, .submit () ⟨.event (Study.touch "switch" Study.light), none⟩]
    (Study.touch "read" Study.paint)
  revert hsame
  decide +kernel

end GuidedJourney
