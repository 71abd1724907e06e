import GuidedJourney.Proofs.FieldUpdate

namespace GuidedJourney

namespace Element

def refusal (e : Element) (values : Fields) : List String :=
  let dropped := (Fields.keys (values.filter (!e.allows ·))).mergeSort fun a b => decide (a ≤ b)
  if dropped.isEmpty then []
  else ["Interaction keys not writable on " ++ e.kindTag ++ ": " ++ ", ".intercalate dropped]

def accepted (e : Element) (values : Fields) : Fields := values.filter e.allows

@[simp] theorem accepted_accepted (e : Element) (values : Fields) :
    e.accepted (e.accepted values) = e.accepted values := by
  simp [accepted, List.filter_filter]

@[simp] theorem refusal_nil (e : Element) : e.refusal [] = [] := by
  simp [refusal, Fields.keys]

@[simp] theorem refusal_accepted (e : Element) (values : Fields) :
    e.refusal (e.accepted values) = [] := by
  have hnone : (e.accepted values).filter (!e.allows ·) = [] :=
    List.filter_eq_nil_iff.mpr fun f hf => by simp [(List.mem_filter.mp hf).2]
  simp [refusal, hnone, Fields.keys]

end Element

theorem Screen.element_id {s : Screen} {element : Value} {e : Element}
    (h : s.element? element = some e) (ht : element.truthy = true) :
    ∃ id, element = .str id ∧ e.id? = some id := by
  have hid := List.find?_some h
  unfold Value.isId at hid
  split at hid
  · cases ht
  · rename_i id id' he
    exact ⟨id, rfl, by rw [he, eq_of_beq hid]⟩
  · cases hid

namespace Run

def givenTo (r : Run) (e : Element) : Fields := (r.interactions.lookup (e.id?.getD "")).getD []

def gave (r : Run) (e : Element) (values : Fields) : Run :=
  if (e.accepted values).isEmpty then r
  else { r with interactions := r.interactions.give (e.id?.getD "") (e.accepted values) }

/-- The element that takes the values of an event: the first one of its id on the current screen, unless
the run is over or has left the visit on which the event was put off. -/
def taker? (r : Run) (c : EventCall) : Option Element :=
  if r.completed || c.armed.any (·.visit != r.visit) || !c.element.truthy then none
  else r.screen?.bind (·.element? c.element)

@[simp] theorem gave_accepted (r : Run) (e : Element) (values : Fields) :
    r.gave e (e.accepted values) = r.gave e values := by
  simp [gave]

theorem gave_kept (r : Run) (e : Element) (values : Fields) :
    ∃ interactions, r.gave e values = { r with interactions } := by
  unfold gave
  split
  · exact ⟨r.interactions, rfl⟩
  · exact ⟨_, rfl⟩

theorem taker?_eq_some_iff {r : Run} {c : EventCall} {e : Element} :
    r.taker? c = some e ↔ r.completed = false ∧ c.armed.any (·.visit != r.visit) = false ∧
      c.element.truthy = true ∧ ∃ s, r.screen? = some s ∧ s.element? c.element = some e := by
  unfold taker?
  split
  · rename_i hnone
    refine iff_of_false nofun ?_
    rintro ⟨hopen, harmed, htruthy, -⟩
    simp [hopen, harmed, htruthy] at hnone
  · rename_i hsome
    simp only [Bool.or_eq_true, Bool.not_eq_true', not_or, Bool.not_eq_true, Bool.not_eq_false]
      at hsome
    rw [Option.bind_eq_some_iff]
    exact ⟨fun h => ⟨hsome.1.1, hsome.1.2, hsome.2, h⟩, fun h => h.2.2.2⟩

end Run

namespace Act

variable (rules : Rules) {t : Turn} {c : EventCall} {e : Element}

theorem giveValues_apply (e : Element) (values : Fields) (t : Turn) :
    giveValues e values t =
      .done { t with run := t.run.gave e values, warnings := t.warnings ++ e.refusal values }
        ((t.run.gave e values).givenTo e) := by
  have hrefuse : refuse e values t = .done { t with warnings := t.warnings ++ e.refusal values } () := by
    unfold refuse Element.refusal
    dsimp only
    split
    · rw [List.append_nil]
      rfl
    · rfl
  have haccept : ∀ t : Turn, accept e values t = .done { t with run := t.run.gave e values } () := by
    intro t
    unfold accept Run.gave Element.accepted
    split
    · rfl
    · rfl
  have hgive : giveValues e values t = (refuse e values t).bind fun t _ =>
      (accept e values t).bind fun t _ => .done t (t.run.givenTo e) := rfl
  rw [hgive, hrefuse]
  change (accept e values _).bind _ = _
  rw [haccept]
  rfl

def applyOffered (s : Screen) (c : EventCall) (transient : Fields) : Act Outcome :=
  match s.offers? c.id c.element with
  | some e => applyEvent rules c e transient
  | none => pure .unmatched

theorem eventOutcome_apply (c : EventCall) (t : Turn) : eventOutcome rules c t =
    (if t.run.completed then pure .ignored
      else if c.armed.any (·.visit != t.run.visit) then do
        ofExcept (c.id.legible Value.stackRoom)
        warn ("Delayed event " ++ c.id.text ++ " dropped: its screen was left")
        return .stale
      else match t.run.screen? with
        | none => do
          warn "No active screen"
          return .unmatched
        | some s => do applyOffered rules s c (← transientOf s c) : Act Outcome) t := by
  have houtcome : eventOutcome rules c t = (if t.run.completed = true then pure .ignored
      else if c.armed.any (·.visit != t.run.visit) = true then _ else _ : Act Outcome) t := rfl
  rw [houtcome]
  cases t.run.screen? with
  | none => rfl
  | some s => rfl

theorem eventOutcome_open {s : Screen} (hopen : t.run.completed = false)
    (harmed : c.armed.any (·.visit != t.run.visit) = false) (hs : t.run.screen? = some s) :
    eventOutcome rules c t =
      (transientOf s c t).bind fun t transient => applyOffered rules s c transient t := by
  rw [eventOutcome_apply, hopen, if_neg Bool.false_ne_true, harmed, if_neg Bool.false_ne_true, hs]
  rfl

/-- Values that come with an event are given to the element that takes them, and what it has been given
by then is what the conditions see, over what else comes with the event. -/
theorem eventOutcome_taken (htaker : t.run.taker? c = some e) (hvalues : c.values ≠ []) :
    ∃ s, t.run.screen? = some s ∧ eventOutcome rules c t =
      applyOffered rules s c (Fields.overlay c.context ((t.run.gave e c.values).givenTo e))
        { t with
          run := t.run.gave e c.values
          warnings := t.warnings ++ e.refusal c.values } := by
  obtain ⟨hopen, harmed, htruthy, s, hs, he⟩ := Run.taker?_eq_some_iff.mp htaker
  refine ⟨s, hs, ?_⟩
  have hgiven : transientOf s c t = (giveValues e c.values t).bind fun t given =>
      .done t (Fields.overlay c.context given) := by
    unfold transientOf
    rw [if_pos (by simpa [htruthy] using hvalues), he]
    rfl
  rw [eventOutcome_open rules hopen harmed hs, hgiven, giveValues_apply]
  rfl

theorem eventOutcome_valueless {s : Screen} (hopen : t.run.completed = false)
    (harmed : c.armed.any (·.visit != t.run.visit) = false) (hs : t.run.screen? = some s)
    (hvalues : c.values = []) : eventOutcome rules c t = applyOffered rules s c c.context t := by
  have hnone : transientOf s c t = .done t c.context := by
    unfold transientOf
    rw [if_neg (by simp [hvalues])]
    rfl
  rw [eventOutcome_open rules hopen harmed hs, hnone]
  rfl

theorem eventOutcome_untaken (htaker : t.run.taker? c = none) (values : Fields) :
    eventOutcome rules { c with values } t = eventOutcome rules c t := by
  rw [eventOutcome_apply, eventOutcome_apply]
  cases hopen : t.run.completed with
  | true => rfl
  | false =>
      cases harmed : c.armed.any (·.visit != t.run.visit) with
      | true => rfl
      | false =>
          cases hs : t.run.screen? with
          | none => rfl
          | some s =>
              have hnone : c.element.truthy = true → s.element? c.element = none := by
                intro htruthy
                simpa [Run.taker?, hopen, harmed, htruthy, hs] using htaker
              have hcontext : ∀ values, transientOf s { c with values } = pure c.context := by
                intro values
                unfold transientOf
                split
                · rename_i h
                  rw [hnone (Bool.and_eq_true_iff.mp h).1]
                · rfl
              change (transientOf s { c with values } t).bind _ =
                (transientOf s { c with values := c.values } t).bind _
              rw [hcontext, hcontext]
              rfl

theorem processEvent_apply (c : EventCall) (t : Turn) : processEvent rules c t =
    (eventOutcome rules { c with id := c.id.orElse (.str "") } t).bind fun t' o =>
      .done t' { t'.response t.run o with
        eventId := c.id.orElse (.str "")
        elementId := c.element
        delayed := c.armed.isSome && o != .ignored } :=
  rfl

end Act

end GuidedJourney
