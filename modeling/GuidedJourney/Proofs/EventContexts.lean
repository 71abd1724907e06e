import GuidedJourney.Proofs.UnwritableKeys

namespace GuidedJourney

/-- Every list of conditions comes out the same with either of two contexts, whatever the run is like. -/
def Condition.Indifferent (css : List (List Condition)) (x y : Fields) : Prop :=
  ∀ cs ∈ css, ∀ r : Run, allHold cs (r.context x) = allHold cs (r.context y)

namespace Action

mutual

def allConditions : Action → List (List Condition)
  | .call cs _ onSuccess onError => cs :: (conditionsOf onSuccess ++ conditionsOf onError)
  | .navigate cs _ => [cs]
  | .update cs _ _ => [cs]
  | .close cs _ _ => [cs]
  | .tool cs _ _ => [cs]
  | .unknown cs _ _ => [cs]

def conditionsOf : List Action → List (List Condition)
  | [] => []
  | a :: as => allConditions a ++ conditionsOf as

end

theorem conditions_mem (a : Action) : a.conditions ∈ a.allConditions := by
  cases a <;> exact List.mem_cons_self

end Action

def Event.allConditions (e : Event) : List (List Condition) :=
  e.conditions :: Action.conditionsOf e.actions

def Event.Unconditional (e : Event) : Prop := ∀ cs ∈ e.allConditions, cs = []

instance (e : Event) : Decidable e.Unconditional :=
  decidable_of_iff (e.allConditions.all List.isEmpty = true) (by simp [Event.Unconditional])

namespace Condition.Indifferent

variable {css css' : List (List Condition)} {x y : Fields}

theorem mono (h : Indifferent css x y) (hsub : css' ⊆ css) : Indifferent css' x y :=
  fun cs hcs => h cs (hsub hcs)

theorem append_iff : Indifferent (css ++ css') x y ↔ Indifferent css x y ∧ Indifferent css' x y :=
  List.forall_mem_append

theorem of_nil (h : ∀ cs ∈ css, cs = []) (x y : Fields) : Indifferent css x y := by
  intro cs hcs r
  rw [h cs hcs]
  rfl

theorem allHold {cs : List Condition} (h : Indifferent css x y) (hcs : cs ∈ css) :
    Act.allHold cs x = Act.allHold cs y := by
  funext t
  change Act.ofExcept (Condition.allHold cs (t.run.context x)) t =
    Act.ofExcept (Condition.allHold cs (t.run.context y)) t
  rw [h cs hcs]

end Condition.Indifferent

namespace Action

open Condition (Indifferent)

variable (canCall : Bool) {x y : Fields}

mutual

theorem perform_indifferent : ∀ (a : Action) (b : Batch), Indifferent a.allConditions x y →
    perform canCall x a b = perform canCall y a b
  | .navigate .., b, _ => by rw [perform, perform]
  | .update .., b, _ => by rw [perform, perform]
  | .call cs target onSuccess onError, b, h => by
      rw [allConditions, ← List.singleton_append, Indifferent.append_iff, Indifferent.append_iff] at h
      rw [perform, perform, performAll_indifferent onSuccess b h.2.1,
        performAll_indifferent onError b h.2.2]
  | .close .., b, _ => by rw [perform, perform]
  | .tool .., b, _ => by rw [perform, perform]
  | .unknown .., b, _ => by rw [perform, perform]

/-- Actions whose conditions come out the same are carried out the same. -/
theorem performAll_indifferent : ∀ (as : List Action) (b : Batch), Indifferent (conditionsOf as) x y →
    performAll canCall x as b = performAll canCall y as b
  | [], b, _ => by rw [performAll, performAll]
  | a :: as, b, h => by
      rw [conditionsOf, Indifferent.append_iff] at h
      have hperform := fun b => perform_indifferent a b h.1
      have hrest := fun b => performAll_indifferent as b h.2
      rw [performAll, performAll, h.1.allHold a.conditions_mem]
      simp only [hperform, hrest]

end

end Action

namespace Act

open Condition (Indifferent)

variable (rules : Rules) {x y : Fields}

theorem applyEvent_indifferent {c c' : EventCall} (hid : c.id = c'.id) (helement : c.element = c'.element)
    {e : Event} (h : Indifferent e.allConditions x y) :
    applyEvent rules c e x = applyEvent rules c' e y := by
  have hactions : Action.performAll rules.canCall x e.actions {} =
      Action.performAll rules.canCall y e.actions {} :=
    Action.performAll_indifferent rules.canCall e.actions {} (h.mono (List.subset_cons_self _ _))
  unfold applyEvent
  rw [h.allHold List.mem_cons_self, hid, helement, hactions]

theorem transientOf_context (s : Screen) (c : EventCall) (t : Turn) : ∃ t' given,
    ∀ context, transientOf s { c with context } t = .done t' (Fields.overlay context given) := by
  by_cases hvalues : (c.element.truthy && !c.values.isEmpty) = true
  · cases he : s.element? c.element with
    | none =>
        have hnone : ∀ context, transientOf s { c with context } t = (pure context : Act Fields) t :=
          fun context => by simp only [transientOf, hvalues, he, if_true]
        exact ⟨t, [], hnone⟩
    | some e =>
        have hgive : ∀ context, transientOf s { c with context } t =
            (do return Fields.overlay context (← giveValues e c.values) : Act Fields) t :=
          fun context => by simp only [transientOf, hvalues, he, if_true]
        refine ⟨{ t with run := t.run.gave e c.values, warnings := t.warnings ++ e.refusal c.values },
          (t.run.gave e c.values).givenTo e, fun context => (hgive context).trans ?_⟩
        change (giveValues e c.values t).bind _ = _
        rw [giveValues_apply]
        rfl
  · refine ⟨t, [], fun context => ?_⟩
    unfold transientOf
    rw [if_neg hvalues]
    rfl

end Act

def Value.Readable (context : Value) : Prop := ∃ fields, context.toFields = .ok fields

namespace Timer

def contextless (t : Timer) : Timer :=
  match t.context.toFields with
  | .ok _ => { t with context := .null }
  | .error _ => t

variable {t : Timer}

theorem contextless_of_ok (h : t.context.Readable) : t.contextless = { t with context := .null } := by
  obtain ⟨fields, h⟩ := h
  simp only [contextless, h]

theorem contextless_of_error {f : Fault} (h : t.context.toFields = .error f) : t.contextless = t := by
  simp only [contextless, h]

@[simp] theorem contextless_id (t : Timer) : t.contextless.id = t.id := by
  unfold contextless
  split <;> rfl

@[simp] theorem contextless_owner (t : Timer) : t.contextless.owner = t.owner := by
  unfold contextless
  split <;> rfl

@[simp] theorem contextless_visit (t : Timer) : t.contextless.visit = t.visit := by
  unfold contextless
  split <;> rfl

end Timer

def EventCall.contextless (c : EventCall) : EventCall :=
  { c with context := [], armed := c.armed.map Timer.contextless }

def Request.contextless (q : Request) : Request :=
  match q.demand with
  | .event c => { q with demand := .event c.contextless }
  | _ => q

def Request.context (q : Request) : Fields :=
  match q.demand with
  | .event c => c.context
  | _ => []

def Run.offered? (r : Run) (q : Request) : Option Event :=
  match q.demand with
  | .event c => r.screen?.bind (·.offers? (c.id.orElse (.str "")) c.element)
  | _ => none

/-- The conditions of the event come out the same with the contexts of both requests, whatever the run is
like and whatever the element has been given. -/
def Event.Indifferent (e : Event) (q q' : Request) : Prop :=
  ∀ given, Condition.Indifferent e.allConditions (Fields.overlay q.context given)
    (Fields.overlay q'.context given)

theorem Event.Unconditional.indifferent {e : Event} (h : e.Unconditional) (q q' : Request) :
    e.Indifferent q q' :=
  fun _ => .of_nil h _ _

theorem EventCall.contextless_any {c c' : EventCall} (h : c.contextless = c'.contextless) (visit : Nat) :
    c.armed.any (·.visit != visit) = c'.armed.any (·.visit != visit) := by
  have hany : ∀ c : EventCall, c.armed.any (·.visit != visit) =
      c.contextless.armed.any (·.visit != visit) := by
    intro c
    cases hc : c.armed with
    | none => simp [contextless, hc]
    | some t => simp [contextless, hc]
  rw [hany c, hany c', h]

namespace Act

variable (rules : Rules) {t : Turn}

theorem eventOutcome_indifferent {c c' : EventCall} (h : c.contextless = c'.contextless)
    (hoffered : ∀ s e, t.run.screen? = some s → s.offers? c.id c.element = some e → ∀ given,
      Condition.Indifferent e.allConditions (Fields.overlay c.context given)
        (Fields.overlay c'.context given)) :
    eventOutcome rules c t = eventOutcome rules c' t := by
  obtain ⟨id, element, x, values, armed⟩ := c
  obtain ⟨id', element', y, values', armed'⟩ := c'
  have hany := EventCall.contextless_any h t.run.visit
  simp only [EventCall.contextless, EventCall.mk.injEq] at h
  obtain ⟨rfl, rfl, -, rfl, -⟩ := h
  rw [eventOutcome_apply, eventOutcome_apply, hany]
  cases hs : t.run.screen? with
  | none => rfl
  | some s =>
      obtain ⟨t', given, htransient⟩ := transientOf_context s ⟨id, element, x, values, armed⟩ t
      have happly : applyOffered rules s ⟨id, element, x, values, armed⟩ (Fields.overlay x given) =
          applyOffered rules s ⟨id, element, y, values, armed'⟩ (Fields.overlay y given) := by
        unfold applyOffered
        dsimp only
        cases he : s.offers? id element with
        | none => rfl
        | some e => exact applyEvent_indifferent rules rfl rfl (hoffered s e hs he given)
      have hcarry : ((transientOf s ⟨id, element, x, values, armed⟩ t).bind fun t transient =>
            applyOffered rules s ⟨id, element, x, values, armed⟩ transient t) =
          (transientOf s ⟨id, element, y, values, armed⟩ t).bind fun t transient =>
            applyOffered rules s ⟨id, element, y, values, armed'⟩ transient t := by
        have hx : transientOf s ⟨id, element, x, values, armed⟩ t = _ := htransient x
        have hy : transientOf s ⟨id, element, y, values, armed⟩ t = _ := htransient y
        rw [hx, hy]
        exact congrFun happly t'
      dsimp only
      split
      · rfl
      · split
        · rfl
        · exact hcarry

end Act

namespace Request

variable {q q' : Request}

theorem contextless_cases (h : q.contextless = q'.contextless) : q = q' ∨ ∃ c c' tally,
    q = ⟨.event c, tally⟩ ∧ q' = ⟨.event c', tally⟩ ∧ c.contextless = c'.contextless := by
  obtain ⟨d, tally⟩ := q
  obtain ⟨d', tally'⟩ := q'
  cases d with
  | event c =>
      cases d' with
      | event c' =>
          obtain rfl : tally = tally' := congrArg Request.tally h
          exact .inr ⟨c, c', tally, rfl, rfl, Demand.event.inj (congrArg Request.demand h)⟩
      | _ => cases congrArg Request.demand h
  | _ =>
      cases d' with
      | event c' => cases congrArg Request.demand h
      | _ => exact .inl h

/-- Two requests that differ in their contexts at most come to the same, whatever services reply, if all
conditions of the event on offer come out the same with both. -/
theorem process_indifferent (rules : Rules) (h : q.contextless = q'.contextless) {r : Run}
    (hoffered : ∀ e, r.offered? q = some e → e.Indifferent q q') :
    q.process rules { run := r } = q'.process rules { run := r } := by
  rcases contextless_cases h with rfl | ⟨⟨id, element, x, values, armed⟩, ⟨id', element', y, values', armed'⟩,
    tally, rfl, rfl, hc⟩
  · rfl
  · simp only [EventCall.contextless, EventCall.mk.injEq] at hc
    obtain ⟨rfl, rfl, -, rfl, harmed⟩ := hc
    obtain ⟨store, hprocess⟩ := process_event rules r tally
    have hdelayed : armed.isSome = armed'.isSome := by
      simpa using congrArg Option.isSome harmed
    have hnamed : EventCall.contextless ⟨id.orElse (.str ""), element, x, values, armed⟩ =
        EventCall.contextless ⟨id.orElse (.str ""), element, y, values, armed'⟩ := by
      simp only [EventCall.contextless, harmed]
    have houtcome := Act.eventOutcome_indifferent rules (t := { run := { r with store } }) hnamed
      fun s e hs he => by
        refine hoffered e ?_
        have hscreen : r.screen? = some s := hs
        simp only [Run.offered?, hscreen, Option.bind_some]
        exact he
    rw [hprocess, hprocess, Act.processEvent_apply, Act.processEvent_apply]
    dsimp only
    rw [houtcome, hdelayed]

end Request

end GuidedJourney
