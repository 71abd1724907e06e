import GuidedJourney.Proofs.Refusals

namespace GuidedJourney

/-- Writes that were made at one place, with the run as it was then. -/
structure Commit where
  run : Run
  writes : List StateWrite

/-- An event that has fired, with the run as it found it and what its actions have written. -/
structure Firing extends Commit where
  event : Value
  element : Value

namespace Turn

section

variable (rules : Rules) (enters : Screen → Turn → List Firing → Turn → Prop)

/-- How the ending of a batch is seen to; only a navigation makes more events fire. -/
def Concludes (b : Batch) (t : Turn) (fs : List Firing) (t' : Turn) : Prop :=
  match b.ending with
  | .exhausted => fs = [] ∧ t' = t
  | .close reason flowCompleted => fs = [] ∧ t' = t.close ⟨reason, flowCompleted⟩
  | .navigate id =>
    match t.run.findScreen? id with
    | some s => enters s t fs t'
    | none => fs = [] ∧ t' = t

/-- An event fires: it is put on record, its actions are carried out, and what they end in is seen to. -/
inductive CarriesOut (event element : Value) (transient : Fields) (as : List Action) (t : Turn) :
    List Firing → Turn → Prop
  | mk {t₁ t' : Turn} {b : Batch} {ws : List StateWrite} {fs : List Firing}
      (hactions : (Action.performAll rules.canCall transient as {}
        { t with run := t.run.record event element }).Reaches (.done t₁ b))
      (hwrites : t₁.writes = t.writes ++ ws) (hends : Concludes enters b t₁ fs t') :
      CarriesOut event element transient as t (⟨⟨t.run, ws⟩, event, element⟩ :: fs) t'

/-- How the entry events of the screen `s` fire one after another, as long as the run is not over and
stays there. -/
inductive Fires (s : Screen) : List Event → Turn → List Firing → Turn → Prop
  | nil (t : Turn) : Fires s [] t [] t
  | other {e : Event} {es : List Event} {t t' : Turn} {fs : List Firing}
      (he : Act.isEntryEvent rules e = false) (h : Fires s es t fs t') : Fires s (e :: es) t fs t'
  | left {e : Event} {es : List Event} {t : Turn} (he : Act.isEntryEvent rules e = true)
      (hleft : t.run.completed = true ∨ t.run.screenId ≠ some s.id) : Fires s (e :: es) t [] t
  | unmet {e : Event} {es : List Event} {t t' : Turn} {fs : List Firing}
      (he : Act.isEntryEvent rules e = true) (hopen : t.run.completed = false)
      (hon : t.run.screenId = some s.id)
      (hunmet : Condition.allHold e.conditions (t.run.context []) = .ok false)
      (h : Fires s es t fs t') : Fires s (e :: es) t fs t'
  | fired {e : Event} {es : List Event} {t t₁ t' : Turn} {fs fs' : List Firing}
      (he : Act.isEntryEvent rules e = true) (hopen : t.run.completed = false)
      (hon : t.run.screenId = some s.id)
      (hmet : Condition.allHold e.conditions (t.run.context []) = .ok true)
      (h : CarriesOut rules enters (.str e.id) .null [] e.actions t fs t₁)
      (hrest : Fires s es t₁ fs' t') : Fires s (e :: es) t (fs ++ fs') t'

end

variable (rules : Rules)

def Visits : Nat → Screen → Turn → List Firing → Turn → Prop
  | 0, s, t, fs, t' => fs = [] ∧
    t' = { t.moveTo s with
      warnings := (t.moveTo s).warnings ++ ["Entry event chain limit reached at " ++ s.id] }
  | n + 1, s, t, fs, t' => Fires rules (Visits n) s s.events (t.moveTo s) fs t'

end Turn

def EventCall.named (c : EventCall) : EventCall := { c with id := c.id.orElse (.str "") }

def Demand.isQuiet : Demand → Bool
  | .back | .write .. | .terminate .. => true
  | .start | .event _ | .handoff _ => false

/-- The events that a demand makes fire, in order, and the turn that comes of it. -/
inductive Demand.Fires (rules : Rules) (t : Turn) : Demand → List Firing → Turn → Prop
  | ignored {d : Demand} (hd : d ≠ .start) (hover : t.run.completed = true) : Fires rules t d [] t
  | unstarted (hs : t.run.agent?.bind (·.screens.head?) = none) : Fires rules t .start [] t
  | started {s : Screen} {fs : List Firing} {t' : Turn}
      (hs : t.run.agent?.bind (·.screens.head?) = some s)
      (h : Turn.Visits rules rules.interpreter.maxChainedEntries s t fs t') :
      Fires rules t .start fs t'
  | refused {c : EventCall} {outcome : Outcome} {t' : Turn} (hopen : t.run.completed = false)
      (h : Act.eventOutcome rules c.named t = .done t' outcome) (ho : outcome ≠ .applied) :
      Fires rules t (.event c) [] t'
  | applied {c : EventCall} {e : Event} {transient : Fields} {fs : List Firing} {t₁ t' : Turn}
      (hoffered : Act.Offered c.named t e transient t₁)
      (hmet : Condition.allHold e.conditions (t₁.run.context transient) = .ok true)
      (h : Turn.CarriesOut rules (Turn.Visits rules rules.interpreter.maxChainedEntries) c.named.id
        c.element transient e.actions t₁ fs t') : Fires rules t (.event c) fs t'
  | unreached {id : Value} (hopen : t.run.completed = false)
      (ha : Act.handoffTarget? t.run id = none) (message : String) :
      Fires rules t (.handoff id) [] { t with warnings := t.warnings ++ [message] }
  | left {id : Value} {a : Agent} (hopen : t.run.completed = false)
      (ha : Act.handoffTarget? t.run id = some a) (hs : a.screens.head? = none) :
      Fires rules t (.handoff id) [] { t.handTo a with run := (t.handTo a).run.leave }
  | handed {id : Value} {a : Agent} {s : Screen} {fs : List Firing} {t' : Turn}
      (hopen : t.run.completed = false) (ha : Act.handoffTarget? t.run id = some a)
      (hs : a.screens.head? = some s)
      (h : Turn.Visits rules rules.interpreter.maxChainedEntries s (t.handTo a) fs t') :
      Fires rules t (.handoff id) fs t'
  | quiet {d : Demand} {t' : Turn} {o : Response} (hopen : t.run.completed = false)
      (hd : d.isQuiet = true) (h : d.Ends t t' o) : Fires rules t d [] t'

namespace Act

variable (rules : Rules) {α : Type} {t t' : Turn}
  {enter : Screen → Act Unit} {enters : Screen → Turn → List Firing → Turn → Prop}

def Told (enter : Screen → Act Unit) (enters : Screen → Turn → List Firing → Turn → Prop) : Prop :=
  ∀ s t t', (enter s t).Reaches (.done t' ()) → ∃ fs, enters s t fs t'

theorem conclude_done (henter : Told enter enters) {b : Batch}
    (h : (conclude enter b t).Reaches (.done t' ())) : ∃ fs, t.Concludes enters b fs t' := by
  unfold conclude at h
  unfold Turn.Concludes
  cases he : b.ending with
  | exhausted =>
      rw [he] at h
      cases h
      exact ⟨[], rfl, rfl⟩
  | close reason flowCompleted =>
      rw [he] at h
      cases h
      exact ⟨[], rfl, rfl⟩
  | navigate id =>
      rw [he] at h
      change ((match t.run.findScreen? id with
        | some s => enter s
        | none => pure () : Act Unit) t).Reaches _ at h
      dsimp only
      cases hs : t.run.findScreen? id with
      | none =>
          rw [hs] at h
          cases h
          exact ⟨[], rfl, rfl⟩
      | some s =>
          rw [hs] at h
          exact henter s t t' h

theorem performAll_writes {canCall : Bool} {transient : Fields} {as : List Action} {b : Batch}
    (h : (Action.performAll canCall transient as {} t).Reaches (.done t' b)) :
    (t.Kept t' ∧ t'.entered = t.entered) ∧ ∃ ws, t'.writes = t.writes ++ ws := by
  have hgoes := Action.performAll_goes canCall transient as {} t (List.Subset.refl _) (.fresh t.run _)
  refine Work.Goes.turn
    (I := fun t' => (t.Kept t' ∧ t'.entered = t.entered) ∧ ∃ ws, t'.writes = t.writes ++ ws) hgoes
    (fun t₁ t₂ h₁ hj => ?_) (fun _ h => h) ⟨⟨.refl t, rfl⟩, [], (List.append_nil _).symm⟩ h
  obtain ⟨⟨hkept, hentered⟩, ws, hws⟩ := h₁
  refine ⟨⟨hkept.trans hj.kept, hj.entered.trans hentered⟩, ?_⟩
  cases hj with
  | write w hw => exact ⟨ws ++ [w], by rw [← List.append_assoc, ← hws]⟩
  | _ => exact ⟨ws, hws⟩

theorem carryOut_done (henter : Told enter enters) {event element : Value} {transient : Fields}
    {as : List Action} {x : Act α} {a : α} (h : ((do
      setRun (·.record event element)
      conclude enter (← Action.performAll rules.canCall transient as {})
      x : Act α) t).Reaches (.done t' a)) :
    ∃ fs t₁, t.CarriesOut rules enters event element transient as fs t₁ ∧
      (x t₁).Reaches (.done t' a) := by
  obtain ⟨t₁, b, hactions, h⟩ := Work.Reaches.bind_done
    (w := Action.performAll rules.canCall transient as {} { t with run := t.run.record event element }) h
  obtain ⟨t₂, _, hconclude, h⟩ := h.bind_done
  obtain ⟨-, ws, hws⟩ := performAll_writes hactions
  obtain ⟨fs, hends⟩ := conclude_done henter hconclude
  exact ⟨_, t₂, .mk hactions hws hends, h⟩

theorem fireEntryEvents_done (henter : Told enter enters) {s : Screen} {es : List Event}
    (h : (fireEntryEvents rules enter s es t).Reaches (.done t' ())) :
    ∃ fs, Turn.Fires rules enters s es t fs t' := by
  induction es generalizing t with
  | nil =>
      cases h
      exact ⟨[], .nil _⟩
  | cons e es ih =>
      rw [fireEntryEvents] at h
      cases he : isEntryEvent rules e with
      | false =>
          rw [he] at h
          obtain ⟨fs, hfires⟩ := ih h
          exact ⟨fs, .other he hfires⟩
      | true =>
          rw [he] at h
          change ((if (t.run.completed || t.run.screenId != some s.id) = true then pure ()
            else do
              if ← allHold e.conditions [] then do
                setRun (·.record (.str e.id) .null)
                conclude enter (← Action.performAll rules.canCall [] e.actions {})
                fireEntryEvents rules enter s es
              else fireEntryEvents rules enter s es : Act Unit) t).Reaches _ at h
          split at h
          · rename_i hleft
            cases h
            exact ⟨[], .left he (by simpa using hleft)⟩
          · rename_i hstays
            simp only [Bool.or_eq_true, not_or, Bool.not_eq_true, bne_eq_false_iff_eq] at hstays
            change ((ofExcept (Condition.allHold e.conditions (t.run.context [])) t).bind _).Reaches _ at h
            cases hc : Condition.allHold e.conditions (t.run.context []) with
            | error f =>
                rw [hc] at h
                cases h
            | ok holds =>
                rw [hc] at h
                cases holds with
                | false =>
                    obtain ⟨fs, hfires⟩ := ih h
                    exact ⟨fs, .unmet he hstays.1 hstays.2 hc hfires⟩
                | true =>
                    -- The other events are tried from wherever this one has led.
                    obtain ⟨fs, t₁, hcarries, h⟩ := carryOut_done rules henter h
                    obtain ⟨fs', hfires⟩ := ih h
                    exact ⟨fs ++ fs', .fired he hstays.1 hstays.2 hc hcarries hfires⟩

theorem enterWithin_done (n : Nat) : Told (enterWithin rules n) (Turn.Visits rules n) := by
  induction n with
  | zero =>
      intro s t t' h
      rw [enterWithin_apply] at h
      cases h
      exact ⟨[], rfl, rfl⟩
  | succ n ih =>
      intro s t t' h
      rw [enterWithin_apply] at h
      exact fireEntryEvents_done rules ih h

theorem settled_done {s : Screen} {answer : Turn → Response} {o : Response}
    (h : ((settleIn rules rules.interpreter.maxChainedEntries s (t.moveTo s)).bind
      fun t' _ => .done t' (answer t')).Reaches (.done t' o)) :
    ∃ fs, Turn.Visits rules rules.interpreter.maxChainedEntries s t fs t' := by
  obtain ⟨t₁, _, hreaches, h⟩ := h.bind_done
  cases h
  rw [← enterWithin_apply] at hreaches
  exact enterWithin_done rules _ s t t' hreaches

theorem eventOutcome_applied {c : EventCall}
    (h : (eventOutcome rules c t).Reaches (.done t' .applied)) :
    ∃ e transient t₁ fs, Offered c t e transient t₁ ∧
      Condition.allHold e.conditions (t₁.run.context transient) = .ok true ∧
      t₁.CarriesOut rules (Turn.Visits rules rules.interpreter.maxChainedEntries) c.id c.element
        transient e.actions fs t' := by
  rcases eventOutcome_cases rules c t with
    ⟨f, he⟩ | ⟨_, o, ho, -, he⟩ | ⟨t₁, e, transient, hoffered, he⟩
  · rw [he] at h
    cases h
  · rw [he] at h
    cases h
    exact absurd rfl ho
  · rw [he] at h
    rcases applyEvent_cases rules c e transient t₁ with ⟨f, hf⟩ | hf | hmet
    · rw [hf] at h
      cases h
    · rw [hf] at h
      cases h
    · rw [applyEvent_holds rules c hmet] at h
      change ((do
        setRun (·.record c.id c.element)
        conclude (enter rules) (← Action.performAll rules.canCall transient e.actions {})
        return .applied : Act Outcome) t₁).Reaches _ at h
      obtain ⟨fs, t₂, hcarries, h⟩ := carryOut_done rules (enterWithin_done rules _) h
      cases h
      exact ⟨e, transient, t₁, fs, hoffered, hmet, hcarries⟩

end Act

/-- Whatever a demand ends in has come about by events that it has made fire. -/
theorem Demand.fires (rules : Rules) {d : Demand} {t t' : Turn} {o : Response}
    (h : (d.process rules t).Reaches (.done t' o)) : ∃ fs, d.Fires rules t fs t' := by
  by_cases hover : t.run.completed = true ∧ d ≠ .start
  · -- Once the run is over, only a start does anything.
    obtain ⟨o', he, -⟩ := Request.process_over rules (q := ⟨d, none⟩) hover.2 hover.1
    have hover' : d.process rules t = .done t o' :=
      (Request.process_apply rules ⟨d, none⟩ t).symm.trans he
    rw [hover'] at h
    cases h
    exact ⟨[], .ignored hover.2 hover.1⟩
  · cases d with
    | start =>
        change (Act.processStart rules t).Reaches _ at h
        cases hs : t.run.agent?.bind (·.screens.head?) with
        | none =>
            rw [Act.processStart_none rules hs] at h
            cases h
            exact ⟨[], .unstarted hs⟩
        | some s =>
            rw [Act.processStart_first rules hs] at h
            obtain ⟨fs, hvisits⟩ := Act.settled_done rules h
            exact ⟨fs, .started hs hvisits⟩
    | event c =>
        change (Act.processEvent rules c t).Reaches _ at h
        rw [Act.processEvent_apply] at h
        obtain ⟨t₁, outcome, houtcome, h⟩ := h.bind_done
        cases h
        by_cases ho : outcome = .applied
        · subst ho
          obtain ⟨e, transient, t₁, fs, hoffered, hmet, hcarries⟩ :=
            Act.eventOutcome_applied rules (c := c.named) houtcome
          exact ⟨fs, .applied hoffered hmet hcarries⟩
        · obtain ⟨he, -⟩ := Act.eventOutcome_refused rules houtcome ho
          have hopen : t.run.completed = false := by simpa using hover
          exact ⟨[], .refused hopen he ho⟩
    | handoff id =>
        have hopen : t.run.completed = false := by simpa using hover
        change (Act.processHandoff rules id t).Reaches _ at h
        rcases Act.processHandoff_open rules id hopen with
          ⟨f, -, -, he⟩ | ⟨message, ha, he⟩ | ⟨a, ha, he⟩
        · rw [he] at h
          cases h
        · rw [he] at h
          cases h
          exact ⟨[], .unreached hopen ha message⟩
        · rw [he] at h
          cases hs : a.screens.head? with
          | none =>
              rw [Act.handTo_none rules hs] at h
              cases h
              exact ⟨[], .left hopen ha hs⟩
          | some s =>
              rw [Act.handTo_first rules hs] at h
              obtain ⟨fs, hvisits⟩ := Act.settled_done rules (t := t.handTo a) h
              exact ⟨fs, .handed hopen ha hs hvisits⟩
    | back | write label ws | terminate reason flowCompleted =>
        have hopen : t.run.completed = false := by simpa using hover
        exact ⟨[], .quiet hopen rfl (Demand.ends rules hopen h)⟩

structure Firing.Leaves (f : Firing) (t t' : Turn) : Prop where
  found : f.run = t.run
  kept : ∃ store, t'.run = { t.run.record f.event f.element with store }
  entered : t'.entered = t.entered
  writes : t'.writes = t.writes ++ f.writes

namespace Turn

/-- A relation between two turns and the events that have fired in between holds all along the way if it
holds on each part of it. -/
structure Composes (P : Turn → List Firing → Turn → Prop) : Prop where
  refl : ∀ t, P t [] t
  trans : ∀ {t t₁ t' fs fs'}, P t fs t₁ → P t₁ fs' t' → P t (fs ++ fs') t'
  warn : ∀ message t, P t [] { t with warnings := t.warnings ++ [message] }
  move : ∀ s t, P t [] (t.moveTo s)
  close : ∀ c t, P t [] (t.close c)
  fire : ∀ {f t t'}, f.Leaves t t' → P t [f] t'

namespace Composes

variable {P : Turn → List Firing → Turn → Prop} {rules : Rules} {t t' : Turn} {fs : List Firing}
  {enters : Screen → Turn → List Firing → Turn → Prop}

theorem concludes (hP : Composes P) (henters : ∀ {s t fs t'}, enters s t fs t' → P t fs t') {b : Batch}
    (h : t.Concludes enters b fs t') : P t fs t' := by
  unfold Concludes at h
  cases he : b.ending with
  | exhausted =>
      rw [he] at h
      obtain ⟨rfl, rfl⟩ := h
      exact hP.refl _
  | close reason flowCompleted =>
      rw [he] at h
      obtain ⟨rfl, rfl⟩ := h
      exact hP.close _ t
  | navigate id =>
      rw [he] at h
      dsimp only at h
      cases hs : t.run.findScreen? id with
      | none =>
          rw [hs] at h
          obtain ⟨rfl, rfl⟩ := h
          exact hP.refl _
      | some s =>
          rw [hs] at h
          exact henters h

theorem carriesOut (hP : Composes P) (henters : ∀ {s t fs t'}, enters s t fs t' → P t fs t')
    {event element : Value} {transient : Fields} {as : List Action}
    (h : t.CarriesOut rules enters event element transient as fs t') : P t fs t' := by
  cases h with
  | @mk t₁ _ b ws _ hactions hwrites hends =>
      obtain ⟨⟨hkept, hentered⟩, -⟩ := Act.performAll_writes hactions
      have hfire : P t [⟨⟨t.run, ws⟩, event, element⟩] t₁ := hP.fire ⟨rfl, hkept, hentered, hwrites⟩
      exact hP.trans hfire (hP.concludes henters hends)

theorem fires (hP : Composes P) (henters : ∀ {s t fs t'}, enters s t fs t' → P t fs t') {s : Screen}
    {es : List Event} (h : Fires rules enters s es t fs t') : P t fs t' := by
  induction h with
  | nil t => exact hP.refl t
  | other _ _ ih => exact ih
  | left => exact hP.refl _
  | unmet _ _ _ _ _ ih => exact ih
  | fired _ _ _ _ h _ ih => exact hP.trans (hP.carriesOut henters h) ih

theorem visits (hP : Composes P) {n : Nat} {s : Screen} (h : Visits rules n s t fs t') : P t fs t' := by
  induction n generalizing s t fs t' with
  | zero =>
      obtain ⟨rfl, rfl⟩ := h
      exact hP.trans (hP.move s t) (hP.warn _ _)
  | succ n ih => exact hP.trans (hP.move s t) (hP.fires ih h)

end Composes

end Turn

end GuidedJourney
