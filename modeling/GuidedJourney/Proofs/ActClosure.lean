import GuidedJourney.Run.Request

namespace GuidedJourney.Act

/-- A property that acts have if their parts have it, and that the parts have which events and entries of
screens are made of. -/
structure Spreads (P : (α : Type) → Act α → Prop) : Prop where
  pure : ∀ {α : Type} (a : α), P α (pure a)
  bind : ∀ {α β : Type} {x : Act α} {f : α → Act β}, P α x → (∀ a, P β (f a)) → P β (x >>= f)
  run : P Run run
  warn : ∀ message, P Unit (warn message)
  release : ∀ r, P Unit (release r)
  record : ∀ event element, P Unit (setRun (·.record event element))
  complete : ∀ reason flowCompleted, P Unit (setRun (·.complete reason flowCompleted))
  moveTo : ∀ s, P Unit (moveTo s)
  allHold : ∀ conditions transient, P Bool (allHold conditions transient)
  performAll : ∀ canCall transient as, P Batch (Action.performAll canCall transient as {})

namespace Spreads

variable {P : (α : Type) → Act α → Prop} (rules : Rules) {α : Type} {enter : Screen → Act Unit}

theorem ite (c : Prop) [Decidable c] {x y : Act α} (hx : P α x) (hy : P α y) :
    P α (if c then x else y) := by
  split
  · exact hx
  · exact hy

theorem conclude (hP : Spreads P) (henter : ∀ s, P Unit (enter s)) (b : Batch) :
    P Unit (conclude enter b) := by
  unfold Act.conclude
  split
  · exact hP.pure ()
  · exact hP.bind (hP.complete _ _) fun _ => hP.release .all
  · rename_i id _
    refine hP.bind hP.run fun r => ?_
    cases r.findScreen? id with
    | none => exact hP.pure ()
    | some s => exact henter s

theorem carryOut (hP : Spreads P) (henter : ∀ s, P Unit (enter s)) (transient : Fields)
    (event element : Value) (as : List Action) {x : Act α} (hx : P α x) : P α (do
      setRun (·.record event element)
      Act.conclude enter (← Action.performAll rules.canCall transient as {})
      x) :=
  hP.bind (hP.record event element) fun _ => hP.bind (hP.performAll rules.canCall transient as) fun b =>
    hP.bind (hP.conclude henter b) fun _ => hx

theorem fireEntryEvents (hP : Spreads P) (henter : ∀ s, P Unit (enter s)) (s : Screen)
    (es : List Event) : P Unit (fireEntryEvents rules enter s es) := by
  induction es with
  | nil => exact hP.pure ()
  | cons e es ih =>
      rw [Act.fireEntryEvents]
      refine ite _ ih (hP.bind hP.run fun r => ite _ (hP.pure ()) ?_)
      refine hP.bind (hP.allHold e.conditions []) fun holds => ite _ ?_ ih
      exact hP.carryOut rules henter [] _ _ e.actions ih

theorem enterWithin (hP : Spreads P) (n : Nat) (s : Screen) : P Unit (enterWithin rules n s) := by
  induction n generalizing s with
  | zero => exact hP.bind (hP.moveTo s) fun _ => hP.warn _
  | succ n ih => exact hP.bind (hP.moveTo s) fun _ => hP.fireEntryEvents rules ih s s.events

theorem applyEvent (hP : Spreads P) (c : EventCall) (e : Event) (transient : Fields) :
    P Outcome (applyEvent rules c e transient) := by
  refine hP.bind (hP.allHold e.conditions transient) fun holds => ite _ ?_ (hP.pure _)
  exact hP.carryOut rules (hP.enterWithin rules _) transient _ _ e.actions (hP.pure _)

end Spreads

end GuidedJourney.Act
