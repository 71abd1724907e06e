import GuidedJourney.Proofs.ActClosure
import GuidedJourney.Proofs.GivenValues
import GuidedJourney.Proofs.RequestChange

namespace GuidedJourney

/-- No values were given: the turn is still on its visit, with those given before, or on a later one
without any. -/
def Turn.Ungiving (t t' : Turn) : Prop :=
  (t'.run.visit = t.run.visit ∧ t'.run.interactions = t.run.interactions ∧ t'.entered = t.entered) ∨
    (t.run.visit < t'.run.visit ∧ t'.run.interactions = [])

theorem Turn.Jot.ungiving {t t' : Turn} (h : t.Jot t') : t.Ungiving t' := by
  cases h <;> exact .inl ⟨rfl, rfl, rfl⟩

theorem Turn.moveTo_ungiving (s : Screen) (t : Turn) : t.Ungiving (t.moveTo s) :=
  .inr ⟨Nat.lt_succ_self _, rfl⟩

theorem Turn.Move.interactions {t t' : Turn} (h : t.Move t') : t'.run.interactions = [] := by
  cases h <;> rfl

namespace Act

variable {α β : Type}

def Ungiving (x : Act α) : Prop := ∀ t, x.Goes Turn.Ungiving (fun _ _ => True) t

namespace Ungiving

theorem bind {x : Act α} {f : α → Act β} (hx : x.Ungiving) (hf : ∀ a, (f a).Ungiving) :
    (x >>= f).Ungiving :=
  fun t => (hx t).bind fun t' a _ => hf a t'

theorem pure (a : α) : (pure a : Act α).Ungiving := fun _ => ⟨.refl, trivial⟩

theorem ite {c : Prop} [Decidable c] {x y : Act α} (hx : x.Ungiving) (hy : y.Ungiving) :
    (if c then x else y).Ungiving := by
  split
  · exact hx
  · exact hy

theorem modify {f : Turn → Turn} (h : ∀ t : Turn, t.Ungiving (f t)) : (modify f).Ungiving :=
  fun t => ⟨.single (h t), trivial⟩

theorem of_jots {Q : Turn → Turn → α → Prop} {x : Act α} (h : ∀ t, x.Goes Turn.Jot (Q t) t) :
    x.Ungiving :=
  fun t => Work.Goes.mono (h t) (fun _ _ hj => hj.ungiving) fun _ _ _ => trivial

theorem run : Act.run.Ungiving := fun _ => ⟨.refl, trivial⟩

theorem ofExcept (x : Except Fault α) : (Act.ofExcept x).Ungiving :=
  fun _ => (ofExcept_goes x).mono fun _ _ _ => trivial

end Ungiving

theorem allHold_ungiving (conditions : List Condition) (transient : Fields) :
    (allHold conditions transient).Ungiving :=
  fun _ => (allHold_goes conditions transient).mono fun _ _ _ => trivial

theorem performAll_ungiving (canCall : Bool) (transient : Fields) (as : List Action) :
    (Action.performAll canCall transient as {}).Ungiving :=
  .of_jots fun t => Action.performAll_goes canCall transient as {} t (List.Subset.refl _) (.fresh _ _)

variable (rules : Rules)

theorem warn_ungiving (message : String) : (warn message).Ungiving :=
  .modify fun _ => .inl ⟨rfl, rfl, rfl⟩

theorem ungiving_spreads : Spreads fun _ x => x.Ungiving where
  pure := .pure
  bind := .bind
  run := .run
  warn := warn_ungiving
  release _ := .modify fun _ => .inl ⟨rfl, rfl, rfl⟩
  record _ _ := .modify fun _ => .inl ⟨rfl, rfl, rfl⟩
  complete _ _ := .modify fun _ => .inl ⟨rfl, rfl, rfl⟩
  moveTo s t := by
    rw [Goes, moveTo_apply]
    exact ⟨.single (t.moveTo_ungiving s), trivial⟩
  allHold := allHold_ungiving
  performAll := performAll_ungiving

theorem applyOffered_ungiving (s : Screen) (c : EventCall) (transient : Fields) :
    (applyOffered rules s c transient).Ungiving := by
  unfold applyOffered
  split
  · exact ungiving_spreads.applyEvent rules c _ transient
  · exact .pure _

theorem respond_ungiving (before : Run) (outcome : Outcome) : (respond before outcome).Ungiving :=
  fun _ => ⟨.refl, trivial⟩

end Act

theorem Demand.process_ungiving (rules : Rules) {d : Demand} (hd : ∀ c, d ≠ .event c) :
    (d.process rules).Ungiving := by
  have hstay : ∀ {f : Turn → Turn}, (∀ t, (f t).run.visit = t.run.visit ∧
      (f t).run.interactions = t.run.interactions ∧ (f t).entered = t.entered) →
      (Act.modify f).Ungiving := fun h => .modify fun t => .inl (h t)
  have hrelease : ∀ r, (Act.release r).Ungiving := fun r => hstay fun _ => ⟨rfl, rfl, rfl⟩
  cases d with
  | start =>
      refine Act.Ungiving.run.bind fun before => ?_
      cases before.agent?.bind (·.screens.head?) with
      | none => exact Act.respond_ungiving _ _
      | some s => exact (Act.ungiving_spreads.enterWithin rules _ s).bind fun _ => Act.respond_ungiving _ _
  | event c => exact absurd rfl (hd c)
  | back =>
      refine Act.Ungiving.run.bind fun before => .ite (Act.respond_ungiving _ _) ?_
      cases Act.previousScreen before with
      | error message => exact (Act.warn_ungiving message).bind fun _ => Act.respond_ungiving _ _
      | ok s =>
          refine (hrelease _).bind fun _ => Act.Ungiving.bind (.modify fun t => ?_) fun _ =>
            Act.respond_ungiving _ _
          exact .inr ⟨Nat.lt_succ_self _, rfl⟩
  | handoff id =>
      refine Act.Ungiving.run.bind fun before => .ite (Act.respond_ungiving _ _) ?_
      cases Act.handoffTarget? before id with
      | none =>
          exact (Act.Ungiving.ofExcept _).bind fun _ => (Act.warn_ungiving _).bind fun _ =>
            Act.respond_ungiving _ _
      | some a =>
          have hhand : (Act.handTo rules a).Ungiving := by
            refine (hrelease _).bind fun _ => Act.Ungiving.bind (hstay fun _ => ⟨rfl, rfl, rfl⟩) fun _ => ?_
            cases a.screens.head? with
            | none => exact .modify fun t => .inr ⟨Nat.lt_succ_self _, rfl⟩
            | some s => exact Act.ungiving_spreads.enterWithin rules _ s
          exact hhand.bind fun _ => (Act.respond_ungiving _ _).bind fun _ => .pure _
  | write label writes =>
      refine Act.Ungiving.run.bind fun before => .ite ((Act.respond_ungiving _ _).bind fun _ => .pure _) ?_
      refine (Act.Ungiving.of_jots fun t => Act.writeAll_goes writes t).bind fun _ => ?_
      exact (Act.respond_ungiving _ _).bind fun _ => .pure _
  | terminate reason flowCompleted =>
      refine Act.Ungiving.run.bind fun before => .ite (Act.respond_ungiving _ _) ?_
      refine Act.Ungiving.bind (hstay fun _ => ⟨rfl, rfl, rfl⟩) fun _ => (hrelease _).bind fun _ => ?_
      exact Act.respond_ungiving _ _

theorem Act.eventOutcome_ungiving (rules : Rules) {c : EventCall} (hvalues : c.values = []) :
    (eventOutcome rules c).Ungiving := by
  intro t
  have hcontext : ∀ s, transientOf s c = pure c.context := by
    intro s
    unfold transientOf
    rw [if_neg (by simp [hvalues])]
  refine Ungiving.run.bind (fun r => .ite (.pure _) (.ite ?_ ?_)) t
  · exact (Ungiving.ofExcept _).bind fun _ => (warn_ungiving _).bind fun _ => .pure _
  · cases r.screen? with
    | none => exact (warn_ungiving _).bind fun _ => .pure _
    | some s =>
        dsimp only
        rw [hcontext]
        exact applyOffered_ungiving rules s c c.context

namespace Run

def given (r : Run) : Demand → Run
  | .event c => (r.taker? c).elim r fun e => r.gave e c.values
  | _ => r

theorem given_kept (r : Run) (d : Demand) : ∃ interactions, r.given d = { r with interactions } := by
  cases d with
  | event c =>
      rw [given]
      cases r.taker? c with
      | none => exact ⟨r.interactions, rfl⟩
      | some e => exact r.gave_kept e c.values
  | _ => exact ⟨r.interactions, rfl⟩

theorem given_interactions (r : Run) (store : Store) (d : Demand) :
    ({ r with store }.given d).interactions = (r.given d).interactions := by
  cases d with
  | event c =>
      have htaker : Run.taker? { r with store } c = r.taker? c := rfl
      rw [given, given, htaker]
      cases r.taker? c with
      | none => rfl
      | some e =>
          rw [Option.elim_some, Option.elim_some, gave, gave]
          split
          · rfl
          · rfl
  | _ => rfl

end Run

theorem Act.processEvent_given (rules : Rules) (c : EventCall) (r : Run) : ∃ warnings,
    (processEvent rules c { run := r }).Goes Turn.Ungiving (fun _ _ => True)
      { run := r.given (.event c), warnings } := by
  have hbind : ∀ {t : Turn} {w : Work Outcome} (answer : Turn → Outcome → Response),
      w.Goes Turn.Ungiving (fun _ _ => True) t →
      (w.bind fun t' o => .done t' (answer t' o)).Goes Turn.Ungiving (fun _ _ => True) t :=
    fun _ hw => hw.bind fun _ _ _ => ⟨.refl, trivial⟩
  have hplain : ∀ {c : EventCall}, c.values = [] →
      (eventOutcome rules c { run := r }).Goes Turn.Ungiving (fun _ _ => True) { run := r } :=
    fun hvalues => eventOutcome_ungiving rules hvalues _
  rw [processEvent_apply]
  cases htaker : r.taker? c with
  | none =>
      refine ⟨[], hbind _ ?_⟩
      rw [Run.given, htaker, Option.elim_none, ← eventOutcome_untaken rules
        (t := { run := r }) (c := { c with id := c.id.orElse (.str "") }) htaker []]
      exact hplain rfl
  | some e =>
      by_cases hvalues : c.values = []
      · refine ⟨[], hbind _ ?_⟩
        have hnone : r.gave e c.values = r := by
          rw [hvalues]
          rfl
        rw [Run.given, htaker, Option.elim_some, hnone]
        exact hplain (c := { c with id := c.id.orElse (.str "") }) hvalues
      · obtain ⟨s, -, he⟩ := eventOutcome_taken rules (t := { run := r })
          (c := { c with id := c.id.orElse (.str "") }) htaker hvalues
        refine ⟨[] ++ e.refusal c.values, hbind _ ?_⟩
        rw [Run.given, htaker, he]
        exact applyOffered_ungiving rules s _ _ _

theorem Demand.process_given (rules : Rules) (d : Demand) (r : Run) : ∃ warnings,
    (d.process rules { run := r }).Goes Turn.Ungiving (fun _ _ => True)
      { run := r.given d, warnings } := by
  cases d with
  | event c => exact Act.processEvent_given rules c r
  | start | back | handoff _ | write _ _ | terminate _ _ =>
      exact ⟨[], Demand.process_ungiving rules (fun _ => Demand.noConfusion) _⟩

/-- However far a request has come, the run is still on its visit, with the values that came with the
request given and no screen entered, or on a later visit with none given. -/
theorem Request.process_given (rules : Rules) {q : Request} {r : Run} {w : Work Response}
    (h : (q.process rules { run := r }).Reaches w) :
    (w.turn.run.visit = r.visit ∧ w.turn.run.interactions = (r.given q.demand).interactions ∧
        w.turn.entered = []) ∨
      (r.visit < w.turn.run.visit ∧ w.turn.run.interactions = []) := by
  obtain ⟨store, hcounted⟩ := r.counted_eq q.tally
  obtain ⟨warnings, hgoes⟩ := Demand.process_given rules q.demand { r with store }
  obtain ⟨interactions, hkept⟩ := Run.given_kept { r with store } q.demand
  rw [q.process_apply, hcounted] at h
  refine hgoes.turn (I := fun t => (t.run.visit = r.visit ∧
    t.run.interactions = (r.given q.demand).interactions ∧ t.entered = []) ∨
      (r.visit < t.run.visit ∧ t.run.interactions = [])) ?_ (fun _ ht => ht) ?_ h
  · rintro t t' ht (⟨hv, hi, he⟩ | ⟨hv, hi⟩)
    · rw [hv, hi, he]
      exact ht
    · refine .inr ⟨?_, hi⟩
      rcases ht with ht | ht <;> omega
  · refine .inl ⟨by rw [hkept], r.given_interactions store q.demand, rfl⟩

end GuidedJourney
