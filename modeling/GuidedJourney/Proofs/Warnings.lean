import GuidedJourney.Proofs.ActClosure

namespace GuidedJourney

def Turn.warned (ms : List String) (t : Turn) : Turn := { t with warnings := ms ++ t.warnings }

def Response.warned (ms : List String) (o : Response) : Response :=
  { o with warnings := ms ++ o.warnings }

namespace Work

variable {α β : Type} {ms : List String}

/-- The work with warnings before those of its turns; `f` is what becomes of its value. -/
def warned (ms : List String) (f : α → β) : Work α → Work β
  | .done t a => .done (t.warned ms) (f a)
  | .failed t e => .failed (t.warned ms) e
  | .waiting t c k => .waiting (t.warned ms) c fun r => (k r).warned ms f

theorem warned_nil (w : Work α) : w.warned [] id = w := by
  induction w with
  | done t a => rfl
  | failed t e => rfl
  | waiting t c k ih => exact congrArg _ (funext ih)

theorem warned_bind {γ : Type} {f : β → γ} {k : Turn → α → Work β} {g : Turn → α → Work γ}
    (h : ∀ t a, g (t.warned ms) a = (k t a).warned ms f) (w : Work α) :
    (w.warned ms id).bind g = (w.bind k).warned ms f := by
  induction w with
  | done t a => exact h t a
  | failed t e => rfl
  | waiting t c resume ih => exact congrArg (Work.waiting (t.warned ms) c) (funext ih)

end Work

namespace Act

variable {α β : Type}

def Heedless (x : Act α) : Prop := ∀ ms t, x (t.warned ms) = (x t).warned ms id

namespace Heedless

theorem bind {x : Act α} {f : α → Act β} (hx : x.Heedless) (hf : ∀ a, (f a).Heedless) :
    (x >>= f).Heedless := by
  intro ms t
  change (x (t.warned ms)).bind _ = ((x t).bind _).warned ms id
  rw [hx]
  exact Work.warned_bind (fun t a => hf a ms t) (x t)

theorem pure (a : α) : (pure a : Act α).Heedless := fun _ _ => rfl

theorem ite {c : Prop} [Decidable c] {x y : Act α} (hx : x.Heedless) (hy : y.Heedless) :
    (if c then x else y).Heedless := by
  split
  · exact hx
  · exact hy

theorem modify {f : Turn → Turn} (h : ∀ ms t, f (t.warned ms) = (f t).warned ms) :
    (modify f).Heedless :=
  fun ms t => congrArg (Work.done · ()) (h ms t)

theorem run : Act.run.Heedless := fun _ _ => rfl

theorem ofExcept (x : Except Fault α) : (ofExcept x).Heedless := by
  intro ms t
  cases x with
  | ok a => rfl
  | error f => rfl

end Heedless

theorem warn_heedless (message : String) : (warn message).Heedless :=
  .modify fun ms t => by simp [Turn.warned]

theorem write_heedless (w : StateWrite) : (write w).Heedless := by
  have hcommit : (commit w.copied).Heedless := .ite (.pure _) (.modify fun _ _ => rfl)
  exact hcommit.bind fun _ => .ite (.pure _) (.ofExcept _)

theorem allHold_heedless (conditions : List Condition) (transient : Fields) :
    (allHold conditions transient).Heedless :=
  Heedless.run.bind fun _ => .ofExcept _

theorem render_heedless (fields : Fields) : (render fields).Heedless :=
  Heedless.run.bind fun _ => .ofExcept _

theorem callService_heedless (canCall : Bool) (target : ServiceTarget) :
    (callService canCall target).Heedless := by
  refine (render_heedless _).bind fun params => ?_
  have hask : ∀ c, (askService canCall target.serviceName c).Heedless := fun c =>
    .ite (.pure _) (.ite (.pure _) fun _ _ => rfl)
  refine (Heedless.ofExcept _).bind fun _ => (hask _).bind fun reply => ?_
  exact Heedless.bind (.modify fun _ _ => rfl) fun _ => .pure _

theorem storePayload_heedless (mapping : Option ResponseMapping) (payload : Value) :
    (storePayload mapping payload).Heedless := by
  cases mapping with
  | none => exact .pure _
  | some m => exact (Heedless.ofExcept _).bind fun key => write_heedless _

theorem callTool_heedless (name : String) (parameters : Fields) :
    (callTool name parameters).Heedless := by
  refine (render_heedless _).bind fun params => ?_
  refine Heedless.bind (.modify fun _ _ => rfl) fun _ => .ite ?_ ?_
  · exact .ite ((Heedless.ofExcept _).bind fun _ => write_heedless _) (.pure _)
  · exact .ite (write_heedless _) (.pure _)

theorem findTarget_heedless (deeplink : String) : (findTarget deeplink).Heedless := by
  refine Heedless.run.bind fun r => (Heedless.ofExcept _).bind fun s? => ?_
  cases s? with
  | some s => exact .pure _
  | none => exact (warn_heedless _).bind fun _ => .pure _

end Act

namespace Action

open Act

variable (canCall : Bool) (transient : Fields)

mutual

theorem perform_heedless : ∀ (a : Action) (b : Batch), (perform canCall transient a b).Heedless
  | .navigate _ deeplink, b => by
      rw [perform]
      refine (findTarget_heedless deeplink).bind fun s? => ?_
      cases s? with
      | none => exact .pure _
      | some s => exact .pure _
  | .update _ scope updates, b => by
      rw [perform]
      exact (write_heedless (.ofFields scope updates)).bind fun _ => .pure _
  | .call _ target onSuccess onError, b => by
      rw [perform]
      refine (callService_heedless canCall target).bind fun reply => ?_
      cases reply with
      | success payload =>
          refine (storePayload_heedless target.mapping payload).bind fun _ => ?_
          exact (performAll_heedless onSuccess b).bind fun _ => .pure _
      | failure error payload => exact (performAll_heedless onError b).bind fun _ => .pure _
  | .close _ flowCompleted parameters, b => by
      rw [perform]
      exact (Heedless.ofExcept _).bind fun _ => .pure _
  | .tool _ name parameters, b => by
      rw [perform]
      exact (callTool_heedless name parameters).bind fun _ => .pure _
  | .unknown _ tag _, b => by
      rw [perform]
      exact (warn_heedless _).bind fun _ => .pure _

theorem performAll_heedless : ∀ (as : List Action) (b : Batch),
    (performAll canCall transient as b).Heedless
  | [], b => by
      rw [performAll]
      exact .pure _
  | a :: as, b => by
      rw [performAll]
      refine (allHold_heedless _ _).bind fun holds => .ite ?_ (performAll_heedless as _)
      refine (perform_heedless a _).bind fun p => ?_
      exact .ite (performAll_heedless as _) (.pure _)

end

end Action

namespace Act

theorem heedless_spreads : Spreads fun _ x => x.Heedless where
  pure := .pure
  bind := .bind
  run := .run
  warn := warn_heedless
  release _ := .modify fun _ _ => rfl
  record _ _ := .modify fun _ _ => rfl
  complete _ _ := .modify fun _ _ => rfl
  moveTo s := by
    refine Heedless.run.bind fun r => .ite ?_ (Heedless.bind ?_ fun _ => ?_) <;>
      exact .modify fun _ _ => rfl
  allHold := allHold_heedless
  performAll canCall transient as := Action.performAll_heedless canCall transient as {}

end Act

end GuidedJourney
