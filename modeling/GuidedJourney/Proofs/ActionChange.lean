import GuidedJourney.Proofs.RunScreens

namespace GuidedJourney

namespace Act

variable {R : Turn → Turn → Prop} {t : Turn}

theorem askService_goes (canCall : Bool) (serviceName : String) (c : ServiceCall) :
    (askService canCall serviceName c).Goes Turn.Jot (fun t' _ => t.Kept t') t := by
  unfold askService
  split
  · exact pure_goes (.refl t)
  · split
    · exact pure_goes (.refl t)
    · exact ⟨.refl, fun r => ⟨.refl, t.run.store, rfl⟩⟩

theorem callService_goes (canCall : Bool) (target : ServiceTarget) :
    (callService canCall target).Goes Turn.Jot (fun t' _ => t.Kept t') t := by
  refine (render_goes _).bind fun t₁ params h₁ => ?_
  subst h₁
  refine (ofExcept_goes target.legible).bind fun t₁ _ h₁ => ?_
  obtain ⟨rfl, -⟩ := h₁
  refine (askService_goes canCall _ _).bind fun t₂ reply h₂ => ?_
  refine (jot_goes (.note _)).bind fun t₃ _ h₃ => ?_
  exact pure_goes (h₂.trans h₃)

theorem storePayload_goes (mapping : Option ResponseMapping) (payload : Value) :
    (storePayload mapping payload).Goes Turn.Jot (fun t' _ => t.Kept t') t := by
  cases mapping with
  | none => exact pure_goes (.refl t)
  | some m =>
      refine (ofExcept_goes (Key.ofValue m.key)).bind fun t₁ key h₁ => ?_
      obtain ⟨rfl, -⟩ := h₁
      exact write_goes _

theorem callTool_goes (name : String) (parameters : Fields) :
    (callTool name parameters).Goes Turn.Jot (fun t' _ => t.Kept t') t := by
  refine (render_goes _).bind fun t₁ params h₁ => ?_
  subst h₁
  refine (jot_goes (.handOut _)).bind fun t₂ _ h₂ => ?_
  have hwrite : ∀ w, (write w).Goes Turn.Jot (fun t' _ => t₁.Kept t') t₂ :=
    fun w => (write_goes w).mono fun _ _ h => h₂.trans h
  split
  · dsimp only
    split
    · refine (ofExcept_goes _).bind fun t₃ _ h₃ => ?_
      obtain ⟨rfl, -⟩ := h₃
      exact hwrite _
    · exact pure_goes h₂
  · split
    · exact hwrite _
    · exact pure_goes h₂

theorem findTarget_goes (deeplink : String) :
    (findTarget deeplink).Goes Turn.Jot
      (fun t' s? => t.Kept t' ∧ ∀ s, s? = some s → t.run.Names s.id) t := by
  refine run_goes.bind fun t₁ r h₁ => ?_
  obtain ⟨rfl, rfl⟩ := h₁
  refine (ofExcept_goes _).bind fun t₂ s? h₂ => ?_
  obtain ⟨rfl, hs⟩ := h₂
  cases s? with
  | some s => exact pure_goes ⟨.refl _, fun s' h => Run.target_names (hs.trans (by rw [h]))⟩
  | none =>
      refine (warn_goes _).bind fun t₃ _ h₃ => ?_
      exact pure_goes ⟨h₃, fun s h => by cases h⟩

end Act

namespace Action

mutual

def closings : Action → List Completion
  | .close _ flowCompleted parameters => [⟨closeReason parameters, flowCompleted⟩]
  | .call _ _ onSuccess onError => closingsAll onSuccess ++ closingsAll onError
  | .navigate .. | .update .. | .tool .. | .unknown .. => []

def closingsAll : List Action → List Completion
  | [] => []
  | a :: as => closings a ++ closingsAll as

end

end Action

/-- What a batch may end in: a navigation to a screen that the run names, or one of the closings
`cs`. -/
structure Batch.Fits (b : Batch) (r : Run) (cs : List Completion) : Prop where
  leads : ∀ id, b.ending = .navigate id → r.Names id
  closes : ∀ reason flowCompleted, b.ending = .close reason flowCompleted →
    ⟨reason, flowCompleted⟩ ∈ cs

theorem Batch.Fits.fresh (r : Run) (cs : List Completion) : Batch.Fits {} r cs :=
  ⟨nofun, nofun⟩

theorem Batch.Fits.kept {b : Batch} {cs : List Completion} {t t' : Turn} (hb : b.Fits t.run cs)
    (h : t.Kept t') : b.Fits t'.run cs :=
  ⟨fun id hid => h.names (hb.leads id hid), hb.closes⟩

namespace Action

open Act

variable (canCall : Bool) (transient : Fields) {cs : List Completion}

theorem performAll_holds {a : Action} {t : Turn}
    (hholds : Condition.allHold a.conditions (t.run.context transient) = .ok true) (as : List Action)
    (b : Batch) :
    performAll canCall transient (a :: as) b t =
      (perform canCall transient a { b with executed := b.executed + 1 } t).bind fun t p =>
        (if p.2 then performAll canCall transient as p.1 else pure p.1) t := by
  rw [performAll]
  change (Act.ofExcept (Condition.allHold a.conditions (t.run.context transient)) t).bind _ = _
  rw [hholds]
  rfl

mutual

theorem perform_goes : ∀ (a : Action) (b : Batch) (t : Turn), a.closings ⊆ cs → b.Fits t.run cs →
    (perform canCall transient a b).Goes Turn.Jot (fun t' p => t.Kept t' ∧ p.1.Fits t'.run cs) t
  | .navigate _ deeplink, b, t, hcs, hb => by
      rw [perform]
      refine (findTarget_goes deeplink).bind fun t₁ s? h₁ => ?_
      cases s? with
      | none => exact pure_goes ⟨h₁.1, hb.kept h₁.1⟩
      | some s =>
          refine pure_goes ⟨h₁.1, fun id hid => ?_, fun reason flowCompleted hend => ?_⟩
          · cases hid
            exact h₁.1.names (h₁.2 s rfl)
          · cases hend
  | .update _ scope updates, b, t, hcs, hb => by
      rw [perform]
      exact (write_goes (.ofFields scope updates)).bind fun t₁ _ h₁ => pure_goes ⟨h₁, hb.kept h₁⟩
  | .call _ target onSuccess onError, b, t, hcs, hb => by
      rw [perform]
      rw [closings, List.append_subset] at hcs
      refine (callService_goes canCall target).bind fun t₁ reply h₁ => ?_
      cases reply with
      | success payload =>
          refine (storePayload_goes target.mapping payload).bind fun t₂ _ h₂ => ?_
          have hk := h₁.trans h₂
          refine (performAll_goes onSuccess b t₂ hcs.1 (hb.kept hk)).bind fun t₃ b' h₃ => ?_
          exact pure_goes ⟨hk.trans h₃.1, h₃.2⟩
      | failure error payload =>
          refine (performAll_goes onError b t₁ hcs.2 (hb.kept h₁)).bind fun t₂ b' h₂ => ?_
          exact pure_goes ⟨h₁.trans h₂.1, h₂.2⟩
  | .close _ flowCompleted parameters, b, t, hcs, hb => by
      rw [perform]
      refine (ofExcept_goes (reasonLegible parameters)).bind fun t₁ _ h₁ => ?_
      obtain ⟨rfl, -⟩ := h₁
      refine pure_goes ⟨.refl t₁, nofun, fun reason flowCompleted hend => ?_⟩
      cases hend
      exact hcs (List.mem_singleton.mpr rfl)
  | .tool _ name parameters, b, t, hcs, hb => by
      rw [perform]
      exact (callTool_goes name parameters).bind fun t₁ _ h₁ => pure_goes ⟨h₁, hb.kept h₁⟩
  | .unknown _ tag _, b, t, hcs, hb => by
      rw [perform]
      exact (warn_goes _).bind fun t₁ _ h₁ => pure_goes ⟨h₁, hb.kept h₁⟩

theorem performAll_goes : ∀ (as : List Action) (b : Batch) (t : Turn), closingsAll as ⊆ cs →
    b.Fits t.run cs →
    (performAll canCall transient as b).Goes Turn.Jot (fun t' b' => t.Kept t' ∧ b'.Fits t'.run cs) t
  | [], b, t, hcs, hb => by
      rw [performAll]
      exact pure_goes ⟨.refl t, hb⟩
  | a :: as, b, t, hcs, hb => by
      rw [performAll]
      rw [closingsAll, List.append_subset] at hcs
      refine (allHold_goes _ _).bind fun t₁ holds h₁ => ?_
      subst h₁
      cases holds with
      | false => exact performAll_goes as _ t₁ hcs.2 ⟨hb.leads, hb.closes⟩
      | true =>
          rw [if_pos rfl]
          refine (perform_goes a { b with executed := b.executed + 1 } t₁ hcs.1
            ⟨hb.leads, hb.closes⟩).bind fun t₂ p h₂ => ?_
          rcases p with ⟨b', goesOn⟩
          cases goesOn with
          | false => exact pure_goes h₂
          | true =>
              refine (performAll_goes as b' t₂ hcs.2 h₂.2).mono ?_
              exact fun t₃ b'' h₃ => ⟨h₂.1.trans h₃.1, h₃.2⟩

end

end Action

end GuidedJourney
