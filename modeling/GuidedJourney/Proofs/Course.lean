import GuidedJourney.Proofs.TurnChange

namespace GuidedJourney

open Relation

namespace Work

variable {α β : Type} {R R' : Turn → Turn → Prop} {P : Turn → Prop} {Q : Turn → α → Prop} {t : Turn}

def ended (t : Turn) : Except Fault α → Work α
  | .ok a => .done t a
  | .error f => .failed t f

/-- Work comes to other work with some replies to the calls that it waits for. -/
inductive Reaches : Work α → Work α → Prop
  | refl (w : Work α) : Reaches w w
  | resume (t : Turn) (c : ServiceCall) (k : ServiceReply → Work α) (r : ServiceReply) {w : Work α}
      (h : Reaches (k r) w) : Reaches (.waiting t c k) w

theorem Reaches.trans {w₁ w₂ w₃ : Work α} (h : w₁.Reaches w₂) (h' : w₂.Reaches w₃) :
    w₁.Reaches w₃ := by
  induction h with
  | refl => exact h'
  | resume t c k r _ ih => exact .resume t c k r (ih h')

theorem Reaches.bind {w w' : Work α} (h : w.Reaches w') (f : Turn → α → Work β) :
    (w.bind f).Reaches (w'.bind f) := by
  induction h with
  | refl => exact .refl _
  | resume t c k r _ ih => exact .resume t c _ r ih

theorem Reaches.bind_done {w : Work α} {f : Turn → α → Work β} {t : Turn} {b : β}
    (h : (w.bind f).Reaches (.done t b)) :
    ∃ t' a, w.Reaches (.done t' a) ∧ (f t' a).Reaches (.done t b) := by
  induction w with
  | done t' a => exact ⟨t', a, .refl _, h⟩
  | failed t' e => cases h
  | waiting t' c k ih =>
      cases h with
      | resume _ _ _ r h =>
          obtain ⟨t'', a, ha, hb⟩ := ih r h
          exact ⟨t'', a, .resume t' c k r ha, hb⟩

/-- Work that goes from a turn by the changes `R`, with `P` wherever it waits or fails, and ends as `Q`
says. -/
def Meets (R : Turn → Turn → Prop) (P : Turn → Prop) (Q : Turn → α → Prop) : Work α → Turn → Prop
  | .done t' a, t => ReflTransGen R t t' ∧ Q t' a
  | .failed t' _, t => ReflTransGen R t t' ∧ P t'
  | .waiting t' _ k, t =>
    ReflTransGen R t t' ∧ P t' ∧ ∀ r, (k r).Meets R P Q { t' with released := [] }

theorem Meets.after {t₀ : Turn} {w : Work α} (h : ReflTransGen R t₀ t) (hw : w.Meets R P Q t) :
    w.Meets R P Q t₀ := by
  cases w with
  | done t' a => exact ⟨h.trans hw.1, hw.2⟩
  | failed t' f => exact ⟨h.trans hw.1, hw.2⟩
  | waiting t' c k => exact ⟨h.trans hw.1, hw.2⟩

theorem Meets.bind {Q' : Turn → β → Prop} {w : Work α} {f : Turn → α → Work β}
    (hw : w.Meets R P Q t) (hf : ∀ t' a, Q t' a → (f t' a).Meets R P Q' t') :
    (w.bind f).Meets R P Q' t := by
  induction w generalizing t with
  | done t' a => exact (hf t' a hw.2).after hw.1
  | failed t' e => exact hw
  | waiting t' c k ih => exact ⟨hw.1, hw.2.1, fun r => ih r (hw.2.2 r)⟩

theorem Meets.mono {Q' : Turn → α → Prop} {w : Work α} (hw : w.Meets R P Q t) (hR : R ≤ R')
    (hQ : ∀ t a, Q t a → Q' t a) : w.Meets R' P Q' t := by
  induction w generalizing t with
  | done t' a => exact ⟨ReflTransGen.mono hR _ _ hw.1, hQ _ _ hw.2⟩
  | failed t' e => exact ⟨ReflTransGen.mono hR _ _ hw.1, hw.2⟩
  | waiting t' c k ih => exact ⟨ReflTransGen.mono hR _ _ hw.1, hw.2.1, fun r => ih r (hw.2.2 r)⟩

theorem Meets.goes {w : Work α} (hw : w.Meets R P Q t) : w.Goes R Q t := by
  induction w generalizing t with
  | done t' a => exact hw
  | failed t' e => exact hw.1
  | waiting t' c k ih => exact ⟨hw.1, fun r => ih r (hw.2.2 r)⟩

theorem Goes.meets {I : Turn → Prop} {w : Work α} (hw : w.Goes R Q t)
    (hR : ∀ t t', I t → R t t' → I t' ∧ R' t t') (hsettle : ∀ t, I t → I { t with released := [] })
    (hP : ∀ t, I t → P t) (ht : I t) : w.Meets R' P (fun t' a => I t' ∧ Q t' a) t := by
  have hpath : ∀ {t t'}, I t → ReflTransGen R t t' → I t' ∧ ReflTransGen R' t t' := by
    intro t t' ht h
    induction h with
    | refl => exact ⟨ht, .refl⟩
    | tail _ hc ih =>
        obtain ⟨hI, hpath⟩ := ih
        obtain ⟨hI', hc'⟩ := hR _ _ hI hc
        exact ⟨hI', hpath.tail hc'⟩
  induction w generalizing t with
  | done t' a =>
      obtain ⟨hI, hp⟩ := hpath ht hw.1
      exact ⟨hp, hI, hw.2⟩
  | failed t' e =>
      obtain ⟨hI, hp⟩ := hpath ht hw
      exact ⟨hp, hP _ hI⟩
  | waiting t' c k ih =>
      obtain ⟨hI, hp⟩ := hpath ht hw.1
      exact ⟨hp, hP _ hI, fun r => ih r (hw.2 r) (hsettle _ hI)⟩

theorem Meets.keeps {I : Turn → Prop} {w : Work α} (hw : w.Meets R P Q t)
    (hR : ∀ t t', I t → R t t' → I t') (hsettle : ∀ t, I t → I { t with released := [] })
    (ht : I t) : w.Meets R P (fun t' a => I t' ∧ Q t' a) t := by
  have hpath : ∀ {t t'}, I t → ReflTransGen R t t' → I t' := by
    intro t t' ht h
    induction h with
    | refl => exact ht
    | tail _ hc ih => exact hR _ _ ih hc
  induction w generalizing t with
  | done t' a => exact ⟨hw.1, hpath ht hw.1, hw.2⟩
  | failed t' e => exact hw
  | waiting t' c k ih =>
      exact ⟨hw.1, hw.2.1, fun r => ih r (hw.2.2 r) (hsettle _ (hpath ht hw.1))⟩

/-- Whatever work comes to goes on from a turn that the changes lead to, waits being settled. -/
theorem Meets.reaches {S : Turn → Turn → Prop} {w w' : Work α} (h : w.Reaches w')
    (hw : w.Meets R P Q t) (hR : R ≤ S) (hP : ∀ t, P t → S t { t with released := [] }) :
    ∃ t', ReflTransGen S t t' ∧ w'.Meets R P Q t' := by
  induction h generalizing t with
  | refl => exact ⟨t, .refl, hw⟩
  | resume t₁ c k r _ ih =>
      obtain ⟨t', hp, hw'⟩ := ih (hw.2.2 r)
      exact ⟨t', ((ReflTransGen.mono hR _ _ hw.1).tail (hP _ hw.2.1)).trans hp, hw'⟩

theorem Meets.reached {w w' : Work α} (hw : w.Meets R P Q t) (h : w.Reaches w') :
    ∃ t', w'.Meets R P Q t' := by
  obtain ⟨t', -, hw'⟩ := hw.reaches (S := fun _ _ => True) h (fun _ _ _ => trivial)
    fun _ _ => trivial
  exact ⟨t', hw'⟩

theorem Meets.ended {w : Work α} {t' : Turn} {a : α} (hw : w.Meets R P Q t)
    (h : w.Reaches (.done t' a)) : Q t' a := by
  obtain ⟨_, hw'⟩ := hw.reached h
  exact hw'.2

theorem Meets.waits {w : Work α} {t' : Turn} {c : ServiceCall} {k : ServiceReply → Work α}
    (hw : w.Meets R P Q t) (h : w.Reaches (.waiting t' c k)) : P t' := by
  obtain ⟨_, hw'⟩ := hw.reached h
  exact hw'.2.1

def turn : Work α → Turn
  | .done t _ | .failed t _ | .waiting t _ _ => t

theorem Goes.turn {I : Turn → Prop} {w w' : Work α} (hw : w.Goes R Q t)
    (hR : ∀ t t', I t → R t t' → I t') (hsettle : ∀ t, I t → I { t with released := [] }) (ht : I t)
    (h : w.Reaches w') : I w'.turn := by
  have hmeets : w.Meets (fun _ _ => True) I (fun t' a => I t' ∧ Q t' a) t :=
    hw.meets (fun t t' h hc => ⟨hR t t' h hc, trivial⟩) hsettle (fun _ h => h) ht
  obtain ⟨t', hmeets⟩ := hmeets.reached h
  cases w' with
  | done => exact hmeets.2.1
  | failed => exact hmeets.2
  | waiting => exact hmeets.2.1

end Work

namespace Act

variable {α β : Type} {R : Turn → Turn → Prop} {P : Turn → Prop} {Q : Turn → α → Prop} {t : Turn}

def Meets (R : Turn → Turn → Prop) (P : Turn → Prop) (Q : Turn → α → Prop) (x : Act α) (t : Turn) :
    Prop :=
  (x t).Meets R P Q t

theorem Meets.bind {Q' : Turn → β → Prop} {x : Act α} {f : α → Act β} (hx : x.Meets R P Q t)
    (hf : ∀ t' a, Q t' a → (f a).Meets R P Q' t') : (x >>= f).Meets R P Q' t :=
  Work.Meets.bind hx hf

theorem Meets.mono {Q' : Turn → α → Prop} {x : Act α} (hx : x.Meets R P Q t)
    (hQ : ∀ t a, Q t a → Q' t a) : x.Meets R P Q' t :=
  Work.Meets.mono hx (fun _ _ h => h) hQ

theorem pure_meets {a : α} (h : Q t a) : (pure a : Act α).Meets R P Q t := ⟨.refl, h⟩

theorem run_meets : run.Meets R P (fun t' r => t' = t ∧ r = t.run) t := ⟨.refl, rfl, rfl⟩

theorem modify_meets {f : Turn → Turn} (h : R t (f t)) :
    (modify f).Meets R P (fun t' _ => t' = f t) t :=
  ⟨.single h, rfl⟩

theorem respond_meets (before : Run) (outcome : Outcome) :
    (respond before outcome).Meets R P (fun t' o => t' = t ∧ o = t.response before outcome) t :=
  ⟨.refl, rfl, rfl⟩

theorem ofExcept_meets (hP : P t) (x : Except Fault α) :
    (ofExcept x).Meets R P (fun t' a => t' = t ∧ x = .ok a) t := by
  cases x with
  | ok a => exact ⟨.refl, rfl, rfl⟩
  | error f => exact ⟨.refl, hP⟩

theorem allHold_meets (hP : P t) (conditions : List Condition) (transient : Fields) :
    (allHold conditions transient).Meets R P (fun t' _ => t' = t) t := by
  refine run_meets.bind fun t' r h => ?_
  obtain ⟨rfl, rfl⟩ := h
  exact (ofExcept_meets hP _).mono fun _ _ h => h.1

end Act

end GuidedJourney
