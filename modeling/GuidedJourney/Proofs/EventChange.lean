import GuidedJourney.Proofs.ActionChange
import GuidedJourney.Proofs.Course

namespace GuidedJourney

namespace Screen

def allEvents (s : Screen) : List Event := s.events ++ s.elements.flatMap Element.events

def closings (s : Screen) : List Completion :=
  s.allEvents.flatMap fun e => Action.closingsAll e.actions

theorem offers_mem {s : Screen} {id element : Value} {e : Event}
    (h : s.offers? id element = some e) : e ∈ s.allEvents := by
  unfold offers? at h
  split at h
  · obtain ⟨el, hel, h⟩ := Option.bind_eq_some_iff.mp h
    split at h
    · refine List.mem_append_right _ (List.mem_flatMap.mpr ⟨el, ?_, ?_⟩)
      · exact List.mem_of_find?_eq_some hel
      · exact List.mem_of_find?_eq_some h
    · cases h
  · exact List.mem_append_left _ (List.mem_of_find?_eq_some h)

end Screen

namespace Turn

def Open (t : Turn) : Prop := t.run.completed = false

def close (c : Completion) (t : Turn) : Turn :=
  { t with run := { t.run with completion := some c }, released := t.released ++ [.all] }

/-- Changes that an event makes to a run that is not over: by its actions, and by the screens and the
end that they lead to. Only the events of the screens `ss` can close the module. -/
inductive Stride (ss : List Screen) (t : Turn) : Turn → Prop
  | jot {t' : Turn} (hopen : t.Open) (h : t.Jot t') : Stride ss t t'
  | give (s : Screen) (e : Element) (element : Value) (values : Fields) (hopen : t.Open)
      (hs : t.run.screen? = some s) (he : s.element? element = some e)
      (hv : ∀ f ∈ values, e.allows f) :
      Stride ss t { t with
        run := { t.run with interactions := t.run.interactions.give (e.id?.getD "") values } }
  | record (event element : Value) (hopen : t.Open) :
      Stride ss t { t with run := t.run.record event element }
  | close (c : Completion) (hopen : t.Open) (hc : c ∈ ss.flatMap Screen.closings) :
      Stride ss t (t.close c)
  | navigate (s : Screen) (hopen : t.Open) (hon : t.run.screenId ≠ none)
      (hs : t.run.findScreen? s.id = some s) (hn : t.run.Names s.id) : Stride ss t (t.moveTo s)

/-- A change of a turn whose run is not over, and is not over then but for a closing among `cs`. -/
def Step (cs : List Completion) (t t' : Turn) : Prop :=
  t.Open ∧ t.Change t' ∧ (t'.Open ∨ ∃ c ∈ cs, t' = t.close c)

theorem Jot.step {cs : List Completion} {t t' : Turn} (hopen : t.Open) (h : t.Jot t') :
    t.Step cs t' :=
  ⟨hopen, .inl (h.edit hopen), .inl (h.kept.completed.trans hopen)⟩

theorem Stride.step {ss : List Screen} {t t' : Turn} (h : t.Stride ss t') :
    t.Step (ss.flatMap Screen.closings) t' := by
  cases h with
  | jot hopen h => exact h.step hopen
  | give s e element values hopen hs he hv =>
      exact ⟨hopen, .inl (.give s e element values hopen hs he hv), .inl hopen⟩
  | record event element hopen => exact ⟨hopen, .inl (.record event element hopen), .inl hopen⟩
  | close c hopen hc =>
      exact ⟨hopen, .inl (.complete c.reason c.flowCompleted hopen), .inr ⟨c, hc, rfl⟩⟩
  | navigate s hopen hon hs hn => exact ⟨hopen, .inr (.navigate s hopen hon hs hn), .inl hopen⟩

theorem Jot.entered {t t' : Turn} (h : t.Jot t') : t'.entered = t.entered := by
  cases h <;> rfl

theorem Kept.screens {t t' : Turn} (h : t.Kept t') : t'.run.screens = t.run.screens := by
  obtain ⟨store, he⟩ := h
  rw [he]
  rfl

theorem Kept.screenId {t t' : Turn} (h : t.Kept t') : t'.run.screenId = t.run.screenId := by
  obtain ⟨store, he⟩ := h
  rw [he]

end Turn

def Response.Of (o : Response) (before : Run) (t : Turn) : Prop :=
  ∃ eventId elementId previousAgentId delayed, o =
    { t.response before o.outcome with eventId, elementId, previousAgentId, delayed }

theorem Response.Of.entered {o : Response} {before : Run} {t : Turn} (h : o.Of before t) :
    o.entered = t.entered := by
  obtain ⟨_, _, _, _, he⟩ := h
  rw [he]
  rfl

theorem Turn.response_of (t : Turn) (before : Run) (outcome : Outcome) :
    (t.response before outcome).Of before t :=
  ⟨.null, .null, none, false, rfl⟩

def EntryWidth (rules : Rules) (ss : List Screen) (w : Nat) : Prop :=
  ∀ s ∈ ss, s.events.countP (Act.isEntryEvent rules) ≤ w

theorem EntryWidth.exists (rules : Rules) (ss : List Screen) : ∃ w, EntryWidth rules ss w := by
  induction ss with
  | nil => exact ⟨0, nofun⟩
  | cons s ss ih =>
      obtain ⟨w, hw⟩ := ih
      refine ⟨max (s.events.countP (Act.isEntryEvent rules)) w, ?_⟩
      intro s' hs'
      rcases List.mem_cons.mp hs' with rfl | hs'
      · exact Nat.le_max_left _ _
      · exact Nat.le_trans (hw s' hs') (Nat.le_max_right _ _)

/-- How many screens the entry events of an entered one can lead to in so many rounds, if no screen has
more than `w` of them. -/
def further (w : Nat) : Nat → Nat
  | 0 => 0
  | n + 1 => w * (further w n + 1)

namespace Act

variable (rules : Rules) {α : Type} {ss : List Screen} {n k w : Nat} {t : Turn}

/-- An act in a run with the screens `ss` that goes by strides, waits and fails only while the run is
not over, and enters at most `n` screens. -/
abbrev Strides (ss : List Screen) (n : Nat) (x : Act α) (t : Turn) : Prop :=
  x.Meets (Turn.Stride ss) Turn.Open
    (fun t' _ => t'.run.screens = ss ∧ t'.entered.length ≤ t.entered.length + n) t

/-- A way of entering screens that goes by strides, each entry coming to at most `n` screens. -/
def Enters (ss : List Screen) (n : Nat) (enter : Screen → Act Unit) : Prop :=
  ∀ s t, s ∈ ss → t.run.screens = ss → t.Open → t.Stride ss (t.moveTo s) → (enter s).Strides ss n t

theorem jots_meets {R : Turn → Turn → Prop} (hR : ∀ t t', t.Open → t.Jot t' → R t t')
    {Q : Turn → α → Prop} {x : Act α} (hx : x.Goes Turn.Jot Q t) (hopen : t.Open) :
    x.Meets R Turn.Open (fun t' a => (t.Kept t' ∧ t'.entered = t.entered) ∧ Q t' a) t := by
  have hopen' : ∀ {t'}, t.Kept t' → t'.Open := fun h => h.completed.trans hopen
  exact Work.Goes.meets (I := fun t' => t.Kept t' ∧ t'.entered = t.entered) hx
    (fun t₁ t₂ h hj => ⟨⟨h.1.trans hj.kept, hj.entered.trans h.2⟩, hR _ _ (hopen' h.1) hj⟩)
    (fun _ h => h) (fun _ h => hopen' h.1) ⟨.refl t, rfl⟩

theorem conclude_strides {enter : Screen → Act Unit} (henter : Enters ss n enter)
    {b : Batch} {cs : List Completion} (hb : b.Fits t.run cs) (hcs : cs ⊆ ss.flatMap Screen.closings)
    (hss : t.run.screens = ss) (hopen : t.Open) (hon : t.run.screenId ≠ none) :
    (conclude enter b).Strides ss n t := by
  unfold conclude
  split
  · exact pure_meets ⟨hss, Nat.le_add_right _ _⟩
  · rename_i reason flowCompleted hend
    have hc := hcs (hb.closes reason flowCompleted hend)
    exact ⟨.single (.close ⟨reason, flowCompleted⟩ hopen hc), hss, Nat.le_add_right _ _⟩
  · rename_i id hid
    refine run_meets.bind fun t₁ r h₁ => ?_
    obtain ⟨rfl, rfl⟩ := h₁
    cases hs : t₁.run.findScreen? id with
    | none => exact pure_meets ⟨hss, Nat.le_add_right _ _⟩
    | some s =>
        obtain rfl := Run.findScreen_id hs
        refine henter s t₁ (hss ▸ Run.findScreen_mem hs) hss hopen ?_
        exact .navigate s hopen hon hs (hb.leads _ hid)

theorem carryOut_strides {enter : Screen → Act Unit} (henter : Enters ss n enter)
    (canCall : Bool) (event element : Value) (transient : Fields) {as : List Action}
    (has : Action.closingsAll as ⊆ ss.flatMap Screen.closings) {x : Act α}
    (hx : ∀ t, t.run.screens = ss → x.Strides ss k t) (hss : t.run.screens = ss) (hopen : t.Open)
    (hon : t.run.screenId ≠ none) :
    (do
      setRun (·.record event element)
      conclude enter (← Action.performAll canCall transient as {})
      x : Act α).Strides ss (n + k) t := by
  refine (modify_meets (.record event element hopen)).bind fun t₁ _ h₁ => ?_
  have hopen₁ : t₁.Open := by rw [h₁]; exact hopen
  have hgoes := Action.performAll_goes canCall transient as {} t₁ (List.Subset.refl _) (.fresh t₁.run _)
  refine (jots_meets (fun _ _ => .jot) hgoes hopen₁).bind fun t₂ b h₂ => ?_
  obtain ⟨⟨hkept, hentered⟩, -, hfits⟩ := h₂
  have hopen₂ : t₂.Open := hkept.completed.trans hopen₁
  have hss₂ : t₂.run.screens = ss := by rw [hkept.screens, h₁]; exact hss
  have hon₂ : t₂.run.screenId ≠ none := by rw [hkept.screenId, h₁]; exact hon
  have hlength : t₂.entered.length = t.entered.length := by rw [hentered, h₁]
  refine (conclude_strides henter hfits has hss₂ hopen₂ hon₂).bind fun t₃ _ h₃ => ?_
  refine (hx t₃ h₃.1).mono fun t₄ _ h₄ => ⟨h₄.1, ?_⟩
  have h₃' := h₃.2
  have h₄' := h₄.2
  omega

theorem fireEntryEvents_strides {enter : Screen → Act Unit} (henter : Enters ss n enter)
    {s : Screen} {es : List Event}
    (hes : ∀ e ∈ es, Action.closingsAll e.actions ⊆ ss.flatMap Screen.closings)
    (hss : t.run.screens = ss) :
    (fireEntryEvents rules enter s es).Strides ss (es.countP (isEntryEvent rules) * n) t := by
  induction es generalizing t with
  | nil => exact pure_meets ⟨hss, Nat.le_add_right _ _⟩
  | cons e es ih =>
      rw [List.forall_mem_cons] at hes
      have hrest : ∀ t : Turn, t.run.screens = ss →
          (fireEntryEvents rules enter s es).Strides ss (es.countP (isEntryEvent rules) * n) t :=
        fun t hss => ih hes.2 hss
      rw [fireEntryEvents]
      cases he : isEntryEvent rules e with
      | false =>
          rw [List.countP_cons_of_neg (by simp [he])]
          exact hrest t hss
      | true =>
          -- Its actions may enter `n` screens; those that the other events enter come on top.
          have hcount : (e :: es).countP (isEntryEvent rules) * n =
              n + es.countP (isEntryEvent rules) * n := by
            rw [List.countP_cons_of_pos he, Nat.succ_mul, Nat.add_comm]
          rw [hcount]
          refine run_meets.bind fun t₁ r h₁ => ?_
          obtain ⟨rfl, rfl⟩ := h₁
          split
          · exact pure_meets ⟨hss, Nat.le_add_right _ _⟩
          · rename_i hstays
            simp only [Bool.or_eq_true, not_or, Bool.not_eq_true, bne_eq_false_iff_eq] at hstays
            refine (allHold_meets (P := Turn.Open) hstays.1 _ _).bind fun t₂ holds h₂ => ?_
            subst h₂
            cases holds with
            | false =>
                refine (hrest t₂ hss).mono fun t₃ _ h₃ => ⟨h₃.1, ?_⟩
                have h₃' := h₃.2
                omega
            | true =>
                rw [if_pos rfl]
                exact carryOut_strides henter _ _ _ _ hes.1 hrest hss hstays.1 (by simp [hstays.2])

theorem moveTo_apply (s : Screen) (t : Turn) : moveTo s t = .done (t.moveTo s) () := by
  unfold Turn.moveTo
  change (if (t.run.screenId.getD "").isEmpty = true then _ else _ : Act Unit) t = _
  split
  · rw [List.append_nil]
    rfl
  · rfl

def settleIn : Nat → Screen → Act Unit
  | 0, s => warn ("Entry event chain limit reached at " ++ s.id)
  | n + 1, s => fireEntryEvents rules (enterWithin rules n) s s.events

theorem enterWithin_apply (n : Nat) (s : Screen) (t : Turn) :
    enterWithin rules n s t = settleIn rules n s (t.moveTo s) := by
  cases n with
  | zero => exact congrArg (Work.bind · _) (moveTo_apply s t)
  | succ n => exact congrArg (Work.bind · _) (moveTo_apply s t)

theorem enterWithin_enters {n : Nat}
    (hsettle : ∀ s t, s ∈ ss → t.run.screens = ss → t.Open → (settleIn rules n s).Strides ss k t) :
    Enters ss (k + 1) (enterWithin rules n) := by
  intro s t hs hss hopen hmove
  have hgoes : (settleIn rules n s (t.moveTo s)).Meets (Turn.Stride ss) Turn.Open _ (t.moveTo s) :=
    hsettle s (t.moveTo s) hs hss hopen
  change Work.Meets _ _ _ (enterWithin rules n s t) t
  rw [enterWithin_apply]
  refine (hgoes.after (.single hmove)).mono (fun _ _ h => h) fun t' _ h => ⟨h.1, ?_⟩
  have hlength : (t.moveTo s).entered.length = t.entered.length + 1 := List.length_append
  have h' := h.2
  omega

/-- However far entry events lead on, what a screen is entered with goes by strides. -/
theorem settleIn_strides (hw : EntryWidth rules ss w) (n : Nat) (s : Screen)
    (t : Turn) (hs : s ∈ ss) (hss : t.run.screens = ss) (hopen : t.Open) :
    (settleIn rules n s).Strides ss (further w n) t := by
  induction n generalizing s t with
  | zero => exact ⟨.single (.jot hopen (.warn _)), hss, Nat.le_add_right _ _⟩
  | succ n ih =>
      have hes : ∀ e ∈ s.events, Action.closingsAll e.actions ⊆ ss.flatMap Screen.closings := by
        intro e he c hc
        refine List.mem_flatMap.mpr ⟨s, hs, List.mem_flatMap.mpr ⟨e, ?_, hc⟩⟩
        exact List.mem_append_left _ he
      refine (fireEntryEvents_strides rules (enterWithin_enters rules ih) hes hss).mono
        fun t' _ h => ⟨h.1, Nat.le_trans h.2 (Nat.add_le_add_left ?_ _)⟩
      exact Nat.mul_le_mul_right _ (hw s hs)

theorem fireEntryEvents_over (enter : Screen → Act Unit) (s : Screen) (es : List Event)
    (hover : t.run.completed = true) : fireEntryEvents rules enter s es t = .done t () := by
  induction es with
  | nil => rfl
  | cons e es ih =>
      rw [fireEntryEvents]
      split
      · exact ih
      · change (if (t.run.completed || t.run.screenId != some s.id) = true then _ else _ : Act Unit) t = _
        rw [hover, Bool.true_or, if_pos rfl]
        rfl

theorem settleIn_over (n : Nat) (s : Screen) (hover : t.run.completed = true) :
    settleIn rules n s t = .done t () ∨
      ∃ message, settleIn rules n s t = .done { t with warnings := t.warnings ++ [message] } () := by
  cases n with
  | zero => exact .inr ⟨_, rfl⟩
  | succ n => exact .inl (fireEntryEvents_over rules _ s s.events hover)

theorem enter_enters (hw : EntryWidth rules ss w) :
    Enters ss (further w rules.interpreter.maxChainedEntries + 1) (enter rules) :=
  enterWithin_enters rules (settleIn_strides rules hw _)

structure Stays (t t' : Turn) : Prop where
  isOpen : t'.Open
  screenId : t'.run.screenId = t.run.screenId
  screens : t'.run.screens = t.run.screens
  entered : t'.entered = t.entered

theorem giveValues_meets (e : Element) (element : Value) (values : Fields) {s : Screen}
    (hopen : t.Open) (hs : t.run.screen? = some s) (he : s.element? element = some e) :
    (giveValues e values).Meets (Turn.Stride ss) Turn.Open (fun t' _ => Stays t t') t := by
  have hrefuse : (refuse e values).Meets (Turn.Stride ss) Turn.Open
      (fun t' _ => Stays t t' ∧ t'.run = t.run) t := by
    unfold refuse
    dsimp only
    split
    · exact pure_meets ⟨⟨hopen, rfl, rfl, rfl⟩, rfl⟩
    · exact ⟨.single (.jot hopen (.warn _)), ⟨hopen, rfl, rfl, rfl⟩, rfl⟩
  refine hrefuse.bind fun t₁ _ h₁ => ?_
  obtain ⟨hstays, hrun⟩ := h₁
  have haccept : (accept e values).Meets (Turn.Stride ss) Turn.Open (fun t' _ => Stays t t') t₁ := by
    unfold accept
    dsimp only
    split
    · exact pure_meets hstays
    · refine ⟨.single (.give s e element _ hstays.isOpen (hrun ▸ hs) he ?_), ?_⟩
      · exact fun f hf => (List.mem_filter.mp hf).2
      · exact ⟨hstays.isOpen, hstays.screenId, hstays.screens, hstays.entered⟩
  exact haccept.bind fun t₂ _ h₂ => run_meets.bind fun t₃ r h₃ => pure_meets (h₃.1 ▸ h₂)

theorem transientOf_meets {s : Screen} (c : EventCall) (hopen : t.Open)
    (hs : t.run.screen? = some s) :
    (transientOf s c).Meets (Turn.Stride ss) Turn.Open (fun t' _ => Stays t t') t := by
  unfold transientOf
  split
  · cases he : s.element? c.element with
    | none => exact pure_meets ⟨hopen, rfl, rfl, rfl⟩
    | some e =>
        exact (giveValues_meets e c.element c.values hopen hs he).bind fun t₁ _ h₁ => pure_meets h₁
  · exact pure_meets ⟨hopen, rfl, rfl, rfl⟩

theorem applyEvent_strides (hw : EntryWidth rules ss w) (c : EventCall) {e : Event} (transient : Fields)
    (he : Action.closingsAll e.actions ⊆ ss.flatMap Screen.closings) (hss : t.run.screens = ss)
    (hopen : t.Open) (hon : t.run.screenId ≠ none) :
    (applyEvent rules c e transient).Strides ss
      (further w rules.interpreter.maxChainedEntries + 1) t := by
  refine (allHold_meets (P := Turn.Open) hopen _ _).bind fun t₁ holds h₁ => ?_
  subst h₁
  cases holds with
  | false => exact pure_meets ⟨hss, Nat.le_add_right _ _⟩
  | true =>
      rw [if_pos rfl]
      exact carryOut_strides (k := 0) (enter_enters rules hw) _ _ _ _ he
        (fun t hss => pure_meets ⟨hss, Nat.le_add_right _ _⟩) hss hopen hon

theorem eventOutcome_strides (hw : EntryWidth rules ss w) (c : EventCall)
    (hss : t.run.screens = ss) :
    (eventOutcome rules c).Strides ss (further w rules.interpreter.maxChainedEntries + 1) t := by
  refine run_meets.bind fun t₁ r h₁ => ?_
  obtain ⟨rfl, rfl⟩ := h₁
  split
  · exact pure_meets ⟨hss, Nat.le_add_right _ _⟩
  · rename_i hopen
    have hopen : t₁.Open := by simpa [Turn.Open] using hopen
    have hwarn : ∀ message o, (do warn message; return o : Act Outcome).Strides ss
        (further w rules.interpreter.maxChainedEntries + 1) t₁ := fun message o =>
      ⟨.single (.jot hopen (.warn message)), hss, Nat.le_add_right _ _⟩
    split
    · refine (ofExcept_meets hopen _).bind fun t₂ _ h₂ => ?_
      obtain ⟨rfl, -⟩ := h₂
      exact hwarn _ _
    · cases hs : t₁.run.screen? with
      | none => exact hwarn _ _
      | some s =>
          refine (transientOf_meets c hopen hs).bind fun t₂ transient h₂ => ?_
          have hss₂ : t₂.run.screens = ss := h₂.screens.trans hss
          cases he : s.offers? c.id c.element with
          | none => exact pure_meets ⟨hss₂, by rw [h₂.entered]; exact Nat.le_add_right _ _⟩
          | some e =>
              have hclosings : Action.closingsAll e.actions ⊆ ss.flatMap Screen.closings := by
                intro c hc
                refine List.mem_flatMap.mpr ⟨s, hss ▸ Run.screen_mem hs, ?_⟩
                exact List.mem_flatMap.mpr ⟨e, Screen.offers_mem he, hc⟩
              have hon : t₂.run.screenId ≠ none := by
                rw [h₂.screenId]
                intro hn
                simp [Run.screen?, hn] at hs
              refine (applyEvent_strides rules hw c transient hclosings hss₂ h₂.isOpen hon).mono ?_
              exact fun t₃ _ h₃ => ⟨h₃.1, by rw [← h₂.entered]; exact h₃.2⟩

structure Answered (ss : List Screen) (n : Nat) (before : Run) (t : Turn) (o : Response) : Prop where
  tells : o.Of before t
  screens : t.run.screens = ss
  entered : t.entered.length ≤ n

theorem processEvent_meets (hw : EntryWidth rules ss w) (c : EventCall) (hss : t.run.screens = ss) :
    (processEvent rules c).Meets (Turn.Stride ss) Turn.Open (Answered ss
      (t.entered.length + (further w rules.interpreter.maxChainedEntries + 1)) t.run) t := by
  refine run_meets.bind fun t₁ before h₁ => ?_
  obtain ⟨rfl, rfl⟩ := h₁
  refine (eventOutcome_strides rules hw _ hss).bind fun t₂ outcome h₂ => ?_
  refine (respond_meets _ _).bind fun t₃ o h₃ => ?_
  obtain ⟨rfl, rfl⟩ := h₃
  exact pure_meets ⟨⟨_, _, none, _, rfl⟩, h₂.1, h₂.2⟩

theorem settleIn_respond (hw : EntryWidth rules ss w) (n : Nat) {s : Screen} (hs : s ∈ ss)
    (hss : t.run.screens = ss) (hopen : t.Open) {before : Run} {answer : Turn → Response}
    (hanswer : ∀ t, (answer t).Of before t) :
    ((settleIn rules n s t).bind fun t' _ => .done t' (answer t')).Meets (Turn.Stride ss) Turn.Open
      (Answered ss (t.entered.length + further w n) before) t := by
  refine Work.Meets.bind (settleIn_strides rules hw n s t hs hss hopen) fun t' _ h => ?_
  exact ⟨.refl, hanswer t', h.1, h.2⟩

end Act

end GuidedJourney
