import GuidedJourney.Run.Request
import Mathlib.Data.List.TakeWhile
import Mathlib.Logic.Relation

namespace GuidedJourney

open Relation

/-- An id that can be navigated to. Only screens of an agent may be without a proper one. -/
def Run.Names (r : Run) (id : String) : Prop :=
  id ≠ "" ∨ ∃ a, r.agent? = some a ∧ id ∈ a.screens.map Screen.id

namespace Turn

def moveTo (s : Screen) (t : Turn) : Turn :=
  { t with
    run := t.run.arrive s (t.run.stack ++ [s.id])
    released := t.released ++
      if (t.run.screenId.getD "").isEmpty then [] else [.ofScreen t.run.screenId]
    entered := t.entered ++ [s.id] }

def backTo (s : Screen) (t : Turn) : Turn :=
  { t with
    run := t.run.arrive s t.run.stack.dropLast
    released := t.released ++ [.ofScreen t.run.screenId]
    entered := t.entered ++ [s.id] }

/-- The turn that hands over to an agent, still on the old screen. -/
def handTo (a : Agent) (t : Turn) : Turn :=
  { t with
    run := { t.run with agentId := some a.id, stack := [] }
    released := t.released ++ [.all] }

/-- Changes within one visit of a screen. -/
inductive Edit (t : Turn) : Turn → Prop
  | warn (message : String) : Edit t { t with warnings := t.warnings ++ [message] }
  | count (tool : String) (hopen : t.run.completed = false) :
      Edit t { t with
        run := { t.run with store := (t.run.store.incrementIn .module toolCallCounts tool 1).1 } }
  | give (s : Screen) (e : Element) (element : Value) (values : Fields)
      (hopen : t.run.completed = false) (hs : t.run.screen? = some s)
      (he : s.element? element = some e) (hv : ∀ f ∈ values, e.allows f) :
      Edit t { t with
        run := { t.run with interactions := t.run.interactions.give (e.id?.getD "") values } }
  | record (event element : Value) (hopen : t.run.completed = false) :
      Edit t { t with run := t.run.record event element }
  | write (w : StateWrite) (hopen : t.run.completed = false) (hw : w.updates.isEmpty = false) :
      Edit t { t with
        run := { t.run with store := t.run.store.commit w }
        writes := t.writes ++ [w] }
  | handOut (c : ToolCall) (hopen : t.run.completed = false) :
      Edit t { t with toolCalls := t.toolCalls ++ [c] }
  | note (c : CallRecord) (hopen : t.run.completed = false) :
      Edit t { t with serviceCalls := t.serviceCalls ++ [c] }
  | complete (reason : Value) (flowCompleted : Bool) (hopen : t.run.completed = false) :
      Edit t { t with
        run := t.run.complete reason flowCompleted
        released := t.released ++ [.all] }

/-- Changes that end a visit: screen entries, going back and handoffs. -/
inductive Move (t : Turn) : Turn → Prop
  | start (s : Screen) (hs : t.run.agent?.bind (·.screens.head?) = some s) : Move t (t.moveTo s)
  | navigate (s : Screen) (hopen : t.run.completed = false) (hon : t.run.screenId ≠ none)
      (hs : t.run.findScreen? s.id = some s) (hn : t.run.Names s.id) : Move t (t.moveTo s)
  | back (s : Screen) (hopen : t.run.completed = false) (hs : Act.previousScreen t.run = .ok s) :
      Move t (t.backTo s)
  | handoff (id : Value) (a : Agent) (s : Screen) (hopen : t.run.completed = false)
      (ha : Act.handoffTarget? t.run id = some a) (hs : a.screens.head? = some s) :
      Move t ((t.handTo a).moveTo s)
  | leave (id : Value) (a : Agent) (hopen : t.run.completed = false)
      (ha : Act.handoffTarget? t.run id = some a) (hs : a.screens.head? = none) :
      Move t { t.handTo a with run := (t.handTo a).run.leave }

/-- The turn with something written into the state; without updates nothing is. -/
def write (t : Turn) (w : StateWrite) : Turn :=
  if w.updates.isEmpty then t
  else { t with
    run := { t.run with store := t.run.store.commit w }
    writes := t.writes ++ [w] }

def Change (t t' : Turn) : Prop := t.Edit t' ∨ t.Move t'

inductive Jot (t : Turn) : Turn → Prop
  | warn (message : String) : Jot t { t with warnings := t.warnings ++ [message] }
  | write (w : StateWrite) (hw : w.updates.isEmpty = false) :
      Jot t { t with
        run := { t.run with store := t.run.store.commit w }
        writes := t.writes ++ [w] }
  | handOut (c : ToolCall) : Jot t { t with toolCalls := t.toolCalls ++ [c] }
  | note (c : CallRecord) : Jot t { t with serviceCalls := t.serviceCalls ++ [c] }

theorem Change.released {t t' : Turn} (h : t.Change t') :
    ∃ more, t'.released = t.released ++ more := by
  rcases h with h | h
  · cases h with
    | complete => exact ⟨_, rfl⟩
    | _ => exact ⟨[], (List.append_nil _).symm⟩
  · cases h with
    | handoff => exact ⟨_, List.append_assoc _ _ _⟩
    | _ => exact ⟨_, rfl⟩

theorem Edit.visit {t t' : Turn} (h : t.Edit t') : t'.run.visit = t.run.visit := by
  cases h <;> rfl

theorem Move.visit {t t' : Turn} (h : t.Move t') : t'.run.visit = t.run.visit + 1 := by
  cases h <;> rfl

def Kept (t t' : Turn) : Prop := ∃ store, t'.run = { t.run with store }

theorem Kept.refl (t : Turn) : t.Kept t := ⟨t.run.store, rfl⟩

theorem Kept.trans {t t' t'' : Turn} (h : t.Kept t') (h' : t'.Kept t'') : t.Kept t'' := by
  obtain ⟨store, he⟩ := h
  obtain ⟨store', he'⟩ := h'
  exact ⟨store', by rw [he', he]⟩

theorem Jot.kept {t t' : Turn} (h : t.Jot t') : t.Kept t' := by
  cases h <;> exact ⟨_, rfl⟩

theorem write_jots (t : Turn) (w : StateWrite) : ReflTransGen Jot t (t.write w) := by
  unfold write
  split
  · exact .refl
  · rename_i hu
    exact .single (.write w (by simpa using hu))

theorem Jot.edit {t t' : Turn} (h : t.Jot t') (hopen : t.run.completed = false) : t.Edit t' := by
  cases h with
  | warn message => exact .warn message
  | write w hw => exact .write w hopen hw
  | handOut c => exact .handOut c hopen
  | note c => exact .note c hopen

theorem Kept.completed {t t' : Turn} (h : t.Kept t') : t'.run.completed = t.run.completed := by
  obtain ⟨store, he⟩ := h
  rw [he]
  rfl

theorem Kept.names {t t' : Turn} (h : t.Kept t') {id : String} (hn : t.run.Names id) :
    t'.run.Names id := by
  obtain ⟨store, he⟩ := h
  rw [he]
  exact hn

end Turn

theorem StateWrite.copied_eq (w : StateWrite) (h : w.copies = true) : w.copied = w := by
  have hall : w.updates.takeWhile (fun e => e.2.copies) = w.updates :=
    List.takeWhile_eq_self_iff.mpr (List.all_eq_true.mp h)
  rw [copied, hall]

namespace Run

def Becomes : Run → Run → Prop :=
  ReflTransGen fun r r' => ∃ t t' : Turn, t.Change t' ∧ t.run = r ∧ t'.run = r'

/-- The run `r'` comes from `r` on one visit of a screen: without entering one, going back or handing
over. -/
def Remains : Run → Run → Prop :=
  ReflTransGen fun r r' => ∃ t t' : Turn, t.Edit t' ∧ t.run = r ∧ t'.run = r'

theorem Becomes.path {r : Run} {t t' : Turn} (h : r.Becomes t.run)
    (hp : ReflTransGen Turn.Change t t') : r.Becomes t'.run := by
  induction hp with
  | refl => exact h
  | tail _ hc ih => exact ih.tail ⟨_, _, hc, rfl, rfl⟩

theorem Becomes.visit {r r' : Run} (h : r.Becomes r') : r.visit ≤ r'.visit := by
  induction h with
  | refl => exact Nat.le_refl _
  | tail _ hc ih =>
      obtain ⟨t, t', hc, rfl, rfl⟩ := hc
      rcases hc with hc | hc
      · rw [hc.visit]; exact ih
      · rw [hc.visit]; omega

theorem Remains.visit {r r' : Run} (h : r.Remains r') : r'.visit = r.visit := by
  induction h with
  | refl => rfl
  | tail _ hc ih =>
      obtain ⟨t, t', hc, rfl, rfl⟩ := hc
      rw [hc.visit, ih]

theorem Becomes.remains {r r' : Run} (h : r.Becomes r') (hv : r'.visit = r.visit) :
    r.Remains r' := by
  induction h with
  | refl => exact .refl
  | tail hpath hc ih =>
      obtain ⟨t, t', hc, rfl, rfl⟩ := hc
      have hle := Becomes.visit hpath
      rcases hc with hc | hc
      · exact (ih (by rw [← hv, hc.visit])).tail ⟨t, t', hc, rfl, rfl⟩
      · rw [hc.visit] at hv; omega

end Run

namespace Work

variable {α β : Type} {R : Turn → Turn → Prop} {Q : Turn → α → Prop} {t : Turn}

/-- Work that goes from a turn by the changes `R`, also between waits, and ends as `Q` says. Where it
goes on after a wait, what was let go before is settled. -/
def Goes (R : Turn → Turn → Prop) (Q : Turn → α → Prop) : Work α → Turn → Prop
  | .done t' a, t => ReflTransGen R t t' ∧ Q t' a
  | .failed t' _, t => ReflTransGen R t t'
  | .waiting t' _ k, t => ReflTransGen R t t' ∧ ∀ r, (k r).Goes R Q { t' with released := [] }

theorem bind_assoc {γ : Type} (w : Work α) (f : Turn → α → Work β) (g : Turn → β → Work γ) :
    (w.bind f).bind g = w.bind fun t a => (f t a).bind g := by
  induction w with
  | done | failed => rfl
  | waiting t c k ih => exact congrArg (Work.waiting t c) (funext ih)

theorem Goes.after {t₀ : Turn} {w : Work α} (h : ReflTransGen R t₀ t) (hw : w.Goes R Q t) :
    w.Goes R Q t₀ := by
  cases w with
  | done t' a => exact ⟨h.trans hw.1, hw.2⟩
  | failed t' f => exact h.trans hw
  | waiting t' c k => exact ⟨h.trans hw.1, hw.2⟩

theorem Goes.bind {Q' : Turn → β → Prop} {w : Work α} {f : Turn → α → Work β} (hw : w.Goes R Q t)
    (hf : ∀ t' a, Q t' a → (f t' a).Goes R Q' t') : (w.bind f).Goes R Q' t := by
  induction w generalizing t with
  | done t' a => exact (hf t' a hw.2).after hw.1
  | failed t' e => exact hw
  | waiting t' c k ih => exact ⟨hw.1, fun r => ih r (hw.2 r)⟩

theorem Goes.mono {R' : Turn → Turn → Prop} {Q' : Turn → α → Prop} {w : Work α} (hw : w.Goes R Q t)
    (hR : R ≤ R') (hQ : ∀ t a, Q t a → Q' t a) : w.Goes R' Q' t := by
  induction w generalizing t with
  | done t' a => exact ⟨ReflTransGen.mono hR _ _ hw.1, hQ _ _ hw.2⟩
  | failed t' e => exact ReflTransGen.mono hR _ _ hw
  | waiting t' c k ih => exact ⟨ReflTransGen.mono hR _ _ hw.1, fun r => ih r (hw.2 r)⟩

end Work

namespace Act

variable {α β : Type} {R : Turn → Turn → Prop} {Q : Turn → α → Prop} {t : Turn}

def Goes (R : Turn → Turn → Prop) (Q : Turn → α → Prop) (x : Act α) (t : Turn) : Prop :=
  (x t).Goes R Q t

theorem Goes.bind {Q' : Turn → β → Prop} {x : Act α} {f : α → Act β} (hx : x.Goes R Q t)
    (hf : ∀ t' a, Q t' a → (f a).Goes R Q' t') : (x >>= f).Goes R Q' t :=
  Work.Goes.bind hx hf

theorem Goes.mono {Q' : Turn → α → Prop} {x : Act α} (hx : x.Goes R Q t)
    (hQ : ∀ t a, Q t a → Q' t a) : x.Goes R Q' t :=
  Work.Goes.mono hx (fun _ _ h => h) hQ

theorem pure_goes {a : α} (h : Q t a) : (pure a : Act α).Goes R Q t := ⟨.refl, h⟩

theorem ofExcept_goes (x : Except Fault α) :
    (ofExcept x).Goes R (fun t' a => t' = t ∧ x = .ok a) t := by
  cases x with
  | ok a => exact ⟨.refl, rfl, rfl⟩
  | error f => exact .refl

theorem run_goes : run.Goes R (fun t' r => t' = t ∧ r = t.run) t := ⟨.refl, rfl, rfl⟩

theorem jot_goes {f : Turn → Turn} (h : t.Jot (f t)) :
    (modify f).Goes Turn.Jot (fun t' _ => t.Kept t') t :=
  ⟨.single h, h.kept⟩

theorem warn_goes (message : String) : (warn message).Goes Turn.Jot (fun t' _ => t.Kept t') t :=
  jot_goes (.warn message)

theorem allHold_goes (conditions : List Condition) (transient : Fields) :
    (allHold conditions transient).Goes R (fun t' _ => t' = t) t := by
  refine run_goes.bind fun t' r h => ?_
  obtain ⟨rfl, rfl⟩ := h
  exact (ofExcept_goes _).mono fun _ _ h => h.1

theorem render_goes (fields : Fields) : (render fields).Goes R (fun t' _ => t' = t) t := by
  refine run_goes.bind fun t' r h => ?_
  obtain ⟨rfl, rfl⟩ := h
  exact (ofExcept_goes _).mono fun _ _ h => h.1

theorem commit_apply (w : StateWrite) (t : Turn) : commit w t = .done (t.write w) () := by
  unfold commit Turn.write
  split <;> rfl

theorem write_copies {w : StateWrite} (h : w.copies = true) (t : Turn) :
    write w t = .done (t.write w) () := by
  change (commit w.copied t).bind _ = _
  rw [w.copied_eq h, commit_apply]
  exact congrFun (if_pos h) _

theorem write_lost {w : StateWrite} (h : w.copies = false) (t : Turn) :
    write w t = .failed (t.write w.copied) .tooDeep := by
  change (commit w.copied t).bind _ = _
  rw [commit_apply]
  exact congrFun (if_neg (by simp [h])) _

theorem write_one_lost (scope : Scope) (key : Key) {value : Value} (h : value.copies = false)
    (t : Turn) : write ⟨scope, [(key, value)]⟩ t = .failed t .tooDeep := by
  have hlost : (⟨scope, [(key, value)]⟩ : StateWrite).copies = false := (Bool.and_true _).trans h
  have hnone : (⟨scope, [(key, value)]⟩ : StateWrite).copied = ⟨scope, []⟩ := by
    rw [StateWrite.copied, List.takeWhile_cons_of_neg (by simp [h])]
  rw [write_lost hlost, hnone]
  rfl

theorem commit_goes (w : StateWrite) : (commit w).Goes Turn.Jot (fun t' _ => t.Kept t') t := by
  unfold commit
  split
  · exact pure_goes (.refl t)
  · rename_i hw
    exact jot_goes (.write w (by simpa using hw))

theorem write_goes (w : StateWrite) : (write w).Goes Turn.Jot (fun t' _ => t.Kept t') t := by
  refine (commit_goes w.copied).bind fun t' _ h => ?_
  split
  · exact pure_goes h
  · exact .refl

end Act

end GuidedJourney
