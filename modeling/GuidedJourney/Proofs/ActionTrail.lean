import GuidedJourney.Proofs.Failures

namespace GuidedJourney

open Act

namespace Work

variable {α β : Type} (replies : Nat → ServiceReply)

/-- What work comes to if its calls get the replies from the `n`-th on, with the number of the first
reply that is left. -/
def answered : Work α → Nat → Turn × Except Fault α × Nat
  | .done t a, n => (t, .ok a, n)
  | .failed t e, n => (t, .error e, n)
  | .waiting _ _ k, n => (k (replies n)).answered (n + 1)

variable {replies}

theorem answered_bind {w : Work α} {f : Turn → α → Work β} {n m : Nat} {t' : Turn} {b : β} :
    (w.bind f).answered replies n = (t', .ok b, m) ↔
      ∃ t a n', w.answered replies n = (t, .ok a, n') ∧ (f t a).answered replies n' = (t', .ok b, m) := by
  induction w generalizing n with
  | done t a =>
      constructor
      · exact fun h => ⟨t, a, n, rfl, h⟩
      · rintro ⟨_, _, _, he, h⟩
        cases he
        exact h
  | failed t e =>
      constructor
      · nofun
      · rintro ⟨_, _, _, he, -⟩
        cases he
  | waiting t c k ih => exact ih (replies n)

end Work

inductive Fate where
  /-- Its conditions did not hold. -/
  | skipped
  /-- It was carried out, and its next sibling is come to. -/
  | passed
  /-- It was a service call; one of its branches is followed. -/
  | answered (record : CallRecord)
  /-- It was carried out, and nothing is come to any more. -/
  | ended (ending : Ending)

structure Footstep where
  action : Action
  /-- The run as the action found it. -/
  before : Run
  fate : Fate

abbrev Stage := Turn × Nat

namespace Footstep

def isExecuted (s : Footstep) : Bool :=
  match s.fate with
  | .skipped => false
  | _ => true

end Footstep

namespace Action

def Permits (transient : Fields) (a : Action) (r : Run) (holds : Bool) : Prop :=
  Condition.allHold a.conditions (r.context transient) = .ok holds

/-- What an action does after which its next sibling is come to. -/
inductive Passes : Action → Turn → Turn → Prop
  | astray (conditions) {deeplink} {t : Turn} (h : t.run.target? deeplink = .ok none) :
      Passes (.navigate conditions deeplink) t
        { t with warnings := t.warnings ++ ["Navigation target not found: " ++ deeplink] }
  | update (conditions) {scope updates} {t t' : Turn} (h : write (.ofFields scope updates) t = .done t' ()) :
      Passes (.update conditions scope updates) t t'
  | tool (conditions) {name parameters} {t t' : Turn} (h : callTool name parameters t = .done t' ()) :
      Passes (.tool conditions name parameters) t t'
  | unknown (conditions tag source) (t : Turn) : Passes (.unknown conditions tag source) t
      { t with warnings := t.warnings ++ ["Unknown action type ignored: " ++ tag] }

inductive Ends : Action → Run → Ending → Prop
  | navigate (conditions) {deeplink s} {r : Run} (h : r.target? deeplink = .ok (some s)) :
      Ends (.navigate conditions deeplink) r (.navigate s.id)
  | close (conditions flowCompleted parameters) (r : Run) :
      Ends (.close conditions flowCompleted parameters) r
        (.close (closeReason parameters) flowCompleted)

def replyTo (canCall : Bool) (replies : Nat → ServiceReply) (target : ServiceTarget) :
    Stage → ServiceReply × Stage
  | (t, n) =>
    if target.serviceName.isEmpty then
      (.failure (some "Service call without a service name") .null, t, n)
    else if !canCall then (.failure (some "No service caller configured") .null, t, n)
    else (replies n, { t with released := [] }, n + 1)

/-- What a service call does: it is put on record with its reply, a payload is stored where the call asks
for that, and one of the branches follows. -/
inductive Calls (canCall : Bool) (replies : Nat → ServiceReply) :
    Action → Stage → CallRecord → List Action → Stage → Prop
  | success (conditions) {target onSuccess onError} {t t₁ t₂ : Turn} {n n₁ : Nat} {params payload}
      (hparams : t.run.scopes.renderFields target.parameters = .ok params)
      (hreply : replyTo canCall replies target (t, n) = (.success payload, t₁, n₁))
      (hstore : storePayload target.mapping payload { t₁ with
        serviceCalls := t₁.serviceCalls ++ [⟨⟨target.operation, params⟩, true, none⟩] } = .done t₂ ()) :
      Calls canCall replies (.call conditions target onSuccess onError) (t, n)
        ⟨⟨target.operation, params⟩, true, none⟩ onSuccess (t₂, n₁)
  | failure (conditions) {target onSuccess onError} {t t₁ : Turn} {n n₁ : Nat} {params error payload}
      (hparams : t.run.scopes.renderFields target.parameters = .ok params)
      (hreply : replyTo canCall replies target (t, n) = (.failure error payload, t₁, n₁)) :
      Calls canCall replies (.call conditions target onSuccess onError) (t, n)
        ⟨⟨target.operation, params⟩, false, error⟩ onError ({ t₁ with
          serviceCalls := t₁.serviceCalls ++ [⟨⟨target.operation, params⟩, false, error⟩] }, n₁)

/-- The way through a list of actions: each finds the stage that those before it have left, and its
conditions are tried there. A service call puts one of its branches in the place of all that is left of
the list. -/
inductive Trail (canCall : Bool) (transient : Fields) (replies : Nat → ServiceReply) :
    Stage → List Action → List Footstep → Stage → Prop
  | nil (s : Stage) : Trail canCall transient replies s [] [] s
  | skip {t : Turn} {n : Nat} {a : Action} {as : List Action} {trail : List Footstep} {s : Stage}
      (h : a.Permits transient t.run false) (hrest : Trail canCall transient replies (t, n) as trail s) :
      Trail canCall transient replies (t, n) (a :: as) (⟨a, t.run, .skipped⟩ :: trail) s
  | pass {t t' : Turn} {n : Nat} {a : Action} {as : List Action} {trail : List Footstep} {s : Stage}
      (h : a.Permits transient t.run true) (hstep : a.Passes t t')
      (hrest : Trail canCall transient replies (t', n) as trail s) :
      Trail canCall transient replies (t, n) (a :: as) (⟨a, t.run, .passed⟩ :: trail) s
  | answer {t : Turn} {n : Nat} {a : Action} (as : List Action) {record : CallRecord}
      {branch : List Action} {s' s : Stage} {trail : List Footstep}
      (h : a.Permits transient t.run true)
      (hcall : a.Calls canCall replies (t, n) record branch s')
      (hrest : Trail canCall transient replies s' branch trail s) :
      Trail canCall transient replies (t, n) (a :: as) (⟨a, t.run, .answered record⟩ :: trail) s
  | stop {t : Turn} {n : Nat} {a : Action} (as : List Action) {e : Ending}
      (h : a.Permits transient t.run true) (hend : a.Ends t.run e) :
      Trail canCall transient replies (t, n) (a :: as) [⟨a, t.run, .ended e⟩] (t, n)

end Action

def Batch.count (b : Batch) (s : Footstep) : Batch :=
  match s.fate with
  | .skipped => { b with skipped := b.skipped + 1 }
  | .passed | .answered _ => { b with executed := b.executed + 1 }
  | .ended e => { b with executed := b.executed + 1, ending := e }

namespace Act

variable {α β : Type} {replies : Nat → ServiceReply}

def Quiet (x : Act α) : Prop :=
  ∀ t, ∃ t' o, x t = Work.ended t' o ∧ t'.serviceCalls = t.serviceCalls

theorem Quiet.bind {x : Act α} {f : α → Act β} (hx : x.Quiet) (hf : ∀ a, (f a).Quiet) :
    (x >>= f).Quiet := by
  intro t
  obtain ⟨t₁, o, h, hcalls⟩ := hx t
  cases o with
  | ok a =>
      obtain ⟨t₂, o, h', hcalls'⟩ := hf a t₁
      exact ⟨t₂, o, (congrArg (Work.bind · _) h).trans h', hcalls'.trans hcalls⟩
  | error e => exact ⟨t₁, .error e, congrArg (Work.bind · _) h, hcalls⟩

theorem pure_quiet (a : α) : (pure a : Act α).Quiet := fun t => ⟨t, .ok a, rfl, rfl⟩

theorem run_quiet : run.Quiet := fun t => ⟨t, .ok t.run, rfl, rfl⟩

theorem warn_quiet (message : String) : (warn message).Quiet := fun _ => ⟨_, .ok (), rfl, rfl⟩

theorem ofExcept_quiet (x : Except Fault α) : (ofExcept x).Quiet := by
  intro t
  cases x with
  | ok a => exact ⟨t, .ok a, rfl, rfl⟩
  | error e => exact ⟨t, .error e, rfl, rfl⟩

theorem ite_quiet {c : Prop} [Decidable c] {x y : Act α} (hx : x.Quiet) (hy : y.Quiet) :
    (if c then x else y).Quiet := by
  split
  · exact hx
  · exact hy

theorem commit_quiet (w : StateWrite) : (commit w).Quiet :=
  ite_quiet (pure_quiet ()) fun _ => ⟨_, .ok (), rfl, rfl⟩

theorem write_quiet (w : StateWrite) : (write w).Quiet :=
  (commit_quiet _).bind fun _ => ite_quiet (pure_quiet ()) (ofExcept_quiet _)

theorem allHold_quiet (conditions : List Condition) (transient : Fields) :
    (allHold conditions transient).Quiet :=
  run_quiet.bind fun _ => ofExcept_quiet _

theorem render_quiet (fields : Fields) : (render fields).Quiet :=
  run_quiet.bind fun _ => ofExcept_quiet _

theorem storePayload_quiet (mapping : Option ResponseMapping) (payload : Value) :
    (storePayload mapping payload).Quiet := by
  cases mapping with
  | none => exact pure_quiet ()
  | some m => exact (ofExcept_quiet _).bind fun _ => write_quiet _

theorem callTool_quiet (name : String) (parameters : Fields) : (callTool name parameters).Quiet := by
  have hhandOut : ∀ c : ToolCall, (modify fun t => { t with toolCalls := t.toolCalls ++ [c] }).Quiet :=
    fun _ _ => ⟨_, .ok (), rfl, rfl⟩
  refine (render_quiet _).bind fun params => (hhandOut ⟨name, params⟩).bind fun _ => ?_
  have hanswer : ∀ (question : Value) (w : StateWrite), (do
      ofExcept (question.legible Value.stackRoom)
      write w : Act Unit).Quiet := fun _ _ => (ofExcept_quiet _).bind fun _ => write_quiet _
  exact ite_quiet (ite_quiet (hanswer _ _) (pure_quiet ()))
    (ite_quiet (write_quiet _) (pure_quiet ()))

theorem findTarget_quiet (deeplink : String) : (findTarget deeplink).Quiet := by
  refine run_quiet.bind fun r => (ofExcept_quiet _).bind fun s? => ?_
  cases s? with
  | some s => exact pure_quiet _
  | none => exact (warn_quiet _).bind fun _ => pure_quiet _

theorem ofExcept_done {x : Except Fault α} {t t' : Turn} {a : α} (h : ofExcept x t = .done t' a) :
    x = .ok a ∧ t' = t := by
  cases x with
  | ok a' => cases h; exact ⟨rfl, rfl⟩
  | error f => cases h

theorem Quiet.answered {x : Act α} (hx : x.Quiet) {t t' : Turn} {a : α} {n m : Nat}
    (h : (x t).answered replies n = (t', .ok a, m)) : x t = .done t' a ∧ m = n := by
  obtain ⟨t₁, o, hw, -⟩ := hx t
  rw [hw] at h ⊢
  cases o with
  | ok a' => cases h; exact ⟨rfl, rfl⟩
  | error e => cases h

theorem Quiet.serviceCalls {x : Act α} (hx : x.Quiet) {t t' : Turn} {a : α} (h : x t = .done t' a) :
    t'.serviceCalls = t.serviceCalls := by
  obtain ⟨t₁, o, hw, hcalls⟩ := hx t
  rw [hw] at h
  cases o with
  | ok a' => cases h; exact hcalls
  | error e => cases h

end Act

namespace Action

variable {canCall : Bool} {transient : Fields} {replies : Nat → ServiceReply} {t t' : Turn} {n m : Nat}

theorem allHold_done {conditions : List Condition} {holds : Bool}
    (h : allHold conditions transient t = .done t' holds) :
    Condition.allHold conditions (t.run.context transient) = .ok holds ∧ t' = t :=
  ofExcept_done (x := Condition.allHold conditions (t.run.context transient)) h

theorem findTarget_done {deeplink : String} {s? : Option Screen}
    (h : findTarget deeplink t = .done t' s?) : t.run.target? deeplink = .ok s? ∧
      t' = if s?.isSome then t
        else { t with warnings := t.warnings ++ ["Navigation target not found: " ++ deeplink] } := by
  change (ofExcept (t.run.target? deeplink) t).bind _ = _ at h
  cases hs : t.run.target? deeplink with
  | ok s? =>
      rw [hs] at h
      cases s? with
      | some s => cases h; exact ⟨rfl, rfl⟩
      | none => cases h; exact ⟨rfl, rfl⟩
  | error f => rw [hs] at h; cases h

theorem callService_answered {target : ServiceTarget} {reply : ServiceReply}
    (h : (callService canCall target t).answered replies n = (t', .ok reply, m)) :
    ∃ params t₁, t.run.scopes.renderFields target.parameters = .ok params ∧
      replyTo canCall replies target (t, n) = (reply, t₁, m) ∧
      t' = { t₁ with serviceCalls :=
        t₁.serviceCalls ++ [⟨⟨target.operation, params⟩, reply.isOk, reply.error?⟩] } := by
  obtain ⟨t₁, params, n₁, hrender, hrest⟩ := Work.answered_bind.mp h
  obtain ⟨hrendered, rfl⟩ := (render_quiet _).answered hrender
  obtain ⟨hparams, rfl⟩ := ofExcept_done (x := t.run.scopes.renderFields target.parameters) hrendered
  obtain ⟨t₂, ⟨⟩, n₂, hlegible, hasked⟩ := Work.answered_bind.mp hrest
  obtain ⟨hwritten, rfl⟩ := (ofExcept_quiet _).answered hlegible
  obtain ⟨-, rfl⟩ := ofExcept_done hwritten
  obtain ⟨t₃, reply', n₃, hreply, hend⟩ := Work.answered_bind.mp hasked
  cases hend
  refine ⟨params, t₃, hparams, ?_, rfl⟩
  unfold askService at hreply
  unfold replyTo
  dsimp only
  split at hreply
  · rename_i hname; rw [if_pos hname]; cases hreply; rfl
  · rename_i hname
    rw [if_neg hname]
    split at hreply
    · rename_i hcan; rw [if_pos hcan]; cases hreply; rfl
    · rename_i hcan; rw [if_neg hcan]; cases hreply; rfl

mutual

theorem perform_answered : ∀ (a : Action) (b : Batch) {t t' : Turn} {n m : Nat} {b' : Batch}
    {goesOn : Bool},
    (perform canCall transient a b t).answered replies n = (t', .ok (b', goesOn), m) →
    (goesOn = true ∧ a.Passes t t' ∧ m = n ∧ b' = b) ∨
    (goesOn = false ∧ t' = t ∧ m = n ∧ ∃ e, a.Ends t.run e ∧ b' = { b with ending := e }) ∨
    (goesOn = false ∧ ∃ record branch s trail, a.Calls canCall replies (t, n) record branch s ∧
      Trail canCall transient replies s branch trail (t', m) ∧ b' = trail.foldl Batch.count b)
  | .navigate conditions deeplink, b, t, t', n, m, b', goesOn, h => by
      rw [perform] at h
      obtain ⟨t₁, s?, n₁, hfind, hend⟩ := Work.answered_bind.mp h
      obtain ⟨hdone, hn⟩ := (findTarget_quiet _).answered hfind
      obtain ⟨htarget, ht⟩ := findTarget_done hdone
      cases s? with
      | some s => cases hend; exact .inr (.inl ⟨rfl, ht, hn, _, .navigate _ htarget, rfl⟩)
      | none => cases hend; subst ht; exact .inl ⟨rfl, .astray _ htarget, hn, rfl⟩
  | .update conditions scope updates, b, t, t', n, m, b', goesOn, h => by
      rw [perform] at h
      obtain ⟨t₁, ⟨⟩, n₁, hwrite, hend⟩ := Work.answered_bind.mp h
      obtain ⟨hdone, hn⟩ := (write_quiet _).answered hwrite
      cases hend
      exact .inl ⟨rfl, .update _ hdone, hn, rfl⟩
  | .call conditions target onSuccess onError, b, t, t', n, m, b', goesOn, h => by
      rw [perform] at h
      obtain ⟨t₁, reply, n₁, hcall, hrest⟩ := Work.answered_bind.mp h
      obtain ⟨params, t₂, hparams, hreply, rfl⟩ := callService_answered hcall
      cases reply with
      | success payload =>
          obtain ⟨t₃, ⟨⟩, n₂, hstore, hlast⟩ := Work.answered_bind.mp hrest
          obtain ⟨hdone, rfl⟩ := (storePayload_quiet _ _).answered hstore
          obtain ⟨t₄, b₁, n₃, hbranch, hend⟩ := Work.answered_bind.mp hlast
          cases hend
          obtain ⟨trail, htrail, rfl⟩ := performAll_answered onSuccess b hbranch
          exact .inr (.inr ⟨rfl, _, _, _, trail, .success _ hparams hreply hdone, htrail, rfl⟩)
      | failure error payload =>
          obtain ⟨t₃, b₁, n₂, hbranch, hend⟩ := Work.answered_bind.mp hrest
          cases hend
          obtain ⟨trail, htrail, rfl⟩ := performAll_answered onError b hbranch
          exact .inr (.inr ⟨rfl, _, _, _, trail, .failure _ hparams hreply, htrail, rfl⟩)
  | .close conditions flowCompleted parameters, b, t, t', n, m, b', goesOn, h => by
      rw [perform] at h
      obtain ⟨t₁, ⟨⟩, n₁, hwritten, hend⟩ := Work.answered_bind.mp h
      obtain ⟨hdone, rfl⟩ := (ofExcept_quiet _).answered hwritten
      obtain ⟨-, rfl⟩ := ofExcept_done hdone
      cases hend
      exact .inr (.inl ⟨rfl, rfl, rfl, _, .close _ _ _ _, rfl⟩)
  | .tool conditions name parameters, b, t, t', n, m, b', goesOn, h => by
      rw [perform] at h
      obtain ⟨t₁, ⟨⟩, n₁, htool, hend⟩ := Work.answered_bind.mp h
      obtain ⟨hdone, hn⟩ := (callTool_quiet _ _).answered htool
      cases hend
      exact .inl ⟨rfl, .tool _ hdone, hn, rfl⟩
  | .unknown conditions tag source, b, t, t', n, m, b', goesOn, h => by
      rw [perform] at h
      cases h
      exact .inl ⟨rfl, .unknown _ _ _ _, rfl, rfl⟩

theorem performAll_answered : ∀ (as : List Action) (b : Batch) {t t' : Turn} {n m : Nat} {b' : Batch},
    (performAll canCall transient as b t).answered replies n = (t', .ok b', m) →
    ∃ trail, Trail canCall transient replies (t, n) as trail (t', m) ∧
      b' = trail.foldl Batch.count b
  | [], b, t, t', n, m, b', h => by
      rw [performAll] at h
      cases h
      exact ⟨[], .nil _, rfl⟩
  | a :: as, b, t, t', n, m, b', h => by
      rw [performAll] at h
      obtain ⟨t₁, holds, n₁, hholds, hrest⟩ := Work.answered_bind.mp h
      obtain ⟨hdone, rfl⟩ := (allHold_quiet _ _).answered hholds
      obtain ⟨hpermits, rfl⟩ := allHold_done hdone
      cases holds with
      | false =>
          obtain ⟨trail, htrail, rfl⟩ := performAll_answered as _ hrest
          exact ⟨_, .skip hpermits htrail, rfl⟩
      | true =>
          obtain ⟨t₂, ⟨b₁, goesOn⟩, n₂, hperform, hlast⟩ := Work.answered_bind.mp hrest
          rcases perform_answered a _ hperform with ⟨rfl, hpasses, rfl, rfl⟩ |
            ⟨rfl, rfl, rfl, e, hends, rfl⟩ | ⟨rfl, record, branch, s, trail, hcalls, htrail, rfl⟩
          · obtain ⟨trail, htrail, rfl⟩ := performAll_answered as _ hlast
            exact ⟨_, .pass hpermits hpasses htrail, rfl⟩
          · cases hlast
            exact ⟨_, .stop as hpermits hends, rfl⟩
          · cases hlast
            exact ⟨_, .answer as hpermits hcalls htrail, rfl⟩

end

end Action

end GuidedJourney
