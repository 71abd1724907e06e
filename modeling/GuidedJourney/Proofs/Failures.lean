import GuidedJourney.Proofs.DataFaults
import GuidedJourney.Proofs.RequestChange
import GuidedJourney.Proofs.ValidJourney

namespace GuidedJourney

namespace Work

variable {α β : Type} {Q : List ServiceReply → Turn → α → Prop}
  {E : List ServiceReply → Turn → Fault → Prop}

/-- Whatever the replies to its calls are, the work comes to an end: done as `Q` says, or failed as `E`
says, both with all replies that have come by then. -/
def Leads (Q : List ServiceReply → Turn → α → Prop) (E : List ServiceReply → Turn → Fault → Prop) :
    List ServiceReply → Work α → Prop
  | rs, .done t a => Q rs t a
  | rs, .failed t f => E rs t f
  | rs, .waiting _ _ k => ∀ r, Leads Q E (rs ++ [r]) (k r)

theorem Leads.bind {Q' : List ServiceReply → Turn → β → Prop} {rs : List ServiceReply} {w : Work α}
    {f : Turn → α → Work β} (hw : Leads Q E rs w)
    (hf : ∀ rs t a, Q rs t a → Leads Q' E rs (f t a)) : Leads Q' E rs (w.bind f) := by
  induction w generalizing rs with
  | done t a => exact hf rs t a hw
  | failed t e => exact hw
  | waiting t c k ih => exact fun r => ih r (hw r)

theorem Leads.mono {Q' : List ServiceReply → Turn → α → Prop} {rs : List ServiceReply} {w : Work α}
    (hw : Leads Q E rs w) (hQ : ∀ rs t a, Q rs t a → Q' rs t a) : Leads Q' E rs w := by
  induction w generalizing rs with
  | done t a => exact hQ rs t a hw
  | failed t e => exact hw
  | waiting t c k ih => exact fun r => ih r (hw r)

end Work

namespace Action

mutual

def within : Action → List Action
  | .call conditions target onSuccess onError =>
    .call conditions target onSuccess onError :: (withinAll onSuccess ++ withinAll onError)
  | .navigate conditions deeplink => [.navigate conditions deeplink]
  | .update conditions scope updates => [.update conditions scope updates]
  | .close conditions flowCompleted parameters => [.close conditions flowCompleted parameters]
  | .tool conditions name parameters => [.tool conditions name parameters]
  | .unknown conditions tag source => [.unknown conditions tag source]

def withinAll : List Action → List Action
  | [] => []
  | a :: as => within a ++ withinAll as

end

theorem mem_within (a : Action) : a ∈ a.within := by
  cases a <;> simp [within]

end Action

def Screen.actions (s : Screen) : List Action := s.allEvents.flatMap fun e => Action.withinAll e.actions

theorem Run.target_error {r : Run} {deeplink : String} {f : Fault} :
    r.target? deeplink = .error f ↔ screenIdOf deeplink = .error f := by
  unfold target?
  cases hs : screenIdOf deeplink with
  | error f' => exact ⟨fun h => congrArg _ (Except.error.inj h), fun h => congrArg _ (Except.error.inj h)⟩
  | ok id? =>
      refine ⟨fun h => ?_, nofun⟩
      cases id? with
      | none => cases h
      | some id =>
          change (if id = nextScreen then Except.ok _
            else if id = prevScreen then Except.ok _ else Except.ok _) = _ at h
          split at h
          · cases h
          · split at h
            · cases h
            · cases h

/-- After these replies of services the run comes to something of its screens that it cannot deal with,
which makes a request fail. -/
inductive Run.Trips (r : Run) (rs : List ServiceReply) : Fault → Prop
  /-- A rule compares a text with an integer that is too large for it. -/
  | event (e : Event) (transient : Fields) (he : e ∈ r.screens.flatMap Screen.allEvents)
      (h : Condition.allHold e.conditions (r.context transient) = .error .tooLarge) : Trips r rs .tooLarge
  | action (a : Action) (transient : Fields) (ha : a ∈ r.screens.flatMap Screen.actions)
      (h : Condition.allHold a.conditions (r.context transient) = .error .tooLarge) : Trips r rs .tooLarge
  | deeplink (conditions : List Condition) (deeplink : String)
      (ha : .navigate conditions deeplink ∈ r.screens.flatMap Screen.actions)
      (h : screenIdOf deeplink = .error .badAddress) : Trips r rs .badAddress
  | update (conditions : List Condition) (scope : Scope) (updates : Fields)
      (ha : .update conditions scope updates ∈ r.screens.flatMap Screen.actions)
      (h : (StateWrite.ofFields scope updates).copies = false) : Trips r rs .tooDeep
  /-- A template asks a list for a position in digits that are no numeral, or too many, or it is to be
  filled with a value that cannot be written as a text. -/
  | parameters (conditions : List Condition) (target : ServiceTarget) (onSuccess onError : List Action)
      (ha : .call conditions target onSuccess onError ∈ r.screens.flatMap Screen.actions) {f : Fault}
      (h : r.scopes.renderFields target.parameters = .error f) : Trips r rs f
  | operation (conditions : List Condition) (target : ServiceTarget) (onSuccess onError : List Action)
      (ha : .call conditions target onSuccess onError ∈ r.screens.flatMap Screen.actions) {f : Fault}
      (h : target.legible = .error f) : Trips r rs f
  /-- A payload is to be stored under a list or an object. -/
  | key (conditions : List Condition) (target : ServiceTarget) (onSuccess onError : List Action)
      (ha : .call conditions target onSuccess onError ∈ r.screens.flatMap Screen.actions)
      (m : ResponseMapping) (hm : target.mapping = some m) (h : Key.ofValue m.key = .error .wrongKind) :
      Trips r rs .wrongKind
  | payload (conditions : List Condition) (target : ServiceTarget) (onSuccess onError : List Action)
      (ha : .call conditions target onSuccess onError ∈ r.screens.flatMap Screen.actions)
      (m : ResponseMapping) (hm : target.mapping = some m) (payload : Value)
      (hr : .success payload ∈ rs) (h : payload.copies = false) : Trips r rs .tooDeep
  | tool (conditions : List Condition) (name : String) (parameters : Fields)
      (ha : .tool conditions name parameters ∈ r.screens.flatMap Screen.actions) {f : Fault}
      (h : r.scopes.renderFields parameters = .error f) : Trips r rs f
  | question (conditions : List Condition) (parameters params : Fields)
      (ha : .tool conditions storeAnswerTool parameters ∈ r.screens.flatMap Screen.actions)
      (hp : r.scopes.renderFields parameters = .ok params) {f : Fault}
      (h : (Fields.get params "questionId").legible Value.stackRoom = .error f) : Trips r rs f
  | answer (conditions : List Condition) (parameters params : Fields)
      (ha : .tool conditions storeAnswerTool parameters ∈ r.screens.flatMap Screen.actions)
      (hp : r.scopes.renderFields parameters = .ok params)
      (h : (Fields.get params "answer").copies = false) : Trips r rs .tooDeep
  | close (conditions : List Condition) (flowCompleted : Bool) (parameters : Fields)
      (ha : .close conditions flowCompleted parameters ∈ r.screens.flatMap Screen.actions) {f : Fault}
      (h : reasonLegible parameters = .error f) : Trips r rs f

/-- A demand comes with something that cannot be dealt with. -/
inductive Demand.Trips : Demand → Fault → Prop
  /-- A delayed event comes too late, and its id cannot be written into the warning. -/
  | event (c : EventCall) (hc : c.armed.isSome) {f : Fault}
      (h : c.id.legible Value.stackRoom = .error f) : Trips (.event c) f
  | handoff (id : Value) {f : Fault} (h : id.legible Value.stackRoom = .error f) : Trips (.handoff id) f
  | write (label : Value) (ws : List StateWrite) (w : StateWrite) (hw : w ∈ ws)
      (h : w.copies = false) : Trips (.write label ws) .tooDeep

namespace Act

variable {α β : Type} {ss : List Screen} {d : Demand}

/-- Why an act that is done for a demand may fail in a run with the screens `ss`. -/
def Excused (ss : List Screen) (d : Demand) (rs : List ServiceReply) (t : Turn) (f : Fault) : Prop :=
  t.run.screens = ss ∧ (t.run.Trips rs f ∨ d.Trips f)

/-- An act done for a demand in a run with the screens `ss`, which it leaves as they are, that fails only
where the run trips over them, or the demand over its own data. -/
def Careful (ss : List Screen) (d : Demand) (x : Act α) : Prop :=
  ∀ rs t, t.run.screens = ss →
    Work.Leads (fun _ t' _ => t'.run.screens = ss) (Excused ss d) rs (x t)

namespace Careful

theorem bind {x : Act α} {f : α → Act β} (hx : x.Careful ss d) (hf : ∀ a, (f a).Careful ss d) :
    (x >>= f).Careful ss d :=
  fun rs t ht => (hx rs t ht).bind fun rs t' a ht' => hf a rs t' ht'

theorem pure (a : α) : (pure a : Act α).Careful ss d := fun _ _ ht => ht

theorem ite {c : Prop} [Decidable c] {x y : Act α} (hx : x.Careful ss d) (hy : y.Careful ss d) :
    (if c then x else y).Careful ss d := by
  split
  · exact hx
  · exact hy

theorem modify {f : Turn → Turn} (h : ∀ t, (f t).run.screens = t.run.screens) :
    (modify f).Careful ss d :=
  fun _ t ht => (h t).trans ht

theorem run {f : Run → Act α} (h : ∀ rs t, t.run.screens = ss →
    Work.Leads (fun _ t' _ => t'.run.screens = ss) (Excused ss d) rs (f t.run t)) :
    (Act.run >>= f).Careful ss d :=
  h

theorem ofExcept {x : Except Fault α} {rs : List ServiceReply} {t : Turn} (ht : t.run.screens = ss)
    (h : ∀ f, x = .error f → t.run.Trips rs f ∨ d.Trips f) :
    Work.Leads (fun _ t' _ => t'.run.screens = ss) (Excused ss d) rs (ofExcept x t) := by
  cases x with
  | ok a => exact ht
  | error f => exact ⟨ht, h f rfl⟩

end Careful

theorem warn_careful (message : String) : (warn message).Careful ss d := .modify fun _ => rfl

theorem commit_careful (w : StateWrite) : (commit w).Careful ss d :=
  .ite (.pure _) (.modify fun _ => rfl)

theorem write_careful (w : StateWrite)
    (h : w.copies = false → ∀ rs (t : Turn), t.run.screens = ss →
      t.run.Trips rs .tooDeep ∨ d.Trips .tooDeep) : (write w).Careful ss d := by
  refine (commit_careful w.copied).bind fun _ => ?_
  split
  · exact .pure _
  · rename_i hw
    exact fun rs t ht => ⟨ht, h (by simpa using hw) rs t ht⟩

theorem write_one (scope : Scope) (key : Key) {value : Value} {rs : List ServiceReply} {t : Turn}
    (ht : t.run.screens = ss) (h : value.copies = false → t.run.Trips rs .tooDeep) :
    Work.Leads (fun _ t' _ => t'.run.screens = ss) (Excused ss d) rs
      (write ⟨scope, [(key, value)]⟩ t) := by
  cases hcopies : value.copies with
  | true =>
      rw [write_copies (w := ⟨scope, [(key, value)]⟩) ((Bool.and_true _).trans hcopies)]
      exact ht
  | false =>
      rw [write_one_lost scope key hcopies]
      exact ⟨ht, .inl (h hcopies)⟩

theorem askService_replies (canCall : Bool) (serviceName : String) (c : ServiceCall)
    (rs : List ServiceReply) {t : Turn} (ht : t.run.screens = ss) :
    Work.Leads (fun rs' t' reply => t'.run.screens = ss ∧
      ∀ payload, reply = .success payload → .success payload ∈ rs') (Excused ss d) rs
      (askService canCall serviceName c t) := by
  unfold askService
  split
  · exact ⟨ht, nofun⟩
  · split
    · exact ⟨ht, nofun⟩
    · exact fun r => ⟨ht, fun payload he => he ▸ List.mem_append_right _ List.mem_cons_self⟩

section

variable {conditions : List Condition} {target : ServiceTarget} {onSuccess onError : List Action}

theorem callService_replies (canCall : Bool)
    (ha : .call conditions target onSuccess onError ∈ ss.flatMap Screen.actions)
    (rs : List ServiceReply) {t : Turn} (ht : t.run.screens = ss) :
    Work.Leads (fun rs' t' reply => t'.run.screens = ss ∧
      ∀ payload, reply = .success payload → .success payload ∈ rs') (Excused ss d) rs
      (callService canCall target t) := by
  have hrender : (render target.parameters).Careful ss d := .run fun rs t ht =>
    Careful.ofExcept ht fun f hf => .inl (.parameters conditions target onSuccess onError (ht ▸ ha) hf)
  refine (hrender rs t ht).bind fun rs t params ht => ?_
  refine Work.Leads.bind (Careful.ofExcept (x := target.legible) ht fun f hf =>
    .inl (.operation conditions target onSuccess onError (ht ▸ ha) hf)) fun rs t _ ht => ?_
  exact (askService_replies canCall _ _ rs ht).bind fun rs t reply h => h

theorem storePayload_leads
    (ha : .call conditions target onSuccess onError ∈ ss.flatMap Screen.actions) {payload : Value}
    {rs : List ServiceReply} (hr : .success payload ∈ rs) {t : Turn} (ht : t.run.screens = ss) :
    Work.Leads (fun _ t' _ => t'.run.screens = ss) (Excused ss d) rs
      (storePayload target.mapping payload t) := by
  cases hm : target.mapping with
  | none => exact ht
  | some m =>
      change Work.Leads _ _ rs ((ofExcept (Key.ofValue m.key) t).bind _)
      cases hkey : Key.ofValue m.key with
      | error f =>
          obtain rfl := Key.ofValue_fails m.key f hkey
          exact ⟨ht, .inl (.key conditions target onSuccess onError (ht ▸ ha) m hm hkey)⟩
      | ok key =>
          exact write_one m.scope key ht fun hdeep =>
            .payload conditions target onSuccess onError (ht ▸ ha) m hm payload hr hdeep

end

theorem callTool_careful {conditions : List Condition} {name : String} {parameters : Fields}
    (ha : .tool conditions name parameters ∈ ss.flatMap Screen.actions) :
    (callTool name parameters).Careful ss d := by
  intro rs t ht
  change Work.Leads _ _ rs ((ofExcept (t.run.scopes.renderFields parameters) t).bind _)
  cases hp : t.run.scopes.renderFields parameters with
  | error f => exact ⟨ht, .inl (.tool conditions name parameters (ht ▸ ha) hp)⟩
  | ok params =>
      change Work.Leads _ _ rs ((if name = storeAnswerTool then if _ then _ else _
        else _ : Act Unit) { t with toolCalls := t.toolCalls ++ [⟨name, params⟩] })
      split
      · rename_i hname
        subst hname
        split
        · change Work.Leads _ _ rs ((ofExcept ((Fields.get params "questionId").legible _) _).bind _)
          cases hq : (Fields.get params "questionId").legible Value.stackRoom with
          | error f => exact ⟨ht, .inl (.question conditions parameters params (ht ▸ ha) hp hq)⟩
          | ok =>
              exact write_one .module _ ht fun hdeep =>
                .answer conditions parameters params (ht ▸ ha) hp hdeep
        · exact ht
      · split
        · exact write_careful (.ofFields .module [("quizCompleted", .bool true)]) nofun rs _ ht
        · exact ht

theorem findTarget_careful {conditions : List Condition} {deeplink : String}
    (ha : .navigate conditions deeplink ∈ ss.flatMap Screen.actions) :
    (findTarget deeplink).Careful ss d := by
  refine .run fun rs t ht => ?_
  refine Work.Leads.bind (Careful.ofExcept ht fun f hf => .inl ?_) fun rs t s? ht => ?_
  · have hlink := Run.target_error.mp hf
    obtain rfl := screenIdOf_fails deeplink f hlink
    exact .deeplink conditions deeplink (ht ▸ ha) hlink
  · cases s? with
    | some s => exact ht
    | none => exact ((warn_careful _).bind fun _ => .pure none) rs t ht

theorem allHold_careful (conditions : List Condition) (transient : Fields)
    (h : ∀ (r : Run) rs, r.screens = ss →
      Condition.allHold conditions (r.context transient) = .error .tooLarge → r.Trips rs .tooLarge) :
    (allHold conditions transient).Careful ss d := by
  refine .run fun rs t ht => Careful.ofExcept ht fun f hf => .inl ?_
  obtain rfl := Condition.allHold_fails conditions _ f hf
  exact h t.run rs ht hf

end Act

namespace Action

open Act

variable (canCall : Bool) (transient : Fields) {ss : List Screen} {d : Demand}

mutual

theorem perform_careful : ∀ (a : Action) (b : Batch), a.within ⊆ ss.flatMap Screen.actions →
    (perform canCall transient a b).Careful ss d
  | .navigate conditions deeplink, b, ha => by
      rw [perform]
      refine (findTarget_careful (ha (mem_within _))).bind fun s? => ?_
      cases s? with
      | none => exact .pure _
      | some s => exact .pure _
  | .update conditions scope updates, b, ha => by
      rw [perform]
      refine (write_careful _ fun hdeep rs t ht => .inl ?_).bind fun _ => .pure _
      exact .update conditions scope updates (ht ▸ ha (mem_within _)) hdeep
  | .call conditions target onSuccess onError, b, ha => by
      have hmem := ha (mem_within _)
      rw [within, List.cons_subset, List.append_subset] at ha
      rw [perform]
      intro rs t ht
      refine (callService_replies canCall hmem rs ht).bind fun rs t reply h => ?_
      obtain ⟨ht, hreply⟩ := h
      cases reply with
      | success payload =>
          refine (storePayload_leads hmem (hreply payload rfl) ht).bind fun rs t _ ht => ?_
          exact ((performAll_careful onSuccess b ha.2.1).bind fun _ => .pure _) rs t ht
      | failure error payload =>
          exact ((performAll_careful onError b ha.2.2).bind fun _ => .pure _) rs t ht
  | .close conditions flowCompleted parameters, b, ha => by
      rw [perform]
      refine Careful.bind (fun rs t ht => Careful.ofExcept ht fun f hf => .inl ?_) fun _ => .pure _
      exact .close conditions flowCompleted parameters (ht ▸ ha (mem_within _)) hf
  | .tool conditions name parameters, b, ha => by
      rw [perform]
      exact (callTool_careful (ha (mem_within _))).bind fun _ => .pure _
  | .unknown conditions tag source, b, ha => by
      rw [perform]
      exact (warn_careful _).bind fun _ => .pure _

theorem performAll_careful : ∀ (as : List Action) (b : Batch),
    withinAll as ⊆ ss.flatMap Screen.actions → (performAll canCall transient as b).Careful ss d
  | [], b, has => by
      rw [performAll]
      exact .pure _
  | a :: as, b, has => by
      rw [withinAll, List.append_subset] at has
      rw [performAll]
      have hholds : (Act.allHold a.conditions transient).Careful ss d :=
        allHold_careful a.conditions transient fun r rs hr h =>
          .action a transient (hr ▸ has.1 (mem_within a)) h
      refine hholds.bind fun holds => .ite ?_ (performAll_careful as _ has.2)
      refine (perform_careful a _ has.1).bind fun p => ?_
      exact .ite (performAll_careful as _ has.2) (.pure _)

end

end Action

namespace Act

variable (rules : Rules) {ss : List Screen} {d : Demand}

end Act

namespace Demand

open Act

end Demand

namespace Action

end Action

-- A hall with a way out that leads nowhere, under an address that cannot be read.
namespace Brink

def leave : Value := .obj [
  ("id", .str "leave"),
  ("action", .list [
    .obj [("type", .str "navigation"), ("deeplink", .str "http://[")],
    .obj [("type", .str "stateUpdate"), ("scope", .str "module"),
      ("updates", .obj [("left", .bool true)])]])]

def document : Value := .obj [("id", .str "tour"), ("name", .str "Tour"),
  ("agents", .list [.obj [("id", .str "guide"), ("name", .str "Guide"),
    ("screens", .list [.obj [("id", .str "hall"), ("events", .list [leave])]])]])]

def way (deeplink : String) : List Action :=
  [.navigate [] deeplink, .update [] .module [("left", .bool true)]]

def hall : Screen := { Tour.hall with events := [Tour.event "leave" (way "http://[")] }

def journey : Journey := { Tour.journey with
  description := .str ""
  systemPrompt := .str ""
  voiceEnabled := true
  agents := [{ Tour.guide with prompt := .str "", screens := [hall] }] }

def run : Run := { Tour.run with journey }

theorem newRun_run : ({ setup := {} } : Host).newRun journey [] [] "tour" = .ok run := by
  have hname : journey.nameIssues = [] := by decide +kernel
  exact Host.newRun_valid _ (Journey.issues_clear rfl hname rfl (by decide)) [] [] "tour"

end Brink

end GuidedJourney
