import GuidedJourney.Proofs.ActionChange
import GuidedJourney.Proofs.Course
import GuidedJourney.Proofs.PatchReferences

namespace GuidedJourney

open Relation

/-- The values other than null that do not count as given. -/
inductive Value.Hollow : Value → Prop
  | false : Hollow (.bool false)
  | zero : Hollow (.int 0)
  | number {x : Binary64} (h : x.isZero = true) : Hollow (.num x)
  | text : Hollow (.str "")
  | list : Hollow (.list [])
  | object : Hollow (.obj [])

theorem Value.hollow_iff {v : Value} : v.Hollow ↔ v ≠ .null ∧ v.truthy = false := by
  constructor
  · intro h
    cases h with
    | number h => exact ⟨nofun, by rw [truthy, h]; rfl⟩
    | _ => exact ⟨nofun, rfl⟩
  · rintro ⟨hnull, h⟩
    cases v with
    | null => exact absurd rfl hnull
    | bool b => cases b with
      | false => exact .false
      | true => cases h
    | int n =>
        obtain rfl : n = 0 := by simpa [truthy] using h
        exact .zero
    | num x => exact .number (by simpa [truthy] using h)
    | str s =>
        obtain rfl : s = "" := by simpa [truthy] using h
        exact .text
    | list xs => cases xs with
      | nil => exact .list
      | cons x xs => cases h
    | obj fs => cases fs with
      | nil => exact .object
      | cons f fs => cases h
    | date d => cases h
    | moment m => cases h

theorem Value.Hollow.copies {v : Value} (h : v.Hollow) : v.copies = true := by
  cases h <;> rfl

namespace Turn

/-- A tool call has been handed out, and an answer has gone into the module's state under a key. -/
structure Stored (t : Turn) (c : ToolCall) (key : String) (answer : Value) (t' : Turn) : Prop where
  found : ∀ k, Fields.find? t'.run.store.module k =
    if k = key then some answer else Fields.find? t.run.store.module k
  written : t'.writes = t.writes ++ [.ofFields .module [(key, answer)]]
  handedOut : t'.toolCalls = t.toolCalls ++ [c]

/-- Nothing that a turn tells of writes and tool calls is taken back. -/
def Extends (t t' : Turn) : Prop := t.writes <+: t'.writes ∧ t.toolCalls <+: t'.toolCalls

theorem Extends.refl (t : Turn) : t.Extends t := ⟨List.prefix_refl _, List.prefix_refl _⟩

theorem Extends.jot {t₀ t t' : Turn} (h : t₀.Extends t) (hj : t.Jot t') : t₀.Extends t' := by
  obtain ⟨hwrites, hcalls⟩ := h
  cases hj with
  | warn => exact ⟨hwrites, hcalls⟩
  | write => exact ⟨hwrites.trans (List.prefix_append _ _), hcalls⟩
  | handOut => exact ⟨hwrites, hcalls.trans (List.prefix_append _ _)⟩
  | note => exact ⟨hwrites, hcalls⟩

end Turn

namespace Action

open Act

variable (canCall : Bool) (transient : Fields)

theorem performAll_extends (as : List Action) (executed skipped : Nat) {t : Turn} {w : Work Batch}
    (h : (performAll canCall transient as { executed, skipped } t).Reaches w) : t.Extends w.turn := by
  have hgoes := performAll_goes canCall transient as { executed, skipped } t (List.Subset.refl _)
    ⟨nofun, nofun⟩
  exact hgoes.turn (I := t.Extends) (fun _ _ h hj => h.jot hj) (fun _ h => h) (.refl t) h

theorem performAll_tool {conditions : List Condition} (name : String) (parameters : Fields) {t : Turn}
    (as : List Action) (b : Batch)
    (hholds : Condition.allHold conditions (t.run.context transient) = .ok true) :
    performAll canCall transient (.tool conditions name parameters :: as) b t =
      (callTool name parameters t).bind fun t' _ =>
        performAll canCall transient as { b with executed := b.executed + 1 } t' := by
  rw [performAll_holds canCall transient (a := .tool conditions name parameters) hholds, perform]
  change ((callTool name parameters t).bind _).bind _ = _
  rw [Work.bind_assoc]
  rfl

theorem callTool_storeAnswer {parameters params : Fields} {t : Turn} {question : String}
    (hparams : t.run.scopes.renderFields parameters = .ok params)
    (hquestion : Fields.get params "questionId" = .str question) (hnamed : question ≠ "") :
    callTool storeAnswerTool parameters t =
      (if (Fields.get params "answer").truthy then
        write (.ofFields .module [("answer_" ++ question, Fields.get params "answer")]) else pure () : Act Unit)
      { t with toolCalls := t.toolCalls ++ [⟨storeAnswerTool, params⟩] } := by
  have hrender : render parameters t = .done t params := by
    change ofExcept (t.run.scopes.renderFields parameters) t = _
    rw [hparams]
    rfl
  have hgiven : (Value.str question).truthy = true := by simpa [Value.truthy] using hnamed
  rw [callTool]
  change (render parameters t).bind _ = _
  rw [hrender]
  change (if (Fields.get params "questionId").truthy && _ then _ else _ : Act Unit) _ = _
  rw [hquestion, hgiven, Bool.true_and]
  rfl

/-- A tool call that stores an answer other than null for a question, at any place in a list of actions,
lets the actions after it follow if the answer can be copied. It is handed out once. An answer that counts
as given is put under the key of its question as it is, and the write is told; one that is false, zero or
empty is not written anywhere. Nothing else of the turn is changed, and what is told then is told to the
end. With an answer that is nested too deeply the turn fails once the call is handed out. -/
theorem storeAnswer_stored {conditions : List Condition} {parameters params : Fields} {t : Turn}
    {question : String} {answer : Value} (as : List Action) (executed skipped : Nat)
    (hholds : Condition.allHold conditions (t.run.context transient) = .ok true)
    (hparams : t.run.scopes.renderFields parameters = .ok params)
    (hquestion : Fields.get params "questionId" = .str question) (hnamed : question ≠ "")
    (hanswer : Fields.get params "answer" = answer) (hgiven : answer ≠ .null) :
    (answer.copies = true →
      ∃ t', performAll canCall transient (.tool conditions storeAnswerTool parameters :: as)
          { executed, skipped } t =
            performAll canCall transient as { executed := executed + 1, skipped } t' ∧
        (¬ answer.Hollow → t.Stored ⟨storeAnswerTool, params⟩ ("answer_" ++ question) answer t') ∧
        (answer.Hollow → t' = { t with toolCalls := t.toolCalls ++ [⟨storeAnswerTool, params⟩] }) ∧
        t' = { t with
          run.store.module := t'.run.store.module, writes := t'.writes, toolCalls := t'.toolCalls } ∧
        ∀ w, (performAll canCall transient as { executed := executed + 1, skipped } t').Reaches w →
          t'.Extends w.turn) ∧
    (answer.copies = false →
      performAll canCall transient (.tool conditions storeAnswerTool parameters :: as)
          { executed, skipped } t =
        .failed { t with toolCalls := t.toolCalls ++ [⟨storeAnswerTool, params⟩] } .tooDeep) := by
  have hcall := callTool_storeAnswer hparams hquestion hnamed
  have hperform := performAll_tool canCall transient storeAnswerTool parameters as
    { executed, skipped } hholds
  rw [hcall, hanswer] at hperform
  have hcopies : (StateWrite.ofFields .module [("answer_" ++ question, answer)]).copies =
      answer.copies := Bool.and_true _
  constructor
  · intro hcopied
    cases htruthy : answer.truthy with
    | true =>
        rw [htruthy, if_pos rfl, write_copies (hcopies.trans hcopied)] at hperform
        have hsolid : ¬ answer.Hollow := by
          intro h
          rw [(Value.hollow_iff.mp h).2] at htruthy
          cases htruthy
        refine ⟨_, hperform, fun _ => ⟨fun k => ?_, rfl, rfl⟩, fun h => absurd h hsolid, rfl,
          fun _ => performAll_extends canCall transient as _ skipped⟩
        exact Fields.find?_put ("answer_" ++ question) k answer t.run.store.module
    | false =>
        rw [htruthy, if_neg Bool.false_ne_true] at hperform
        have hhollow : answer.Hollow := Value.hollow_iff.mpr ⟨hgiven, htruthy⟩
        exact ⟨_, hperform, fun h => absurd hhollow h, fun _ => rfl, rfl,
          fun _ => performAll_extends canCall transient as _ skipped⟩
  · intro hdeep
    cases htruthy : answer.truthy with
    | true =>
        have hlost := write_one_lost .module (.text ("answer_" ++ question)) hdeep
          { t with toolCalls := t.toolCalls ++ [⟨storeAnswerTool, params⟩] }
        rw [htruthy, if_pos rfl] at hperform
        exact hperform.trans (congrArg (Work.bind · _) hlost)
    | false =>
        have hcopied := (Value.hollow_iff.mpr ⟨hgiven, htruthy⟩).copies
        rw [hdeep] at hcopied
        cases hcopied

/-- An answer that is taken from the state, and one that is false. -/
theorem storeAnswer_stored_tour :
    let t : Turn := { run := { Tour.run with store.module := [("pace", .list [.bool false])] } }
    let parameters : Fields := [("questionId", .str "q1"),
      ("answer", .str (Template.reference .module "pace".toList))]
    let params : Fields := [("questionId", .str "q1"), ("answer", .list [.bool false])]
    let denial : Fields := [("questionId", .str "q1"), ("answer", .bool false)]
    (∃ t', performAll false [] [.tool [] storeAnswerTool parameters] {} t =
        .done t' ⟨.exhausted, 1, 0⟩ ∧
      t.Stored ⟨storeAnswerTool, params⟩ "answer_q1" (.list [.bool false]) t') ∧
    ∃ t', performAll false [] [.tool [] storeAnswerTool denial] {} t =
        .done t' ⟨.exhausted, 1, 0⟩ ∧
      t' = { t with toolCalls := [⟨storeAnswerTool, denial⟩] } := by
  intro t parameters params denial
  have hquestion : t.run.scopes.render (.str "q1") = .ok (.str "q1") :=
    Scopes.render_plain _ _ (Value.plain_of_notMem (by decide) (by decide))
  have hfound : t.run.scopes.find? (.scoped .module (Text.trim "pace".toList)) =
      .ok (some (.list [.bool false])) := by
    rw [show Text.trim "pace".toList = "pace".toList by decide +kernel]
    rfl
  have hparams : t.run.scopes.renderFields parameters = .ok params :=
    Scopes.renderFields_ok_iff.mpr
      (.cons ⟨rfl, hquestion⟩ (.cons ⟨rfl, Scopes.render_found hfound⟩ .nil))
  have hdenial : t.run.scopes.renderFields denial = .ok denial :=
    Scopes.renderFields_ok_iff.mpr (.cons ⟨rfl, hquestion⟩ (.cons ⟨rfl, rfl⟩ .nil))
  have hholds : Condition.allHold [] (t.run.context []) = .ok true := rfl
  obtain ⟨t₁, hdone₁, hstored, -⟩ :=
    (storeAnswer_stored false [] [] 0 0 hholds hparams rfl (by decide) rfl nofun).1 rfl
  obtain ⟨t₂, hdone₂, -, hdropped, -⟩ :=
    (storeAnswer_stored false [] [] 0 0 hholds hdenial rfl (by decide) rfl nofun).1 rfl
  exact ⟨⟨t₁, hdone₁, hstored nofun⟩, t₂, hdone₂, hdropped .false⟩

/-- The answer zero is lost. -/
theorem storeAnswer_lost : ¬ ∀ (conditions : List Condition) (parameters params : Fields) (t : Turn)
    (question : String) (answer : Value),
    Condition.allHold conditions (t.run.context []) = .ok true →
    t.run.scopes.renderFields parameters = .ok params →
    Fields.get params "questionId" = .str question → question ≠ "" →
    Fields.get params "answer" = answer → answer ≠ .null →
    ∃ t', performAll false [] [.tool conditions storeAnswerTool parameters] {} t =
        .done t' ⟨.exhausted, 1, 0⟩ ∧
      t.Stored ⟨storeAnswerTool, params⟩ ("answer_" ++ question) answer t' := by
  intro h
  let params : Fields := [("questionId", .str "q1"), ("answer", .int 0)]
  have hquestion : Tour.run.scopes.render (.str "q1") = .ok (.str "q1") :=
    Scopes.render_plain _ _ (Value.plain_of_notMem (by decide) (by decide))
  have hparams : Tour.run.scopes.renderFields params = .ok params :=
    Scopes.renderFields_ok_iff.mpr (.cons ⟨rfl, hquestion⟩ (.cons ⟨rfl, rfl⟩ .nil))
  obtain ⟨t', hdone, hstored⟩ := h [] params params { run := Tour.run } "q1" (.int 0) rfl hparams rfl
    (by decide) rfl nofun
  rw [performAll_tool false [] _ _ [] {} rfl, callTool_storeAnswer hparams rfl (by decide)] at hdone
  cases hdone
  cases hstored.written

end Action

end GuidedJourney
