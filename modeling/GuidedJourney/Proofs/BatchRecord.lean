import GuidedJourney.Proofs.ActionTrail
import Mathlib.Data.List.Forall2

namespace GuidedJourney

open Act

namespace Footstep

def isServiceCall (s : Footstep) : Bool :=
  match s.action with
  | .call .. => s.isExecuted
  | _ => false

def Makes (s : Footstep) (r : CallRecord) : Prop :=
  ∃ conditions target onSuccess onError params, s.action = .call conditions target onSuccess onError ∧
    s.before.scopes.renderFields target.parameters = .ok params ∧ r.call = ⟨target.operation, params⟩

def lastExecuted? (trail : List Footstep) : Option Footstep := (trail.filter isExecuted).getLast?

end Footstep

theorem Footstep.lastExecuted_cons {P : Footstep → Prop} {step : Footstep} (h : ¬ P step)
    (trail : List Footstep) :
    (∃ last, lastExecuted? (step :: trail) = some last ∧ P last) ↔
      ∃ last, lastExecuted? trail = some last ∧ P last := by
  unfold lastExecuted?
  cases hs : step.isExecuted with
  | false => rw [List.filter_cons_of_neg (by simp [hs])]
  | true =>
      rw [List.filter_cons_of_pos hs, List.getLast?_cons]
      cases (trail.filter isExecuted).getLast? with
      | none => simp [h]
      | some last => simp

theorem Batch.count_executed (trail : List Footstep) (b : Batch) :
    (trail.foldl count b).executed = b.executed + trail.countP Footstep.isExecuted := by
  induction trail generalizing b with
  | nil => rfl
  | cons s trail ih =>
      rw [List.foldl_cons, ih, List.countP_cons]
      cases hs : s.fate <;> simp [count, Footstep.isExecuted, hs] <;> omega

theorem Batch.count_skipped (trail : List Footstep) (b : Batch) :
    (trail.foldl count b).skipped = b.skipped + trail.countP (!·.isExecuted) := by
  induction trail generalizing b with
  | nil => rfl
  | cons s trail ih =>
      rw [List.foldl_cons, ih, List.countP_cons]
      cases hs : s.fate <;> simp [count, Footstep.isExecuted, hs]; omega

namespace Action

variable {canCall : Bool} {transient : Fields} {replies : Nat → ServiceReply} {a : Action}

theorem Passes.serviceCalls {t t' : Turn} (h : a.Passes t t') : t'.serviceCalls = t.serviceCalls := by
  cases h with
  | astray => rfl
  | update _ h => exact (write_quiet _).serviceCalls h
  | tool _ h => exact (callTool_quiet _ _).serviceCalls h
  | unknown => rfl

theorem Passes.not_ends {t t' : Turn} (h : a.Passes t t') (e : Ending) : ¬ a.Ends t.run e := by
  intro he
  cases h with
  | astray _ h =>
      cases he with
      | navigate _ h' => rw [h] at h'; cases h'
  | update => cases he
  | tool => cases he
  | unknown => cases he

theorem Ends.unique {r : Run} {e e' : Ending} (h : a.Ends r e) (h' : a.Ends r e') : e = e' := by
  cases h with
  | navigate _ h =>
      cases h' with
      | navigate _ h' => rw [h] at h'; cases h'; rfl
  | close => cases h'; rfl

theorem ends_navigate {r : Run} {id : String} : a.Ends r (.navigate id) ↔
    ∃ conditions deeplink target, a = .navigate conditions deeplink ∧
      r.target? deeplink = .ok (some target) ∧ target.id = id := by
  constructor
  · intro h
    cases h with
    | navigate _ h => exact ⟨_, _, _, rfl, h, rfl⟩
  · rintro ⟨conditions, deeplink, target, rfl, h, rfl⟩
    exact .navigate _ h

theorem ends_close {r : Run} {reason : Value} {flowCompleted : Bool} :
    a.Ends r (.close reason flowCompleted) ↔
    ∃ conditions parameters, a = .close conditions flowCompleted parameters ∧
      closeReason parameters = reason := by
  constructor
  · intro h
    cases h with
    | close => exact ⟨_, _, rfl, rfl⟩
  · rintro ⟨conditions, parameters, rfl, rfl⟩
    exact .close _ _ _ _

theorem replyTo_serviceCalls {target : ServiceTarget} {t t' : Turn} {n m : Nat} {reply : ServiceReply}
    (h : replyTo canCall replies target (t, n) = (reply, t', m)) :
    t'.serviceCalls = t.serviceCalls := by
  unfold replyTo at h
  dsimp only at h
  split at h
  · cases h; rfl
  · split at h
    · cases h; rfl
    · cases h; rfl

theorem Calls.serviceCalls {t : Turn} {n : Nat} {record : CallRecord} {branch : List Action} {s : Stage}
    (h : a.Calls canCall replies (t, n) record branch s) :
    s.1.serviceCalls = t.serviceCalls ++ [record] := by
  cases h with
  | success _ hparams hreply hstore =>
      rw [(storePayload_quiet _ _).serviceCalls hstore, replyTo_serviceCalls hreply]
  | failure _ hparams hreply => rw [replyTo_serviceCalls hreply]

theorem Calls.makes {t : Turn} {n : Nat} {record : CallRecord} {branch : List Action} {s : Stage}
    (h : a.Calls canCall replies (t, n) record branch s) :
    Footstep.isServiceCall ⟨a, t.run, .answered record⟩ = true ∧
      Footstep.Makes ⟨a, t.run, .answered record⟩ record := by
  cases h with
  | success _ hparams => exact ⟨rfl, _, _, _, _, _, rfl, hparams, rfl⟩
  | failure _ hparams => exact ⟨rfl, _, _, _, _, _, rfl, hparams, rfl⟩

theorem Calls.branch_lt {s s' : Stage} {record : CallRecord} {branch : List Action}
    (h : a.Calls canCall replies s record branch s') : (withinAll branch).length < a.within.length := by
  cases h <;> rw [within, List.length_cons, List.length_append] <;> omega

theorem Calls.not_ends {s s' : Stage} {record : CallRecord} {branch : List Action}
    (h : a.Calls canCall replies s record branch s') (r : Run) (e : Ending) : ¬ a.Ends r e := by
  intro he
  cases h <;> cases he

theorem not_serviceCall {t : Turn} {fate : Fate} (h : (∃ t', a.Passes t t') ∨ ∃ e, a.Ends t.run e) :
    ¬ Footstep.isServiceCall ⟨a, t.run, fate⟩ = true := by
  rcases h with ⟨t', h⟩ | ⟨e, h⟩ <;> cases h <;> exact Bool.false_ne_true

variable {transient : Fields} {s s' : Stage} {as : List Action} {trail : List Footstep}

theorem Trail.length_le (h : Trail canCall transient replies s as trail s') :
    trail.length ≤ (withinAll as).length := by
  have hpos : ∀ a : Action, 0 < a.within.length := fun a => List.length_pos_of_mem (mem_within a)
  induction h with
  | nil => exact Nat.zero_le _
  | @skip t n a as trail s h _ ih =>
      have ha := hpos a
      simp only [List.length_cons, withinAll, List.length_append]
      omega
  | @pass t t' n a as trail s h _ _ ih =>
      have ha := hpos a
      simp only [List.length_cons, withinAll, List.length_append]
      omega
  | @answer t n a as record branch s' s trail h hcall _ ih =>
      have ha := hcall.branch_lt
      simp only [List.length_cons, withinAll, List.length_append]
      omega
  | @stop t n a as e h _ =>
      have ha := hpos a
      simp only [List.length_singleton, withinAll, List.length_append]
      omega

/-- Of what is executed, only the last ends the list, and it does if it can. -/
theorem Trail.ending_iff (h : Trail canCall transient replies s as trail s') {b : Batch}
    (hb : b.ending = .exhausted) {e : Ending} (he : e ≠ .exhausted) :
    (trail.foldl Batch.count b).ending = e ↔
      ∃ step, Footstep.lastExecuted? trail = some step ∧ step.action.Ends step.before e := by
  induction h generalizing b with
  | nil =>
      rw [List.foldl_nil, hb]
      exact ⟨fun h => absurd h.symm he, by rintro ⟨_, ⟨⟩, -⟩⟩
  | skip _ _ ih => exact ih hb
  | @pass t t' n a as trail s _ hstep _ ih =>
      have hnot := hstep.not_ends e
      rw [Footstep.lastExecuted_cons hnot]
      exact ih hb
  | @answer t n a as record branch s' s trail _ hcall _ ih =>
      have hnot := hcall.not_ends t.run e
      rw [Footstep.lastExecuted_cons hnot]
      exact ih hb
  | @stop t n a as e' _ hend =>
      refine ⟨fun h => ⟨_, rfl, h ▸ hend⟩, ?_⟩
      rintro ⟨_, ⟨⟩, hend'⟩
      exact hend.unique hend'

theorem Trail.records (h : Trail canCall transient replies s as trail s') :
    ∃ records, s'.1.serviceCalls = s.1.serviceCalls ++ records ∧
      List.Forall₂ Footstep.Makes (trail.filter Footstep.isServiceCall) records := by
  induction h with
  | nil => exact ⟨[], (List.append_nil _).symm, .nil⟩
  | @skip t n a as trail s _ _ ih =>
      have hnot : ¬ Footstep.isServiceCall ⟨a, t.run, .skipped⟩ = true := by
        cases a <;> exact Bool.false_ne_true
      rwa [List.filter_cons_of_neg hnot]
  | @pass t t' n a as trail s _ hstep _ ih =>
      have hnot : ¬ Footstep.isServiceCall ⟨a, t.run, .passed⟩ = true :=
        not_serviceCall (.inl ⟨t', hstep⟩)
      rw [List.filter_cons_of_neg hnot, ← hstep.serviceCalls]
      exact ih
  | @answer t n a as record branch s' s trail _ hcall _ ih =>
      obtain ⟨records, hrecords, hall⟩ := ih
      rw [hcall.serviceCalls, List.append_assoc] at hrecords
      rw [List.filter_cons_of_pos hcall.makes.1]
      exact ⟨record :: records, hrecords, .cons hcall.makes.2 hall⟩
  | @stop t n a as e _ hend =>
      have hnot : ¬ Footstep.isServiceCall ⟨a, t.run, .ended e⟩ = true :=
        not_serviceCall (.inr ⟨e, hend⟩)
      rw [List.filter_cons_of_neg hnot]
      exact ⟨[], (List.append_nil _).symm, .nil⟩

/-- Carrying out a list of actions goes one way through their tree, whatever the services reply. It comes
to no more actions than the tree has, counts what it has executed and skipped, ends in a navigation or a
closing exactly if that is what was executed last, and puts every service call on record, in order. -/
theorem performAll_trail (canCall : Bool) (transient : Fields) (replies : Nat → ServiceReply)
    (as : List Action) (t : Turn)
    (h : ∀ f, ((performAll canCall transient as {} t).answered replies 0).2.1 ≠ .error f) :
    ∃ t' b m trail, (performAll canCall transient as {} t).answered replies 0 = (t', .ok b, m) ∧
      Trail canCall transient replies (t, 0) as trail (t', m) ∧
      b.executed = trail.countP Footstep.isExecuted ∧ b.skipped = trail.countP (!·.isExecuted) ∧
      b.executed + b.skipped ≤ (withinAll as).length ∧
      (∀ id, b.ending = .navigate id ↔ ∃ last, Footstep.lastExecuted? trail = some last ∧
        ∃ conditions deeplink target, last.action = .navigate conditions deeplink ∧
          last.before.target? deeplink = .ok (some target) ∧ target.id = id) ∧
      (∀ reason flowCompleted, b.ending = .close reason flowCompleted ↔
        ∃ last, Footstep.lastExecuted? trail = some last ∧
          ∃ conditions parameters, last.action = .close conditions flowCompleted parameters ∧
            closeReason parameters = reason) ∧
      ∃ records, t'.serviceCalls = t.serviceCalls ++ records ∧
        List.Forall₂ Footstep.Makes (trail.filter Footstep.isServiceCall) records := by
  rcases hw : (performAll canCall transient as {} t).answered replies 0 with ⟨t', o, m⟩
  rw [hw] at h
  cases o with
  | error f => exact absurd rfl (h f)
  | ok b =>
      obtain ⟨trail, htrail, rfl⟩ := performAll_answered as {} hw
      have hexecuted := Batch.count_executed trail {}
      have hskipped := Batch.count_skipped trail {}
      rw [Nat.zero_add] at hexecuted hskipped
      refine ⟨t', _, m, trail, rfl, htrail, hexecuted, hskipped, ?_, fun id => ?_,
        fun reason flowCompleted => ?_, htrail.records⟩
      · have hlength := trail.length_eq_countP_add_countP Footstep.isExecuted
        have hle := htrail.length_le
        simp only [Bool.not_eq_true, Bool.decide_eq_false] at hlength
        omega
      · have hiff := htrail.ending_iff (b := {}) (e := .navigate id) rfl nofun
        exact hiff.trans (exists_congr fun last => and_congr_right fun _ => ends_navigate)
      · have hiff := htrail.ending_iff (b := {}) (e := .close reason flowCompleted) rfl nofun
        exact hiff.trans (exists_congr fun last => and_congr_right fun _ => ends_close)

theorem performAll_trail_tour :
    let behind : Action := .update [] .module [("left", .bool true)]
    let as : List Action := [.update [⟨.bool false, []⟩] .module [("hurried", .bool true)],
      .call [] ⟨"guidebook", .null, [], none⟩ [.navigate [] "garden", behind] [.close [] false []], behind]
    let replies : Nat → ServiceReply := fun _ => .success .null
    let t : Turn := { run := Tour.run }
    (∀ f, ((performAll true [] as {} t).answered replies 0).2.1 ≠ .error f) ∧
      ∃ t' b m trail, (performAll true [] as {} t).answered replies 0 = (t', .ok b, m) ∧
        Trail true [] replies (t, 0) as trail (t', m) ∧
        trail.countP Footstep.isExecuted = 2 ∧ trail.countP (!·.isExecuted) = 1 ∧
        ∃ last, Footstep.lastExecuted? trail = some last ∧
          ∃ conditions deeplink target, last.action = .navigate conditions deeplink ∧
            last.before.target? deeplink = .ok (some target) ∧ target.id = "garden" := by
  intro behind as replies t
  have hok : ((performAll true [] as {} t).answered replies 0).2.1 =
      .ok ⟨.navigate "garden", 2, 1⟩ := rfl
  have h : ∀ f, ((performAll true [] as {} t).answered replies 0).2.1 ≠ .error f := by
    intro f
    rw [hok]
    nofun
  obtain ⟨t', b, m, trail, hw, htrail, hexecuted, hskipped, -, hnavigate, -⟩ :=
    performAll_trail true [] replies as t h
  rw [hw] at hok
  cases hok
  exact ⟨h, t', _, m, trail, hw, htrail, hexecuted.symm, hskipped.symm, (hnavigate "garden").mp rfl⟩

end Action

end GuidedJourney
