import GuidedJourney.Proofs.RequestChange

namespace GuidedJourney

open Relation

namespace Turn

/-- Strides of an event, with what was let go being settled wherever the turn waits. -/
def Trek (ss : List Screen) : Turn → Turn → Prop :=
  ReflTransGen fun t t' => t.Stride ss t' ∨ t.Open ∧ t' = { t with released := [] }

theorem Trek.keeps {I : Turn → Prop} {ss : List Screen} {t t' : Turn} (h : Trek ss t t')
    (hstride : ∀ t t', I t → t.Stride ss t' → I t') (hsettle : ∀ t, I t → I { t with released := [] })
    (ht : I t) : I t' := by
  induction h with
  | refl => exact ht
  | tail _ hc ih =>
      rcases hc with hc | ⟨-, rfl⟩
      · exact hstride _ _ ih hc
      · exact hsettle _ ih

def writeAll (t : Turn) (ws : List StateWrite) : Turn := ws.foldl write t

theorem writeAll_jots (t : Turn) (ws : List StateWrite) : ReflTransGen Jot t (t.writeAll ws) := by
  induction ws generalizing t with
  | nil => exact .refl
  | cons w ws ih => exact (t.write_jots w).trans (ih (t.write w))

theorem jots_kept {t t' : Turn} (h : ReflTransGen Jot t t') : t.Kept t' ∧ t'.entered = t.entered := by
  induction h with
  | refl => exact ⟨.refl t, rfl⟩
  | tail _ hj ih => exact ⟨ih.1.trans hj.kept, hj.entered.trans ih.2⟩

end Turn

namespace Act

theorem writeAll_copies {ws : List StateWrite} (h : ∀ w ∈ ws, w.copies = true) (t : Turn) :
    writeAll ws t = .done (t.writeAll ws) () := by
  induction ws generalizing t with
  | nil => rfl
  | cons w ws ih =>
      rw [List.forall_mem_cons] at h
      change (write w t).bind (fun t _ => writeAll ws t) = _
      rw [write_copies h.1]
      exact ih h.2 (t.write w)

theorem writeAll_lost {ws : List StateWrite} (h : ¬ ∀ w ∈ ws, w.copies = true) (t : Turn) :
    ∃ t', writeAll ws t = .failed t' .tooDeep := by
  induction ws generalizing t with
  | nil => exact absurd (List.forall_mem_nil _) h
  | cons w ws ih =>
      change ∃ t', (write w t).bind (fun t _ => writeAll ws t) = _
      cases hw : w.copies with
      | false =>
          rw [write_lost hw]
          exact ⟨_, rfl⟩
      | true =>
          rw [write_copies hw]
          exact ih (fun hws => h (List.forall_mem_cons.mpr ⟨hw, hws⟩)) (t.write w)

end Act

namespace Work

variable {α : Type} {ss : List Screen} {Q : Turn → α → Prop} {t t' : Turn}

theorem Meets.trek {w : Work α} {a : α} (hw : w.Meets (Turn.Stride ss) Turn.Open Q t)
    (h : w.Reaches (.done t' a)) : t.Trek ss t' ∧ Q t' a := by
  obtain ⟨t₁, hpath, hended⟩ :=
    hw.reaches (S := fun t t' => t.Stride ss t' ∨ t.Open ∧ t' = { t with released := [] }) h
      (fun _ _ h => .inl h) fun _ h => .inr ⟨h, rfl⟩
  exact ⟨hpath.trans (ReflTransGen.mono (fun _ _ h => Or.inl h) _ _ hended.1), hended.2⟩

end Work

/-- What has become of a demand of a run that was not over: where its turn has ended, and what it tells
about that. -/
inductive Demand.Ends (t : Turn) : Demand → Turn → Response → Prop
  | unstarted (hs : t.run.agent?.bind (·.screens.head?) = none) :
      Ends t .start t (t.response t.run .started)
  | started (s : Screen) {t' : Turn} (hs : t.run.agent?.bind (·.screens.head?) = some s)
      (h : (t.moveTo s).Trek t.run.screens t') : Ends t .start t' (t'.response t.run .started)
  | event (c : EventCall) {t' : Turn} {o : Response} (h : t.Trek t.run.screens t')
      (ho : o.Of t.run t') : Ends t (.event c) t' o
  | stayed (message : String) (hs : Act.previousScreen t.run = .error message) :
      Ends t .back { t with warnings := t.warnings ++ [message] }
        (Turn.response { t with warnings := t.warnings ++ [message] } t.run .rejected)
  | back (s : Screen) (hs : Act.previousScreen t.run = .ok s) :
      Ends t .back (t.backTo s) ((t.backTo s).response t.run .applied)
  | unreached (id : Value) (message : String) (ha : Act.handoffTarget? t.run id = none) :
      Ends t (.handoff id) { t with warnings := t.warnings ++ [message] }
        (Turn.response { t with warnings := t.warnings ++ [message] } t.run .rejected)
  | left (id : Value) (a : Agent) (ha : Act.handoffTarget? t.run id = some a)
      (hs : a.screens.head? = none) :
      Ends t (.handoff id) { t.handTo a with run := (t.handTo a).run.leave }
        { Turn.response { t.handTo a with run := (t.handTo a).run.leave } t.run .applied with
          previousAgentId := t.run.agentId }
  | handed (id : Value) (a : Agent) (s : Screen) {t' : Turn}
      (ha : Act.handoffTarget? t.run id = some a) (hs : a.screens.head? = some s)
      (h : ((t.handTo a).moveTo s).Trek t.run.screens t') :
      Ends t (.handoff id) t'
        { t'.response t.run .applied with previousAgentId := t.run.agentId }
  | wrote (label : Value) (ws : List StateWrite) :
      Ends t (.write label ws) (t.writeAll ws)
        { (t.writeAll ws).response t.run .applied with eventId := label }
  | terminated (reason : Value) (flowCompleted : Bool) :
      Ends t (.terminate reason flowCompleted) (t.close ⟨reason, flowCompleted⟩)
        ((t.close ⟨reason, flowCompleted⟩).response t.run .applied)

namespace Demand

variable (rules : Rules) {t t' : Turn} {o : Response}

theorem Ends.tells {d : Demand} (h : d.Ends t t' o) : o.Of t.run t' := by
  cases h with
  | event c h ho => exact ho
  | _ => exact ⟨_, _, _, _, rfl⟩

theorem settled_trek {n w : Nat} {s : Screen} {answer : Turn → Response}
    (hw : EntryWidth rules t.run.screens w) (hs : s ∈ t.run.screens) (hopen : t.Open)
    (h : ((Act.settleIn rules n s t).bind fun t' _ => .done t' (answer t')).Reaches (.done t' o)) :
    o = answer t' ∧ t.Trek t.run.screens t' := by
  obtain ⟨t₁, _, hreaches, h⟩ := h.bind_done
  cases h
  exact ⟨rfl, (Work.Meets.trek (Act.settleIn_strides rules hw n s t hs rfl hopen) hreaches).1⟩

theorem ends {d : Demand} (hopen : t.Open) (h : (d.process rules t).Reaches (.done t' o)) :
    d.Ends t t' o := by
  obtain ⟨w, hw⟩ := EntryWidth.exists rules t.run.screens
  cases d with
  | start =>
      change (Act.processStart rules t).Reaches _ at h
      cases hs : t.run.agent?.bind (·.screens.head?) with
      | none =>
          rw [Act.processStart_none rules hs] at h
          cases h
          exact .unstarted hs
      | some s =>
          rw [Act.processStart_first rules hs] at h
          obtain ⟨rfl, htrek⟩ :=
            settled_trek rules (t := t.moveTo s) hw (Run.first_mem hs) hopen h
          exact .started s hs htrek
  | event c =>
      obtain ⟨htrek, hanswered⟩ := Work.Meets.trek (Act.processEvent_meets rules hw c rfl) h
      exact .event c htrek hanswered.tells
  | back =>
      change (Act.processBack t).Reaches _ at h
      rcases Act.processBack_open hopen with ⟨message, hs, he⟩ | ⟨s, hs, he⟩
      · rw [he] at h
        cases h
        exact .stayed message hs
      · rw [he] at h
        cases h
        exact .back s hs
  | handoff id =>
      change (Act.processHandoff rules id t).Reaches _ at h
      rcases Act.processHandoff_open rules id hopen with
        ⟨f, -, -, he⟩ | ⟨message, ha, he⟩ | ⟨a, ha, he⟩
      · rw [he] at h
        cases h
      · rw [he] at h
        cases h
        exact .unreached id message ha
      · rw [he] at h
        cases hs : a.screens.head? with
        | none =>
            rw [Act.handTo_none rules hs] at h
            cases h
            exact .left id a ha hs
        | some s =>
            rw [Act.handTo_first rules hs] at h
            have hmem := Run.screens_agent (Act.handoffTarget_mem ha).1 (List.mem_of_head? hs)
            obtain ⟨rfl, htrek⟩ :=
              settled_trek rules (t := (t.handTo a).moveTo s) hw hmem hopen h
            exact .handed id a s ha hs htrek
  | write label ws =>
      change (Act.processWrite label ws t).Reaches _ at h
      rw [Act.processWrite_open label ws hopen] at h
      by_cases hws : ∀ w ∈ ws, w.copies = true
      · rw [Act.writeAll_copies hws] at h
        cases h
        exact .wrote label ws
      · obtain ⟨t₁, he⟩ := Act.writeAll_lost hws t
        rw [he] at h
        cases h
  | terminate reason flowCompleted =>
      change (Act.processTerminate reason flowCompleted t).Reaches _ at h
      rw [Act.processTerminate_open reason flowCompleted hopen] at h
      cases h
      exact .terminated reason flowCompleted

end Demand

namespace Request

variable (rules : Rules) {q : Request} {r : Run} {t : Turn} {o : Response}

theorem ends (hopen : r.completed = false) (h : (q.process rules { run := r }).Reaches (.done t o)) :
    q.demand.Ends { run := r.counted q.tally } t o := by
  obtain ⟨store, hcounted⟩ := r.counted_eq q.tally
  rw [q.process_apply] at h
  rw [hcounted] at h ⊢
  exact Demand.ends rules (t := { run := { r with store } }) hopen h

theorem ends_over (hover : r.completed = true)
    (h : (q.process rules { run := r }).Reaches (.done t o)) :
    o.Of r t ∧ (o.outcome = .ignored ∨ o.outcome = .started) ∧
      (t = { run := r } ∨ ∃ s warnings, q.demand = .start ∧
        r.agent?.bind (·.screens.head?) = some s ∧
        t = { Turn.moveTo s { run := r } with warnings }) := by
  by_cases hq : q.demand = .start
  · rcases start_over rules (t := { run := r }) hq hover with ⟨-, he⟩ | ⟨s, t', hs, ht, he⟩
    · rw [he] at h
      cases h
      exact ⟨Turn.response_of _ _ _, .inr rfl, .inl rfl⟩
    · rw [he] at h
      cases h
      rcases ht with rfl | ⟨message, rfl⟩
      · exact ⟨Turn.response_of _ _ _, .inr rfl, .inr ⟨s, _, hq, hs, rfl⟩⟩
      · exact ⟨Turn.response_of _ _ _, .inr rfl, .inr ⟨s, _, hq, hs, rfl⟩⟩
  · obtain ⟨o', he, ho, htells⟩ := process_over rules (t := { run := r }) hq hover
    rw [he] at h
    cases h
    exact ⟨htells, .inl ho, .inl rfl⟩

theorem tells (h : (q.process rules { run := r }).Reaches (.done t o)) : o.Of r t := by
  cases hover : r.completed with
  | true => exact (ends_over rules hover h).1
  | false =>
      have htells := (ends rules hover h).tells
      obtain ⟨store, hcounted⟩ := r.counted_eq q.tally
      rw [hcounted] at htells
      exact htells

end Request

end GuidedJourney
