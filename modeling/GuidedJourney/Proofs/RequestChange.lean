import GuidedJourney.Proofs.EventChange

namespace GuidedJourney

open Relation

namespace Act

variable (rules : Rules) {ss : List Screen} {t : Turn}

theorem processStart_first {s : Screen} (hs : t.run.agent?.bind (·.screens.head?) = some s) :
    processStart rules t = (settleIn rules rules.interpreter.maxChainedEntries s (t.moveTo s)).bind
      fun t' _ => respond t.run .started t' := by
  rw [← enterWithin_apply]
  unfold processStart
  simp only [bind, run, Work.bind, hs]
  rfl

theorem processStart_none (hs : t.run.agent?.bind (·.screens.head?) = none) :
    processStart rules t = .done t (t.response t.run .started) := by
  unfold processStart
  simp only [bind, run, Work.bind, hs]
  rfl

theorem handTo_none {a : Agent} (hs : a.screens.head? = none) :
    handTo rules a t = .done { t.handTo a with run := (t.handTo a).run.leave } () := by
  unfold handTo
  rw [hs]
  rfl

theorem handTo_first {a : Agent} {s : Screen} (hs : a.screens.head? = some s) :
    handTo rules a t =
      settleIn rules rules.interpreter.maxChainedEntries s ((t.handTo a).moveTo s) := by
  rw [← enterWithin_apply]
  unfold handTo
  rw [hs]
  rfl

theorem processBack_open (hopen : t.run.completed = false) :
    (∃ message, previousScreen t.run = .error message ∧ processBack t =
      .done { t with warnings := t.warnings ++ [message] }
        (Turn.response { t with warnings := t.warnings ++ [message] } t.run .rejected)) ∨
    ∃ s, previousScreen t.run = .ok s ∧
      processBack t = .done (t.backTo s) ((t.backTo s).response t.run .applied) := by
  unfold processBack
  simp only [bind, run, Work.bind, hopen, Bool.false_eq_true, if_false]
  cases hs : previousScreen t.run with
  | error message => exact .inl ⟨message, rfl, rfl⟩
  | ok s => exact .inr ⟨s, rfl, rfl⟩

theorem processHandoff_open (id : Value) (hopen : t.run.completed = false) :
    (∃ f, handoffTarget? t.run id = none ∧ id.legible Value.stackRoom = .error f ∧
      processHandoff rules id t = .failed t f) ∨
    (∃ message, handoffTarget? t.run id = none ∧ processHandoff rules id t =
      .done { t with warnings := t.warnings ++ [message] }
        (Turn.response { t with warnings := t.warnings ++ [message] } t.run .rejected)) ∨
    ∃ a, handoffTarget? t.run id = some a ∧ processHandoff rules id t =
      (handTo rules a t).bind fun t' _ =>
        .done t' { t'.response t.run .applied with previousAgentId := t.run.agentId } := by
  unfold processHandoff
  simp only [bind, run, Work.bind, hopen, Bool.false_eq_true, if_false]
  cases ha : handoffTarget? t.run id with
  | none =>
      cases hwritten : id.legible Value.stackRoom with
      | error f => exact .inl ⟨f, rfl, rfl, rfl⟩
      | ok => exact .inr (.inl ⟨_, rfl, rfl⟩)
  | some a => exact .inr (.inr ⟨a, rfl, rfl⟩)

theorem processTerminate_open (reason : Value) (flowCompleted : Bool)
    (hopen : t.run.completed = false) :
    processTerminate reason flowCompleted t = .done (t.close ⟨reason, flowCompleted⟩)
      ((t.close ⟨reason, flowCompleted⟩).response t.run .applied) := by
  change (if t.run.completed = true then _ else _ : Act Response) t = _
  rw [hopen, if_neg Bool.false_ne_true]
  rfl

theorem processWrite_open (label : Value) (ws : List StateWrite) (hopen : t.run.completed = false) :
    processWrite label ws t = (writeAll ws t).bind fun t' _ =>
      .done t' { t'.response t.run .applied with eventId := label } := by
  change (if t.run.completed = true then _ else _ : Act Response) t = _
  rw [hopen, if_neg Bool.false_ne_true]
  rfl

theorem writeAll_goes (ws : List StateWrite) (t : Turn) :
    (writeAll ws).Goes Turn.Jot (fun _ _ => True) t := by
  induction ws generalizing t with
  | nil => exact pure_goes trivial
  | cons w ws ih => exact (write_goes w).bind fun t' _ _ => ih t'

theorem processWrite_meets {R : Turn → Turn → Prop} (hR : ∀ t t', t.Open → t.Jot t' → R t t')
    (label : Value) (ws : List StateWrite) (hopen : t.Open) :
    (processWrite label ws).Meets R Turn.Open
      (fun t' o => (t.Kept t' ∧ t'.entered = t.entered) ∧ o.Of t.run t') t := by
  change Work.Meets _ _ _ (processWrite label ws t) t
  rw [processWrite_open label ws hopen]
  refine Work.Meets.bind (jots_meets hR (writeAll_goes ws t) hopen) fun t' _ h => ?_
  exact ⟨.refl, h.1, _, _, _, _, rfl⟩

end Act

/-- What becomes of a demand once the tool call that it came with has been counted. -/
def Demand.process (rules : Rules) : Demand → Act Response
  | .start => Act.processStart rules
  | .event c => Act.processEvent rules c
  | .back => Act.processBack
  | .handoff agent => Act.processHandoff rules agent
  | .write label writes => Act.processWrite label writes
  | .terminate reason flowCompleted => Act.processTerminate reason flowCompleted

namespace Run

def counted (r : Run) (tally : Option String) : Run :=
  match tally with
  | some tool =>
    if r.completed then r
    else { r with store := (r.store.incrementIn .module toolCallCounts tool 1).1 }
  | none => r

theorem counted_over {r : Run} (hover : r.completed = true) (tally : Option String) :
    r.counted tally = r := by
  cases tally with
  | none => rfl
  | some tool => simp [counted, hover]

theorem counted_eq (r : Run) (tally : Option String) : ∃ store, r.counted tally = { r with store } := by
  cases tally with
  | none => exact ⟨r.store, rfl⟩
  | some tool =>
      unfold counted
      dsimp only
      split
      · exact ⟨r.store, rfl⟩
      · exact ⟨_, rfl⟩

end Run

namespace Demand

variable (rules : Rules) {ss : List Screen} {w : Nat} {t : Turn}

/-- The ways in which a demand can complete a run with the screens `ss`. -/
def closings (ss : List Screen) : Demand → List Completion
  | .start | .event _ | .handoff _ => ss.flatMap Screen.closings
  | .terminate reason flowCompleted => [⟨reason, flowCompleted⟩]
  | .back | .write .. => []

theorem process_open (hw : EntryWidth rules ss w) (d : Demand) (hss : t.run.screens = ss)
    (hopen : t.Open) :
    (d.process rules).Meets (Turn.Step (d.closings ss)) Turn.Open (Act.Answered ss
      (t.entered.length + (further w rules.interpreter.maxChainedEntries + 1)) t.run) t := by
  -- Entering a screen from here, to respond when the entry events are through.
  have henter : ∀ (t₁ : Turn) (s : Screen) (answer : Turn → Response),
      t₁.entered.length = t.entered.length + 1 → s ∈ ss → t₁.run.screens = ss → t₁.Open →
      (∀ t', (answer t').Of t.run t') →
      ((Act.settleIn rules rules.interpreter.maxChainedEntries s t₁).bind
        fun t' _ => .done t' (answer t')).Meets (Turn.Step (ss.flatMap Screen.closings))
          Turn.Open (Act.Answered ss
            (t.entered.length + (further w rules.interpreter.maxChainedEntries + 1)) t.run) t₁ := by
    intro t₁ s answer hlength hs hss hopen hanswer
    refine (Act.settleIn_respond rules hw _ hs hss hopen hanswer).mono
      (fun _ _ h => h.step) fun t' o h => ⟨h.tells, h.screens, ?_⟩
    have hentered := h.entered
    omega
  cases d with
  | start =>
      cases hs : t.run.agent?.bind (·.screens.head?) with
      | none =>
          change Work.Meets _ _ _ (Act.processStart rules t) t
          rw [Act.processStart_none rules hs]
          exact ⟨.refl, t.response_of _ _, hss, Nat.le_add_right _ _⟩
      | some s =>
          change Work.Meets _ _ _ (Act.processStart rules t) t
          rw [Act.processStart_first rules hs]
          refine (henter (t.moveTo s) s _ List.length_append (hss ▸ Run.first_mem hs) hss
            hopen fun t' => t'.response_of _ _).after (.single ⟨hopen, .inr (.start s hs), .inl hopen⟩)
  | event c =>
      have hgoes := Act.processEvent_meets rules hw c hss
      exact Work.Meets.mono hgoes (fun _ _ h => h.step) fun _ _ h => h
  | back =>
      change Work.Meets _ _ _ (Act.processBack t) t
      rcases Act.processBack_open hopen with ⟨message, -, he⟩ | ⟨s, hs, he⟩
      · rw [he]
        exact ⟨.single ⟨hopen, .inl (.warn message), .inl hopen⟩, Turn.response_of _ _ _, hss,
          Nat.le_add_right _ _⟩
      · rw [he]
        refine ⟨.single ⟨hopen, .inr (.back s hopen hs), .inl hopen⟩, Turn.response_of _ _ _, hss, ?_⟩
        have hlength : (t.backTo s).entered.length = t.entered.length + 1 := List.length_append
        omega
  | handoff id =>
      change Work.Meets _ _ _ (Act.processHandoff rules id t) t
      rcases Act.processHandoff_open rules id hopen with
        ⟨f, -, -, he⟩ | ⟨message, -, he⟩ | ⟨a, ha, he⟩
      · rw [he]
        exact ⟨.refl, hopen⟩
      · rw [he]
        exact ⟨.single ⟨hopen, .inl (.warn message), .inl hopen⟩, Turn.response_of _ _ _, hss,
          Nat.le_add_right _ _⟩
      · rw [he]
        cases hs : a.screens.head? with
        | none =>
            rw [Act.handTo_none rules hs]
            exact ⟨.single ⟨hopen, .inr (.leave id a hopen ha hs), .inl hopen⟩, ⟨_, _, _, _, rfl⟩, hss,
              Nat.le_add_right _ _⟩
        | some s =>
            rw [Act.handTo_first rules hs]
            have hmem : s ∈ ss := by
              rw [← hss]
              exact Run.screens_agent (Act.handoffTarget_mem ha).1 (List.mem_of_head? hs)
            exact (henter ((t.handTo a).moveTo s) s _ List.length_append hmem hss hopen
              fun t' => ⟨_, _, _, _, rfl⟩).after
                (.single ⟨hopen, .inr (.handoff id a s hopen ha hs), .inl hopen⟩)
  | write label writes =>
      refine (Act.processWrite_meets (fun t t' => Turn.Jot.step) label writes hopen).mono
        fun t' o h => ⟨h.2, h.1.1.screens.trans hss, ?_⟩
      rw [h.1.2]
      exact Nat.le_add_right _ _
  | terminate reason flowCompleted =>
      change Work.Meets _ _ _ (Act.processTerminate reason flowCompleted t) t
      rw [Act.processTerminate_open reason flowCompleted hopen]
      refine ⟨.single ⟨hopen, .inl (.complete reason flowCompleted hopen), .inr ⟨_, ?_, rfl⟩⟩,
        Turn.response_of _ _ _, hss, Nat.le_add_right _ _⟩
      exact List.mem_singleton.mpr rfl

end Demand

theorem Request.process_apply (rules : Rules) (q : Request) (t : Turn) :
    q.process rules t = q.demand.process rules { t with run := t.run.counted q.tally } := by
  rcases q with ⟨demand, tally⟩
  cases demand <;> rfl

theorem Turn.count_steps (cs : List Completion) (tally : Option String) {t : Turn} (hopen : t.Open) :
    ReflTransGen (Turn.Step cs) t { t with run := t.run.counted tally } := by
  cases tally with
  | none => exact .refl
  | some tool =>
      have he : t.run.counted (some tool) =
          { t.run with store := (t.run.store.incrementIn .module toolCallCounts tool 1).1 } :=
        if_neg fun hover => Bool.false_ne_true (hopen.symm.trans hover)
      rw [he]
      exact .single ⟨hopen, .inl (.count tool hopen), .inl hopen⟩

theorem Act.processStart_moved (rules : Rules) {t : Turn} {s : Screen}
    (hs : t.run.agent?.bind (·.screens.head?) = some s) :
    (processStart rules t).Goes Turn.Change (fun _ _ => True) (t.moveTo s) := by
  rw [processStart_first rules hs]
  cases hover : t.run.completed with
  | false =>
      obtain ⟨w, hw⟩ := EntryWidth.exists rules t.run.screens
      have hgoes := settleIn_strides rules hw rules.interpreter.maxChainedEntries s (t.moveTo s)
        (Run.first_mem hs) rfl hover
      refine Work.Goes.bind (Q := fun _ _ => True) ?_ fun t' _ _ => ⟨.refl, trivial⟩
      exact (Work.Meets.goes hgoes).mono (fun _ _ h => h.step.2.1) fun _ _ _ => trivial
  | true =>
      rcases settleIn_over rules rules.interpreter.maxChainedEntries s (t := t.moveTo s) hover with
        he | ⟨message, he⟩
      · rw [he]
        exact ⟨.refl, trivial⟩
      · rw [he]
        exact ⟨.single (.inl (.warn message)), trivial⟩

theorem Act.processStart_changes (rules : Rules) (t : Turn) :
    (processStart rules t).Goes Turn.Change (fun _ _ => True) t := by
  cases hs : t.run.agent?.bind (·.screens.head?) with
  | none =>
      rw [processStart_none rules hs]
      exact ⟨.refl, trivial⟩
  | some s => exact (processStart_moved rules hs).after (.single (.inr (.start s hs)))

namespace Request

variable (rules : Rules) {t : Turn}

/-- While the run is not over, a request goes by steps, and waits and fails only then; a step that
completes the run is the last. -/
theorem process_open {w : Nat} (hw : EntryWidth rules t.run.screens w) (q : Request)
    (hopen : t.Open) :
    (q.process rules).Meets (Turn.Step (q.demand.closings t.run.screens)) Turn.Open
      (Act.Answered t.run.screens
        (t.entered.length + (further w rules.interpreter.maxChainedEntries + 1)) t.run) t := by
  obtain ⟨store, hcounted⟩ := t.run.counted_eq q.tally
  have hprocess := q.process_apply rules t
  have hcount := Turn.count_steps (q.demand.closings t.run.screens) q.tally hopen
  rw [hcounted] at hprocess hcount
  have hgoes := q.demand.process_open rules (t := { t with run := { t.run with store } }) hw rfl hopen
  change Work.Meets _ _ _ (q.process rules t) t
  rw [hprocess]
  exact (Work.Meets.after hcount hgoes).mono (fun _ _ h => h) fun _ _ h => ⟨h.tells, h.screens, h.entered⟩

theorem process_over {q : Request} (hq : q.demand ≠ .start) (hover : t.run.completed = true) :
    ∃ o, q.process rules t = .done t o ∧ o.outcome = .ignored ∧ o.Of t.run t := by
  rw [q.process_apply, Run.counted_over hover]
  cases hd : q.demand with
  | start => exact absurd hd hq
  | event c =>
      have ho : Act.eventOutcome rules { c with id := c.id.orElse (.str "") } t =
          .done t .ignored := by
        change (if t.run.completed = true then _ else _ : Act Outcome) t = _
        rw [if_pos hover]
        rfl
      have hp : Act.processEvent rules c t =
          (Act.eventOutcome rules { c with id := c.id.orElse (.str "") } t).bind _ := rfl
      rw [ho] at hp
      exact ⟨_, hp, rfl, _, _, none, _, rfl⟩
  | back | handoff agent | terminate reason flowCompleted =>
      refine ⟨_, ?_, rfl, t.response_of t.run .ignored⟩
      change (if t.run.completed = true then _ else _ : Act Response) t = _
      rw [if_pos hover]
      rfl
  | write label writes =>
      refine ⟨{ t.response t.run .ignored with eventId := label }, ?_, rfl, label, .null, none, false,
        rfl⟩
      change (if t.run.completed = true then _ else _ : Act Response) t = _
      rw [if_pos hover]
      rfl

/-- A start of a run that is over enters the first screen, and that is all. -/
theorem start_over {q : Request} (hq : q.demand = .start) (hover : t.run.completed = true) :
    (t.run.agent?.bind (·.screens.head?) = none ∧
      q.process rules t = .done t (t.response t.run .started)) ∨
    ∃ s t', t.run.agent?.bind (·.screens.head?) = some s ∧
      (t' = t.moveTo s ∨ ∃ message, t' =
        { t.moveTo s with warnings := (t.moveTo s).warnings ++ [message] }) ∧
      q.process rules t = .done t' (t'.response t.run .started) := by
  rw [q.process_apply, Run.counted_over hover, hq]
  change _ ∧ Act.processStart rules t = _ ∨ ∃ s t', _ ∧ _ ∧ Act.processStart rules t = _
  cases hs : t.run.agent?.bind (·.screens.head?) with
  | none => exact .inl ⟨rfl, Act.processStart_none rules hs⟩
  | some s =>
      have hp := Act.processStart_first rules hs
      rcases Act.settleIn_over rules rules.interpreter.maxChainedEntries s (t := t.moveTo s) hover
        with he | ⟨message, he⟩
      · rw [he] at hp
        exact .inr ⟨s, _, rfl, .inl rfl, hp⟩
      · rw [he] at hp
        exact .inr ⟨s, _, rfl, .inr ⟨message, rfl⟩, hp⟩

theorem process_changes (q : Request) (t : Turn) :
    (q.process rules t).Goes Turn.Change (fun _ _ => True) t := by
  cases hover : t.run.completed with
  | false =>
      obtain ⟨w, hw⟩ := EntryWidth.exists rules t.run.screens
      have hgoes := q.process_open rules hw hover
      exact (Work.Meets.goes hgoes).mono (fun _ _ h => h.2.1) fun _ _ _ => trivial
  | true =>
      by_cases hq : q.demand = .start
      · rw [q.process_apply, Run.counted_over hover, hq]
        exact Act.processStart_changes rules t
      · obtain ⟨o, he, -⟩ := process_over rules hq hover
        rw [he]
        exact ⟨.refl, trivial⟩

theorem process_becomes {q : Request} {r : Run} {w : Work Response}
    (h : (q.process rules { run := r }).Reaches w) : r.Becomes w.turn.run :=
  (q.process_changes rules { run := r }).turn (I := fun t => r.Becomes t.run)
    (fun t t' h hc => h.tail ⟨t, t', hc, rfl, rfl⟩) (fun _ h => h) .refl h

end Request

end GuidedJourney
