import GuidedJourney.Proofs.Completion
import GuidedJourney.Proofs.Desk
import GuidedJourney.Proofs.RequestEnd

namespace GuidedJourney

/-- The value can stand where a signal has a text. -/
def Value.Textual (v : Value) : Prop := ∃ t, v.toText? = .ok t

theorem Request.process_journey (rules : Rules) (q : Request) (r : Run) {w : Work Response}
    (h : (q.process rules { run := r }).Reaches w) : w.turn.run.journey = r.journey :=
  (process_becomes rules h).fixed.1

namespace Session

variable {ε : Type} (u : Setup)

/-- All responses that can be put into signals of the journey have been told as such. -/
structure Told (j : Journey) (gs : List (Listener Signal)) (s : Session ε) : Prop where
  journey : s.run.journey = j
  signals : s.signals = s.responses.filterMap fun o => (Signal.ofResponse j o).toOption
  listeners : s.signalListeners = gs.map fun l => { l with heard := l.heard ++ s.signals }

variable {j : Journey} {gs : List (Listener Signal)} {s : Session ε}

theorem Told.finish (h : Told j gs s) (caller : ε) (o : Except Fault Response) :
    Told j gs (s.finish u caller o) := by
  cases o with
  | error f =>
      refine ⟨h.journey, ?_, h.listeners⟩
      rw [responses_finish]
      change s.signals = List.filterMap _ (s.responses ++ [])
      rw [List.append_nil]
      exact h.signals
  | ok r =>
      have hsignals : (s.finish u caller (.ok r)).signals =
          s.signals ++ (Signal.ofResponse j r).toOption.toList := by
        rw [← h.journey]
        rfl
      have hlisteners : (s.finish u caller (.ok r)).signalListeners =
          (Signal.ofResponse j r).toOption.elim s.signalListeners
            (Listener.tellAll · s.signalListeners) := by
        rw [← h.journey]
        rfl
      refine ⟨h.journey, ?_, ?_⟩
      · rw [hsignals, responses_finish, List.filterMap_append, h.signals]
        cases hg : Signal.ofResponse j r <;> simp [Except.toOption, hg]
      · rw [hlisteners, hsignals, h.listeners]
        cases Signal.ofResponse j r with
        | error f => simp [Except.toOption]
        | ok g => simp [Except.toOption, Listener.tellAll, Listener.tell]

theorem Told.follow (h : Told j gs s) {q : Queued ε} {r : Run} (hr : r.journey = j)
    {w : Work Response} (hw : (q.request.process u.rules { run := r }).Reaches w) :
    Told j gs (s.follow u q.caller w) := by
  have hjourney : ∀ {w'}, w.Reaches w' → w'.turn.run.journey = j :=
    fun h => (q.request.process_journey u.rules r (hw.trans h)).trans hr
  rcases follow_cases u q.caller w s with ⟨t, ts, cs, o, ho, he⟩ | ⟨t, ts, cs, c, k, hk, he⟩
  · rw [he]
    refine Told.finish u (s := { s with run := t.run, timers := ts, calls := cs })
      ⟨?_, h.signals, h.listeners⟩ q.caller o
    cases o with
    | ok a => exact hjourney ho
    | error f => exact hjourney ho
  · rw [he]
    exact ⟨hjourney hk, h.signals, h.listeners⟩

theorem told_followed (r₀ : Run) (gs : List (Listener Signal)) :
    Followed u fun s : Session ε => Traced u r₀ s ∧ Told r₀.journey gs s where
  take s q h hnone := by
    refine ⟨h.1.take u hnone q, ?_⟩
    exact Told.follow u (s := { s with draining := true, taken := s.taken ++ [(q, s.run)] })
      ⟨h.2.journey, h.2.signals, h.2.listeners⟩ h.2.journey (.refl _)
  resumed s w x h hw := by
    refine ⟨h.1.resumed u hw x, ?_⟩
    cases h.1 with
    | through _ hnone =>
        rw [hw] at hnone
        cases hnone
    | waiting ps q r t c k hc ht hwork hr hsome =>
        obtain rfl := Option.some.inj (hw.symm.trans hsome)
        have hjourney := q.request.process_journey u.rules r hwork
        exact Told.follow u (s := { s with suspended := none })
          ⟨h.2.journey, h.2.signals, h.2.listeners⟩
          (hjourney.symm.trans ((congrArg Run.journey hr).symm.trans h.2.journey))
          (hwork.trans (.resume t c k x (.refl _)))
  arranged s timers armed queue draining h :=
    ⟨h.1.arranged u timers armed queue draining, h.2.journey, h.2.signals, h.2.listeners⟩

end Session

theorem closeReason_textual (parameters : Fields) : (closeReason parameters).Textual := by
  unfold closeReason
  split
  · exact ⟨none, rfl⟩
  · exact ⟨none, rfl⟩
  · exact ⟨some _, rfl⟩

namespace Action

mutual

theorem closings_textual : ∀ (a : Action), ∀ c ∈ a.closings, c.reason.Textual
  | .close _ flowCompleted parameters, c, hc => by
      rw [closings, List.mem_singleton] at hc
      rw [hc]
      exact closeReason_textual parameters
  | .call _ _ onSuccess onError, c, hc => by
      rw [closings, List.mem_append] at hc
      rcases hc with hc | hc
      · exact closingsAll_textual onSuccess c hc
      · exact closingsAll_textual onError c hc
  | .navigate .., c, hc => by simp [closings] at hc
  | .update .., c, hc => by simp [closings] at hc
  | .tool .., c, hc => by simp [closings] at hc
  | .unknown .., c, hc => by simp [closings] at hc

theorem closingsAll_textual : ∀ (as : List Action), ∀ c ∈ closingsAll as, c.reason.Textual
  | [], c, hc => by simp [closingsAll] at hc
  | a :: as, c, hc => by
      rw [closingsAll, List.mem_append] at hc
      rcases hc with hc | hc
      · exact closings_textual a c hc
      · exact closingsAll_textual as c hc

end

end Action

theorem Demand.closings_textual {ss : List Screen} {d : Demand}
    (hd : ∀ reason flowCompleted, d = .terminate reason flowCompleted → reason.Textual)
    {c : Completion} (hc : c ∈ d.closings ss) : c.reason.Textual := by
  have hscreens : c ∈ ss.flatMap Screen.closings → c.reason.Textual := by
    intro hc
    obtain ⟨s, -, hc⟩ := List.mem_flatMap.mp hc
    obtain ⟨e, -, hc⟩ := List.mem_flatMap.mp hc
    exact Action.closingsAll_textual e.actions c hc
  cases d with
  | start | event | handoff => exact hscreens hc
  | back | write => simp [closings] at hc
  | terminate reason flowCompleted =>
      rw [closings, List.mem_singleton] at hc
      rw [hc]
      exact hd reason flowCompleted rfl

namespace Signal

theorem promptOf_textual {j : Journey} (h : ∀ a ∈ j.agents, ∀ f ∈ a.screenPrompts, f.2.Textual)
    (o : Response) : (promptOf j o).Textual := by
  have hnull : Value.null.Textual := ⟨none, rfl⟩
  unfold promptOf
  split
  · rename_i agent id hagent hid
    split
    · exact hnull
    · obtain ⟨name, -, hname⟩ := Option.bind_eq_some_iff.mp hagent
      cases hf : Fields.find? agent.screenPrompts id with
      | none => rw [Fields.get, hf]; exact hnull
      | some v =>
          obtain ⟨before, after, hprompts, -⟩ := List.lookup_eq_some_iff.mp hf
          rw [Fields.get, hf]
          exact h agent (Journey.agent_mem hname).1 (id, v) (by simp [hprompts])
  · exact hnull

theorem ofResponse_ok {j : Journey} {o : Response} :
    (∃ g, ofResponse j o = .ok g) ↔ o.completionReason.Textual ∧ (promptOf j o).Textual := by
  unfold ofResponse
  cases hr : o.completionReason.toText? with
  | error f =>
      constructor
      · rintro ⟨g, hg⟩
        cases hg
      · rintro ⟨⟨t, ht⟩, -⟩
        rw [hr] at ht
        cases ht
  | ok reason =>
      cases hp : (promptOf j o).toText? with
      | error f =>
          constructor
          · rintro ⟨g, hg⟩
            cases hg
          · rintro ⟨-, t, ht⟩
            rw [hp] at ht
            cases ht
      | ok prompt => exact ⟨fun _ => ⟨⟨reason, hr⟩, prompt, hp⟩, fun _ => ⟨_, rfl⟩⟩

theorem ofResponse_kind {j : Journey} {o : Response} {g : Signal} (h : ofResponse j o = .ok g)
    (ho : o.completed = true) : g.kind = .completed := by
  unfold ofResponse at h
  cases hr : o.completionReason.toText? with
  | error f => rw [hr] at h; cases h
  | ok reason =>
      cases hp : (promptOf j o).toText? with
      | error f => rw [hr, hp] at h; cases h
      | ok prompt =>
          rw [hr, hp] at h
          cases h
          simp [kindOf, ho]

end Signal

namespace Session

variable {ε : Type} (u : Setup) {r₀ : Run} {s : Session ε}

theorem Traced.textual (h : Traced u r₀ s) (hr₀ : r₀.completionReason.Textual)
    (hreasons : ∀ e ∈ s.taken, ∀ reason flowCompleted,
      e.1.request.demand = .terminate reason flowCompleted → reason.Textual) (place : Nat) :
    (s.runAt place).completionReason.Textual := by
  induction place with
  | zero =>
      rw [h.runAt_zero]
      exact hr₀
  | succ place ih =>
      rcases h.completion u place with he | ⟨q, o, htaken, -, -, c, hc, hclosed, -⟩
      · rw [Run.completionReason, he]
        exact ih
      · rw [Run.completionReason, hclosed]
        exact Demand.closings_textual (hreasons _ (List.mem_of_getElem? htaken)) hc

theorem Traced.response_completion (h : Traced u r₀ s) {ls : List Listener} (ho : InOrder u ls s)
    {place : Nat} {c : ε} {o : Response} (hf : s.finished[place]? = some (c, .ok o)) :
    o.completion = (s.runAt (place + 1)).completion := by
  obtain ⟨e, htaken, -⟩ := ho.own u hf
  rcases h.at u htaken with ⟨t, o', hf', hw, hr⟩ | ⟨t, c', k, hf', -, -⟩
  · obtain rfl : o' = .ok o := congrArg Prod.snd (Option.some.inj (hf'.symm.trans hf))
    obtain ⟨_, _, _, _, htells⟩ := Request.tells u.rules hw
    rw [htells, ← hr]
    rfl
  · simp [hf'] at hf

theorem mem_responses {o : Response} :
    o ∈ s.responses ↔ ∃ (place : Nat) (c : ε), s.finished[place]? = some (c, .ok o) := by
  rw [responses, List.mem_filterMap]
  constructor
  · rintro ⟨⟨c, o'⟩, hmem, ho⟩
    obtain ⟨place, hplace⟩ := List.mem_iff_getElem?.mp hmem
    cases o' with
    | error f => cases ho
    | ok o' =>
        cases ho
        exact ⟨place, c, hplace⟩
  · rintro ⟨place, c, hf⟩
    exact ⟨_, List.mem_of_getElem? hf, rfl⟩

end Session

def Demand.reason? : Demand → Option Value
  | .terminate reason _ => some reason
  | _ => none

def Tour.farewell (reason : Value) : List Deed := [
  .call 0 (.demand .start),
  .call 1 (.tool "end_call" (.obj [("reason", reason)])),
  .goOn 1]

def Signal.listener (reaction : Except Fault Unit) : Listener Signal := { react := fun _ _ => reaction }

namespace Desk

variable (u : Setup)

def withSignals (r : Run) (ls : List Listener) (gs : List (Listener Signal)) : Desk :=
  { session := { run := r, listeners := ls, signalListeners := gs } }

theorem play_told (r : Run) (ls : List Listener) (gs : List (Listener Signal)) (ms : List Deed) :
    let s := ((withSignals r ls gs).play u ms).session
    (Session.Traced u r s ∧ Session.Told r.journey gs s) ∧ Session.InOrder u ls s :=
  play_keeps u (P := fun s => (Session.Traced u r s ∧ Session.Told r.journey gs s) ∧
      Session.InOrder u ls s)
    (fun _ as h => ⟨⟨h.1.1.noted as, h.1.2.journey, h.1.2.signals, h.1.2.listeners⟩, h.2.noted u as⟩)
    (fun _ i _ h => ⟨(Session.told_followed u r gs).apply h.1 h.2 i, (h.2.apply u i).1⟩) _ ms
    ⟨⟨.through .nil rfl, rfl, rfl, by simp [withSignals]⟩,
      .idle ⟨⟨[], rfl, .nil⟩, rfl, by simp [withSignals, Session.responses]⟩ rfl rfl rfl⟩

theorem forall₂_filterMap {α β : Type} {f : α → Except Fault β} {as : List α}
    (h : ∀ a ∈ as, ∃ b, f a = .ok b) :
    List.Forall₂ (fun a b => f a = .ok b) as (as.filterMap fun a => (f a).toOption) := by
  induction as with
  | nil => exact .nil
  | cons a as ih =>
      rw [List.forall_mem_cons] at h
      obtain ⟨b, hb⟩ := h.1
      rw [List.filterMap_cons_some (by rw [hb]; rfl)]
      exact .cons hb (ih h.2)

/-- Every listener on the assistant's side is told of the responses that can be put into signals, once
each and in order, whatever listeners make of it. If the prompts of the screens are texts, and so are
the reasons that the run is terminated for, those are all responses, and the request that completes the
run is told of as a completion. -/
theorem play_signals (r : Run) (ls : List Listener) (gs : List (Listener Signal)) (ms : List Deed) :
    let s := ((withSignals r ls gs).play u ms).session
    s.signals = s.responses.filterMap (fun o => (Signal.ofResponse r.journey o).toOption) ∧
    s.signalListeners = gs.map (fun l => { l with heard := l.heard ++ s.signals }) ∧
    ((∀ a ∈ r.journey.agents, ∀ f ∈ a.screenPrompts, f.2.Textual) → r.completionReason.Textual →
      (∀ e ∈ s.taken, ∀ reason flowCompleted,
        e.1.request.demand = .terminate reason flowCompleted → reason.Textual) →
      List.Forall₂ (fun o g => Signal.ofResponse r.journey o = .ok g) s.responses s.signals ∧
      ∀ place, (s.runAt place).completed = false → (s.runAt (place + 1)).completed = true →
        ∃ c o, s.finished[place]? = some (c, .ok o) ∧
          ∃ g ∈ s.signals, Signal.ofResponse r.journey o = .ok g ∧ g.kind = .completed) := by
  intro s
  obtain ⟨⟨htraced, htold⟩, hinOrder⟩ := play_told u r ls gs ms
  refine ⟨htold.signals, htold.listeners, fun hprompts hr hreasons => ?_⟩
  have hall : ∀ o ∈ s.responses, ∃ g, Signal.ofResponse r.journey o = .ok g := by
    intro o ho
    obtain ⟨place, c, hf⟩ := Session.mem_responses.mp ho
    refine Signal.ofResponse_ok.mpr ⟨?_, Signal.promptOf_textual hprompts o⟩
    rw [Response.completionReason, htraced.response_completion u hinOrder hf]
    exact htraced.textual u hr hreasons (place + 1)
  refine ⟨?_, fun place hopen hover => ?_⟩
  · rw [htold.signals]
    exact forall₂_filterMap hall
  · rcases htraced.completion u place with he | ⟨q, o, -, hf, -, c, -, hclosed, -⟩
    · rw [Run.completed, he, ← Run.completed, hopen] at hover
      cases hover
    · have ho := Session.mem_responses.mpr ⟨place, q.caller, hf⟩
      obtain ⟨g, hg⟩ := hall o ho
      have hcompleted : o.completed = true := by
        rw [Response.completed, htraced.response_completion u hinOrder hf, hclosed]
        rfl
      refine ⟨q.caller, o, hf, g, ?_, hg, Signal.ofResponse_kind hg hcompleted⟩
      rw [htold.signals]
      exact List.mem_filterMap.mpr ⟨o, ho, by rw [hg]; rfl⟩

theorem play_signals_tour :
    let gs := [Signal.listener (.error .wrongKind), Signal.listener (.ok ())]
    let s := ((withSignals Tour.run [] gs).play Tour.setup (Tour.farewell (.str "done"))).session
    s.responses.length = 3 ∧ s.signals.length = 3 ∧
      s.signalListeners = gs.map (fun l => { l with heard := l.heard ++ s.signals }) ∧
      ∃ g ∈ s.signals, g.kind = .completed := by
  intro gs s
  obtain ⟨-, htold, hall⟩ := play_signals Tour.setup Tour.run [] gs (Tour.farewell (.str "done"))
  have htexts : s.taken.all (·.1.request.demand.reason?.all (·.asText?.isSome)) = true := by
    decide +kernel
  have hreasons : ∀ e ∈ s.taken, ∀ reason flowCompleted,
      e.1.request.demand = .terminate reason flowCompleted → reason.Textual := by
    intro e he reason flowCompleted hd
    have htext := List.all_eq_true.mp htexts e he
    simp only [hd, Demand.reason?, Option.all_some] at htext
    cases reason with
    | str t => exact ⟨some t, rfl⟩
    | _ => simp [Value.asText?] at htext
  obtain ⟨heach, hcompleted⟩ :=
    hall (by simp [Tour.run, Tour.journey, Tour.guide]) ⟨none, rfl⟩ hreasons
  have hlength : s.responses.length = 3 := by decide +kernel
  obtain ⟨c, o, -, g, hg, -, hkind⟩ := hcompleted 2 (by decide +kernel) (by decide +kernel)
  exact ⟨hlength, heach.length_eq.symm.trans hlength, htold, g, hg, hkind⟩

/-- A reason that is no text keeps the completion of the run from those who listen to signals. -/
theorem signal_lost : ¬ ∀ (u : Setup) (r : Run) (ls : List Listener) (gs : List (Listener Signal))
    (ms : List Deed),
    let s := ((withSignals r ls gs).play u ms).session
    r.completed = false → s.run.completed = true → s.suspended = none →
      ∀ l ∈ s.signalListeners, ∃ g ∈ l.heard, g.kind = .completed := by
  intro h
  have hlost := h Tour.setup Tour.run [] [Signal.listener (.ok ())] (Tour.farewell (.int 5)) rfl
    (by decide +kernel) (Option.isNone_iff_eq_none.mp (by decide +kernel)) _ (List.mem_singleton.mpr rfl)
  revert hlost
  decide +kernel

end Desk

end GuidedJourney
