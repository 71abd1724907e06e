import GuidedJourney.Proofs.AnswerOrder
import GuidedJourney.Proofs.RequestEnd

namespace GuidedJourney

namespace Response

def updates (r : Response) : Entries := r.writes.flatMap StateWrite.updates

def answersAmong (settings : BridgeSettings) (r : Response) (updates : Fields) : List Answer :=
  (updates.filter fun u => Answer.isAnswerKey settings u.1).map fun u => {
    runId := r.runId
    key := .str u.1
    value := u.2
    screenId := r.previousScreenId
    elementId := r.elementId
    agentId := r.agentId }

def stateAnswers (settings : BridgeSettings) (r : Response) : List Answer :=
  r.answersAmong settings r.updates.texts

end Response

namespace Answer

theorem ofResponse_eq (settings : BridgeSettings) (r : Response) : ofResponse settings r =
    if r.eventId.asText? = some settings.recordInputTool then []
    else r.answersAmong settings (searched r.updates) := by
  simp only [ofResponse, Response.answersAmong, Response.updates, beq_iff_eq]

theorem searched_text (s : String) (v : Value) (rest : Entries) :
    searched ((.text s, v) :: rest) = (s, v) :: searched rest :=
  rfl

theorem searched_split (updates : Entries) : ∃ rest, updates = .ofFields (searched updates) ++ rest ∧
    ∀ e ∈ rest.head?, e.1.text? = none := by
  induction updates with
  | nil => exact ⟨[], rfl, by simp⟩
  | cons e updates ih =>
      obtain ⟨k | k, v⟩ := e
      · obtain ⟨rest, hrest, hodd⟩ := ih
        exact ⟨rest, congrArg (_ :: ·) hrest, hodd⟩
      · exact ⟨(.odd k, v) :: updates, rfl, by simp [Key.text?]⟩

end Answer

theorem Setup.forwards_ok {u : Setup} (hrecording : u.recording = true) {o : Response}
    (ho : o.eventId.asText? ≠ some u.bridge.recordInputTool) :
    u.forwards (.ok o) = o.answersAmong u.bridge (Answer.searched o.updates) := by
  simp [forwards, hrecording, Answer.ofResponse_eq, ho]

theorem Setup.forwards_recordInput {u : Setup} {o : Response}
    (ho : o.eventId.asText? = some u.bridge.recordInputTool) : u.forwards (.ok o) = [] := by
  simp [forwards, Answer.ofResponse_eq, ho]

theorem Act.processWrite_over (label : Value) (ws : List StateWrite) {t : Turn}
    (hover : t.run.completed = true) : processWrite label ws t =
      .done t { t.response t.run .ignored with eventId := label } := by
  change (if t.run.completed = true then _ else _ : Act Response) t = _
  rw [if_pos hover]
  rfl

theorem Request.write_tells (rules : Rules) {q : Request} {r : Run} {label : Value}
    {ws : List StateWrite} (hq : q.demand = .write label ws) {t : Turn} {o : Response}
    (h : (q.process rules { run := r }).Reaches (.done t o)) :
    o.eventId = label ∧ (o.outcome = .applied ∨ o.outcome = .ignored) := by
  cases hover : r.completed with
  | false =>
      have hends := ends rules hover h
      rw [hq] at hends
      cases hends
      exact ⟨rfl, .inl rfl⟩
  | true =>
      rw [q.process_apply, Run.counted_over hover, hq] at h
      change (Act.processWrite label ws { run := r }).Reaches _ at h
      rw [Act.processWrite_over label ws hover] at h
      cases h
      exact ⟨rfl, .inr rfl⟩

namespace Tour

def namesake : Run := { run with journey := { journey with agents := [{ guide with screens := [{ hall with
  events := [event "record_input" [.update [] .module [("answer_pace", .str "fast")]]] }] }] } }

end Tour

namespace Desk

variable (u : Setup)

/-- The answers that have been recorded of the request at a place, in order. -/
def recordsOf (d : Desk) (place : Nat) : List Answer :=
  (d.records.filter (·.1 = place)).map Prod.snd

/-- What the request at a place has led to: what is forwarded of it, then what its caller has
recorded on going on. -/
def Grouped (d : Desk) : Prop :=
  ∀ place, d.recordsOf place = d.session.finished[place]?.elim [] fun e =>
    u.forwards e.2 ++ if place ∈ d.gone then own u e.1 e.2 else []

theorem filter_placed {α : Type} (f : α → List Answer) (l : List α) (n place : Nat) :
    ((((l.zipIdx n).flatMap fun e => (f e.1).map (e.2, ·)).filter (·.1 = place)).map Prod.snd) =
      if n ≤ place then l[place - n]?.elim [] f else [] := by
  induction l generalizing n with
  | nil => simp
  | cons a l ih =>
      have hfirst : (((f a).map (n, ·)).filter (·.1 = place)).map Prod.snd =
          if n = place then f a else [] := by
        by_cases h : n = place
        · simp [h, List.filter_map, Function.comp_def]
        · simp [h, List.filter_map, Function.comp_def]
      rw [List.zipIdx_cons, List.flatMap_cons, List.filter_append, List.map_append, ih, hfirst]
      rcases Nat.lt_trichotomy n place with hlt | rfl | hlt
      · obtain ⟨k, rfl⟩ : ∃ k, place = n + 1 + k := ⟨place - (n + 1), by omega⟩
        have hk : n + 1 + k - n = k + 1 := by omega
        rw [if_neg (Nat.ne_of_lt hlt), if_pos (Nat.le_add_right _ _), if_pos (Nat.le_of_lt hlt),
          List.nil_append, Nat.add_sub_cancel_left, hk, List.getElem?_cons_succ]
      · rw [if_pos rfl, if_neg (Nat.not_succ_le_self n), if_pos (Nat.le_refl n), List.append_nil,
          Nat.sub_self]
        rfl
      · rw [if_neg (Nat.ne_of_gt hlt), if_neg (by omega), if_neg (by omega), List.nil_append]

theorem forwarded_at {s : Session Caller} {old new : List (Caller × Except Fault Response)}
    (h : s.finished = old ++ new) (place : Nat) :
    ((forwarded u s old.length).filter (·.1 = place)).map Prod.snd =
      if old.length ≤ place then s.finished[place]?.elim [] (fun e => u.forwards e.2) else [] := by
  have hnew : s.finished.zipIdx.drop old.length = new.zipIdx old.length := by
    rw [h, List.zipIdx_append, List.drop_left' (List.length_zipIdx), Nat.zero_add]
  rw [forwarded, hnew]
  refine (filter_placed (fun e => u.forwards e.2) new old.length place).trans ?_
  by_cases hle : old.length ≤ place
  · rw [if_pos hle, if_pos hle, h, List.getElem?_append_right hle]
  · rw [if_neg hle, if_neg hle]

theorem said_at {d : Desk} {place : Nat} {e : Caller × Except Fault Response}
    (h : d.waiting? place = some e) :
    ((d.said u (.goOn place)).filter (·.1 = place)).map Prod.snd = own u e.1 e.2 := by
  have hall : (d.said u (.goOn place)).filter (·.1 = place) = d.said u (.goOn place) := by
    refine List.filter_eq_self.mpr fun x hx => decide_eq_true ?_
    exact (Deed.goOn.inj ((mem_said u d _ x).mp hx).1).symm
  rw [hall]
  exact said_answers u h

theorem said_elsewhere {d : Desk} {m : Deed} {place : Nat}
    (h : ¬ (m = .goOn place ∧ ∃ e, d.waiting? place = some e)) :
    ((d.said u m).filter (·.1 = place)).map Prod.snd = [] := by
  have hnone : (d.said u m).filter (·.1 = place) = [] := by
    refine List.filter_eq_nil_iff.mpr fun x hx he => ?_
    obtain ⟨hm, c, o, hw, -⟩ := (mem_said u d m x).mp hx
    obtain rfl : x.1 = place := of_decide_eq_true he
    exact h ⟨hm, _, hw⟩
  rw [hnone, List.map_nil]

theorem Grouped.step {d : Desk} (hw : Written u d) (h : Grouped u d) (m : Deed) :
    Grouped u (d.step u m) := by
  intro place
  obtain ⟨new, hfinished, -⟩ := d.step_adds u m
  change (d.step u m).session.finished = d.session.finished ++ new at hfinished
  have hrecords : (d.step u m).recordsOf place = d.recordsOf place ++
      ((d.said u m).filter (·.1 = place)).map Prod.snd ++
      if d.session.finished.length ≤ place then
        (d.step u m).session.finished[place]?.elim [] fun e => u.forwards e.2 else [] := by
    rw [recordsOf, step_records, List.filter_append, List.filter_append, List.map_append,
      List.map_append, forwarded_at u hfinished]
    rfl
  have hgone := mem_step_gone u d m place
  rw [hrecords, h place]
  by_cases hlt : place < d.session.finished.length
  · have hold : d.session.finished[place]? = some d.session.finished[place] :=
      List.getElem?_eq_getElem hlt
    have hnow : (d.step u m).session.finished[place]? = some d.session.finished[place] := by
      rw [hfinished, List.getElem?_append_left hlt, hold]
    rw [if_neg (Nat.not_le_of_lt hlt), hold, hnow, List.append_nil]
    by_cases hm : m = .goOn place ∧ ∃ e, d.waiting? place = some e
    · have hmem := hgone.mpr (.inr hm)
      obtain ⟨rfl, e, he⟩ := hm
      have hwaits : place ∉ d.gone := by
        intro hplace
        simp [waiting?, hplace] at he
      obtain rfl := Option.some.inj ((waiting?_eq_some he).symm.trans hold)
      simp [said_at u he, hwaits, hmem]
    · have hsame : place ∈ (d.step u m).gone ↔ place ∈ d.gone := by rw [hgone, or_iff_left hm]
      simp [said_elsewhere u hm, hsame]
  · have hnone : d.session.finished[place]? = none := List.getElem?_eq_none (Nat.le_of_not_lt hlt)
    have hm : ¬ (m = .goOn place ∧ ∃ e, d.waiting? place = some e) := by
      rintro ⟨-, e, he⟩
      exact hlt (waiting?_lt he)
    have hplace : place ∉ (d.step u m).gone := by
      rw [hgone]
      rintro (hplace | hplace)
      · exact hlt (hw.gone place hplace)
      · exact hm hplace
    simp [said_elsewhere u hm, hplace, Nat.le_of_not_lt hlt]

theorem play_grouped (r : Run) (ls : List Listener) (ms : List Deed) :
    Grouped u ((fresh r ls).play u ms) := by
  have hsteps : ∀ (d : Desk) (ms : List Deed), Written u d → Grouped u d → Grouped u (d.play u ms) := by
    intro d ms hw h
    induction ms generalizing d with
    | nil => exact h
    | cons m ms ih => exact ih _ (hw.step u m) (h.step u hw m)
  exact hsteps _ ms (.fresh u r ls) fun _ => rfl

theorem play_append (d : Desk) (before after : List Deed) :
    d.play u (before ++ after) = (d.play u before).play u after := by
  induction before generalizing d with
  | nil => rfl
  | cons m before ih => exact ih _

theorem play_suits {ls : List Listener} {d : Desk} (h : Session.Attended u ls d.session)
    (ms : List Deed) : ∃ new, (d.play u ms).session.requests = d.session.requests ++ new ∧
      ∀ q ∈ new, q.caller.errand.Suits u q.request.demand := by
  induction ms generalizing d with
  | nil => exact ⟨[], (List.append_nil _).symm, by simp⟩
  | cons m ms ih =>
      obtain ⟨first, hfirst, -, hasked⟩ := step_requests u h m
      obtain ⟨rest, hrest, hsuits⟩ := ih (play_attended u d [m] h)
      refine ⟨first ++ rest, ?_, fun q hq => ?_⟩
      · exact hrest.trans (by rw [play, play, hfirst, List.append_assoc])
      · rcases List.mem_append.mp hq with hq | hq
        · exact (hasked q hq).2
        · exact hsuits q hq

theorem answered {r : Run} {ls : List Listener} {ms : List Deed} {place : Nat} {c : Caller}
    {o : Response} (h : ((fresh r ls).play u ms).session.finished[place]? = some (c, .ok o)) :
    ∃ q r', ((fresh r ls).play u ms).session.requests[place]? = some q ∧ q.caller = c ∧ ∃ t,
      (q.request.process u.rules { run := r' }).Reaches (.done t o) := by
  have hattended := play_attended u (fresh r ls) ms (Session.Attended.fresh u r ls)
  obtain ⟨e, htaken, hcaller, -⟩ := hattended.inOrder.own u h
  rcases (play_traced u r ls ms).at u htaken with ⟨t, o', hf, hw, -⟩ | ⟨t, c', k, hf, -, -⟩
  · obtain rfl : o' = .ok o := congrArg Prod.snd (Option.some.inj (hf.symm.trans h))
    refine ⟨e.1, e.2, ?_, hcaller.symm, t, hw⟩
    have hlt := (List.getElem?_eq_some_iff.mp htaken).1
    rw [Session.requests, List.getElem?_append_left (by simpa using hlt), List.getElem?_map, htaken]
    rfl
  · simp [hf] at h

theorem begin_recordInput {d : Desk} {ls : List Listener} (h : Session.Attended u ls d.session)
    (htools : u.bridge.recordInputTool ≠ u.bridge.triggerEventTool) {ticket : Nat} {args : Value}
    {fields : Fields} (hargs : args.toFields = .ok fields) {writes : List StateWrite}
    (hwrites : (RecordedInput.ofFields fields).writes u.timestamp = .ok writes) :
    ∃ tally, (d.step u (.call ticket (.tool u.bridge.recordInputTool args))).session.requests =
      d.session.requests ++ [⟨⟨ticket, .record (.ofFields fields)⟩,
        ⟨.write (.str u.bridge.recordInputTool) writes, tally⟩⟩] := by
  let tally := if u.bridge.trackToolCalls then some u.bridge.recordInputTool else none
  have hcall : d.session.callTool u ticket u.bridge.recordInputTool args =
      d.session.ask u ticket (.record (.ofFields fields))
        ⟨.write (.str u.bridge.recordInputTool) writes, tally⟩ := by
    simp only [Session.callTool, hargs, if_neg htools, if_true, Session.recordInput, hwrites, tally]
  have hstep : (d.step u (.call ticket (.tool u.bridge.recordInputTool args))).session =
      d.session.submit u ⟨ticket, .record (.ofFields fields)⟩
        ⟨.write (.str u.bridge.recordInputTool) writes, tally⟩ := congrArg Prod.fst hcall
  rw [hstep]
  exact ⟨tally, (h.inOrder.submit u _ _).2⟩

theorem requests_recordInput {r : Run} {ls : List Listener}
    (htools : u.bridge.recordInputTool ≠ u.bridge.triggerEventTool) (before after : List Deed)
    (ticket : Nat) {args : Value} {fields : Fields} (hargs : args.toFields = .ok fields)
    {writes : List StateWrite}
    (hwrites : (RecordedInput.ofFields fields).writes u.timestamp = .ok writes) :
    ∃ tally, ((fresh r ls).play u (before ++
      .call ticket (.tool u.bridge.recordInputTool args) :: after)).session.requests[
        ((fresh r ls).play u before).session.requests.length]? =
      some ⟨⟨ticket, .record (.ofFields fields)⟩,
        ⟨.write (.str u.bridge.recordInputTool) writes, tally⟩⟩ := by
  have hbefore := play_attended u (fresh r ls) before (Session.Attended.fresh u r ls)
  obtain ⟨tally, hstep⟩ := begin_recordInput u hbefore htools hargs hwrites
  obtain ⟨new, hnew, -⟩ := play_suits u
    (play_attended u _ [.call ticket (.tool u.bridge.recordInputTool args)] hbefore) after
  refine ⟨tally, ?_⟩
  rw [play_append]
  refine (congrArg (fun qs => qs[_]?) (hnew.trans (congrArg (· ++ new) hstep))).trans ?_
  rw [List.append_assoc, List.getElem?_append_right (Nat.le_refl _), Nat.sub_self]
  rfl

theorem own_unlabelled {q : Queued Caller} (hq : q.caller.errand.Suits u q.request.demand) {r : Run}
    {t : Turn} {o : Response} (hw : (q.request.process u.rules { run := r }).Reaches (.done t o))
    (ho : o.eventId.asText? ≠ some u.bridge.recordInputTool) : own u q.caller (.ok o) = [] := by
  rcases hcaller : q.caller with ⟨ticket, errand⟩
  rw [hcaller] at hq
  cases errand with
  | record input =>
      obtain ⟨writes, hdemand⟩ := hq
      rw [(Request.write_tells u.rules hdemand hw).1] at ho
      exact absurd rfl ho
  | _ => rfl

/-- The recorder gets what the requests have led to, and nothing else. Of a request that has come to a
response it gets the answers among its writes, once each and in their order, unless the event goes by
the name of the tool that records input; a key that is no text breaks this off, and the answers written
behind it are lost. Of a call of that tool it gets the caller's own answer when the caller goes on,
unless the run was over. -/
theorem play_answer_records (hrecording : u.recording = true)
    (htools : u.bridge.recordInputTool ≠ u.bridge.triggerEventTool) (r : Run) (ls : List Listener)
    (ms : List Deed) :
    let d := (fresh r ls).play u ms
    d.records.map Prod.snd = d.session.answers ∧
    (∀ place c o, d.session.finished[place]? = some (c, .ok o) →
      o.eventId.asText? ≠ some u.bridge.recordInputTool →
      ∃ first rest, o.updates = .ofFields first ++ rest ∧ (∀ e ∈ rest.head?, e.1.text? = none) ∧
        d.recordsOf place = o.answersAmong u.bridge first) ∧
    ∀ before ticket args fields writes after,
      ms = before ++ .call ticket (.tool u.bridge.recordInputTool args) :: after →
      args.toFields = .ok fields → (RecordedInput.ofFields fields).writes u.timestamp = .ok writes →
      ∀ c o, let place := ((fresh r ls).play u before).session.requests.length
        d.session.finished[place]? = some (c, .ok o) →
        d.recordsOf place = if place ∈ d.gone ∧ o.outcome ≠ .ignored then
          [(RecordedInput.ofFields fields).answer u.bridge o] else [] := by
  intro d
  have hgrouped : Grouped u d := play_grouped u r ls ms
  refine ⟨(Written.play u (.fresh u r ls) ms).answers, fun place c o hf ho => ?_, ?_⟩
  · have hfresh : Session.Attended u ls (fresh r ls).session := .fresh u r ls
    obtain ⟨new, hnew, hsuits⟩ := play_suits u hfresh ms
    obtain ⟨q, r', hq, rfl, t, hw⟩ := answered u hf
    have hmem : q ∈ (fresh r ls).session.requests ++ new := hnew ▸ List.mem_of_getElem? hq
    have hown : own u q.caller (.ok o) = [] := own_unlabelled u (hsuits q hmem) hw ho
    obtain ⟨rest, hrest, hodd⟩ := Answer.searched_split o.updates
    refine ⟨_, rest, hrest, hodd, ?_⟩
    rw [hgrouped place, hf, Option.elim_some, hown, Setup.forwards_ok hrecording ho]
    simp
  · intro before ticket args fields writes after hms hargs hwrites c o place hf
    subst hms
    obtain ⟨tally, hasked⟩ := requests_recordInput u (r := r) htools before after ticket hargs hwrites
    obtain ⟨q, r', hq, rfl, t, hw⟩ := answered u hf
    obtain rfl := Option.some.inj (hq.symm.trans hasked)
    obtain ⟨hid, houtcome⟩ := Request.write_tells u.rules rfl hw
    have hforwards : u.forwards (.ok o) = [] := Setup.forwards_recordInput (by rw [hid]; rfl)
    rw [hgrouped place, hf, Option.elim_some, hforwards, List.nil_append]
    by_cases hgone : place ∈ d.gone
    · rcases houtcome with ho | ho
      · simp [hgone, own, hrecording, Response.isNoop, Outcome.isNoop, ho]
      · simp [own, Response.isNoop, Outcome.isNoop, ho]
    · simp [hgone]

theorem play_answer_records_tour :
    let d := (fresh Tour.run []).play Tour.setup Tour.change
    (∃ c o, d.session.finished[1]? = some (c, .ok o) ∧
      d.recordsOf 1 = [(RecordedInput.ofFields (Tour.pace "slow")).answer Tour.setup.bridge o]) ∧
    ∃ c o, d.session.finished[2]? = some (c, .ok o) ∧ (o.stateAnswers Tour.setup.bridge).length = 1 ∧
      ∃ first rest, o.updates = .ofFields first ++ rest ∧ (∀ e ∈ rest.head?, e.1.text? = none) ∧
        d.recordsOf 2 = o.answersAmong Tour.setup.bridge first := by
  obtain ⟨-, hstate, hinput⟩ :=
    play_answer_records Tour.setup rfl (by decide) Tour.run [] Tour.change
  refine ⟨⟨_, _, rfl, ?_⟩, ⟨_, _, rfl, rfl, hstate 2 _ _ rfl (by decide)⟩⟩
  exact hinput [.call 0 (.demand .start)] 1 (.obj (Tour.pace "slow")) (Tour.pace "slow") _
    [.goOn 1, Tour.ask "hurry" 2] rfl rfl rfl _ _ rfl

/-- An event of the user's by the name of the tool writes an answer that is not forwarded. -/
theorem answers_unforwarded : ¬ ∀ (u : Setup) (r : Run) (ls : List Listener) (ms : List Deed)
    (place : Nat) (c : Caller) (o : Response), u.recording = true → c.errand = .none →
    ((fresh r ls).play u ms).session.finished[place]? = some (c, .ok o) →
    ((fresh r ls).play u ms).recordsOf place = o.stateAnswers u.bridge := by
  intro h
  have hlost := h Tour.setup Tour.namesake [] [.call 0 (.demand .start), Tour.ask "record_input" 1] 1
    ⟨1, .none⟩ _ rfl rfl rfl
  have hlength := congrArg List.length hlost
  revert hlength
  decide

end Desk

end GuidedJourney
