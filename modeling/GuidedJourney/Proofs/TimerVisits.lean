import GuidedJourney.Proofs.DataFaults
import GuidedJourney.Proofs.TimerRequests
import GuidedJourney.Proofs.ValidJourney

namespace GuidedJourney

namespace Turn

theorem moveTo_released (s : Screen) (t : Turn) :
    (t.moveTo s).released = t.released ∨
      (t.moveTo s).released = t.released ++ [.ofScreen t.run.screenId] := by
  unfold moveTo
  dsimp only
  split
  · exact .inl (List.append_nil _)
  · exact .inr rfl

theorem handTo_released (a : Agent) (t : Turn) (ts : List Timer) :
    (t.handTo a).released.foldl Release.apply ts = [] := by
  rw [handTo, List.foldl_append]
  rfl

end Turn

/-- The pending timers of a run belong to its current visit. -/
structure Timely (r : Run) (ts : List Timer) : Prop where
  agents : ∀ a ∈ r.journey.agents, ∀ s ∈ a.screens, s.id ≠ ""
  screen : r.screenId ≠ some ""
  stack : ∀ id ∈ r.stack, id ≠ ""
  /-- Without a screen there is none to start with. -/
  begun : r.screenId = none → r.agent?.bind (·.screens.head?) = none
  owned : ∀ t ∈ ts, t.visit = r.visit ∧ t.owner = r.screenId
  closed : r.completed = true → ts = []

namespace Timely

variable {r r' : Run} {ts : List Timer}

theorem drop (h : Timely r ts) {ts' : List Timer} (hs : ts'.Sublist ts) : Timely r ts' where
  agents := h.agents
  screen := h.screen
  stack := h.stack
  begun := h.begun
  owned t ht := h.owned t (hs.subset ht)
  closed hc := by simpa [h.closed hc] using hs

theorem first (h : Timely r ts) {s : Screen} (hs : r.agent?.bind (·.screens.head?) = some s) :
    s.id ≠ "" := by
  obtain ⟨a, ha, hs⟩ := Option.bind_eq_some_iff.mp hs
  exact h.agents a (Run.agent_mem ha) s (List.mem_of_head? hs)

theorem named (h : Timely r ts) {id : String} (hn : r.Names id) : id ≠ "" := by
  rcases hn with hn | ⟨a, ha, hn⟩
  · exact hn
  · obtain ⟨s, hs, rfl⟩ := List.mem_map.mp hn
    exact h.agents a (Run.agent_mem ha) s hs

theorem edited (h : Timely r ts) (hjourney : r'.journey = r.journey) (hagent : r'.agentId = r.agentId)
    (hscreen : r'.screenId = r.screenId) (hstack : r'.stack = r.stack) (hvisit : r'.visit = r.visit)
    (hover : r'.completed = r.completed) : Timely r' ts where
  agents := by rw [hjourney]; exact h.agents
  screen := by rw [hscreen]; exact h.screen
  stack := by rw [hstack]; exact h.stack
  begun := by
    have ha : r'.agent? = r.agent? := by rw [Run.agent?, hagent, hjourney, Run.agent?]
    rw [hscreen, ha]
    exact h.begun
  owned := by rw [hvisit, hscreen]; exact h.owned
  closed := by rw [hover]; exact h.closed

theorem arrive (hagents : ∀ a ∈ r.journey.agents, ∀ s ∈ a.screens, s.id ≠ "") {s : Screen}
    (hs : s.id ≠ "") {stack : List String} (hstack : ∀ id ∈ stack, id ≠ "") :
    Timely (r.arrive s stack) [] where
  agents := hagents
  screen := by simpa [Run.arrive] using hs
  stack := hstack
  begun hn := by cases hn
  owned t ht := by cases ht
  closed _ := rfl

theorem none_left (h : Timely r ts) : Release.apply ts (.ofScreen r.screenId) = [] :=
  List.filter_eq_nil_iff.mpr fun t ht => by simp [(h.owned t ht).2]

theorem moveTo {t : Turn} (h : Timely t.run (t.released.foldl Release.apply ts)) {s : Screen}
    (hs : s.id ≠ "") (hon : t.run.screenId ≠ none) :
    Timely (t.moveTo s).run ((t.moveTo s).released.foldl Release.apply ts) := by
  have hne : (t.run.screenId.getD "").isEmpty = false := by
    cases hid : t.run.screenId with
    | none => exact absurd hid hon
    | some id =>
        have hid' : id ≠ "" := fun he => h.screen (by rw [hid, he])
        simpa using hid'
  have hstack : ∀ id ∈ t.run.stack ++ [s.id], id ≠ "" := by
    intro id hid
    rcases List.mem_append.mp hid with hid | hid
    · exact h.stack id hid
    · rw [List.mem_singleton.mp hid]; exact hs
  have hreleased : (t.moveTo s).released.foldl Release.apply ts = [] := by
    rw [Turn.moveTo, hne, List.foldl_append]
    exact h.none_left
  rw [hreleased]
  exact arrive h.agents hs hstack

theorem backTo {t : Turn} (h : Timely t.run (t.released.foldl Release.apply ts)) {s : Screen}
    (hs : Act.previousScreen t.run = .ok s) :
    Timely (t.backTo s).run ((t.backTo s).released.foldl Release.apply ts) := by
  have hreleased : (t.backTo s).released.foldl Release.apply ts = [] := by
    rw [Turn.backTo, List.foldl_append]
    exact h.none_left
  have hmem := Act.previousScreen_mem hs
  rw [hreleased]
  exact arrive h.agents (h.stack _ hmem) fun id hid => h.stack id (List.dropLast_subset _ hid)

theorem moved {t t' : Turn} (h : Timely t.run (t.released.foldl Release.apply ts)) (hm : t.Move t') :
    Timely t'.run (t'.released.foldl Release.apply ts) := by
  cases hm with
  | start s hs =>
      refine h.moveTo (h.first hs) fun hn => ?_
      rw [h.begun hn] at hs
      cases hs
  | navigate s hopen hon hs hn => exact h.moveTo (h.named hn) hon
  | back s hopen hs => exact h.backTo hs
  | handoff id a s hopen ha hs =>
      obtain ⟨hmem, -⟩ := Act.handoffTarget_mem ha
      have hreleased : ((t.handTo a).moveTo s).released.foldl Release.apply ts = [] := by
        rcases Turn.moveTo_released s (t.handTo a) with he | he
        · rw [he, Turn.handTo_released]
        · rw [he, List.foldl_append, Turn.handTo_released]
          rfl
      have hid := h.agents a hmem s (List.mem_of_head? hs)
      have hstack : ∀ id ∈ ([] : List String) ++ [s.id], id ≠ "" := by simpa using hid
      rw [hreleased]
      exact arrive (r := (t.handTo a).run) h.agents hid hstack
  | leave id a hopen ha hs =>
      obtain ⟨hmem, hagent⟩ := Act.handoffTarget_mem ha
      rw [Turn.handTo_released]
      refine ⟨h.agents, fun hn => ?_, fun id hid => ?_, fun _ => ?_, fun t ht => ?_, fun _ => rfl⟩
      · cases hn
      · cases hid
      · change (t.run.journey.agent? a.id).bind _ = none
        rw [hagent]
        exact hs
      · cases ht

end Timely

theorem timely_lasting : Session.Lasting Timely where
  stable t t' ts hc h := by
    rcases hc with he | hm
    · cases he with
      | warn => exact h
      | complete =>
          rw [List.foldl_append]
          refine ⟨h.agents, h.screen, h.stack, h.begun, fun t ht => ?_, fun _ => rfl⟩
          cases ht
      | _ => exact h.edited rfl rfl rfl rfl rfl rfl
    · exact h.moved hm
  arm r ts t h hopen howner hvisit := by
    refine ⟨h.agents, h.screen, h.stack, h.begun, fun t' ht => ?_, fun hc => ?_⟩
    · rcases List.mem_append.mp ht with ht | ht
      · exact h.owned t' ht
      · rw [List.mem_singleton.mp ht]
        exact ⟨hvisit, howner⟩
    · rw [hopen] at hc
      cases hc
  drop r ts ts' hs h := h.drop hs

namespace Act

theorem eventOutcome_stale (rules : Rules) (c : EventCall) {t : Turn}
    (h : c.armed.any (·.visit != t.run.visit) = true) :
    (∃ warnings o, eventOutcome rules c t = .done { t with warnings } o ∧ o.isNoop) ∨
      ∃ f, c.id.legible Value.stackRoom = .error f ∧ eventOutcome rules c t = .failed t f := by
  have he : eventOutcome rules c t = (if t.run.completed = true then pure .ignored
      else if c.armed.any (·.visit != t.run.visit) = true then _ else _ : Act Outcome) t := rfl
  rw [he, if_pos h]
  split
  · exact .inl ⟨t.warnings, .ignored, rfl, rfl⟩
  · cases hwritten : c.id.legible Value.stackRoom with
    | error f => exact .inr ⟨f, rfl, rfl⟩
    | ok => exact .inl ⟨_, .stale, rfl, rfl⟩

theorem processEvent_stale (rules : Rules) (c : EventCall) {t : Turn}
    (h : c.armed.any (·.visit != t.run.visit) = true) :
    (∃ warnings response, processEvent rules c t = .done { t with warnings } response ∧
      response.isNoop) ∨
      ∃ f, c.id.legible Value.stackRoom = .error f ∧ processEvent rules c t = .failed t f := by
  have hp : processEvent rules c t =
      (eventOutcome rules { c with id := c.id.orElse (.str "") } t).bind _ := rfl
  rcases eventOutcome_stale rules { c with id := c.id.orElse (.str "") } h with
    ⟨warnings, o, he, ho⟩ | ⟨f, hf, he⟩
  · rw [he] at hp
    exact .inl ⟨warnings, _, hp, ho⟩
  · rw [he] at hp
    exact .inr ⟨f, Value.legible_named hf, hp⟩

end Act

/-- The request does nothing for a run but, at most, to warn. With an event whose id cannot be written
into the warning it fails instead. -/
def Request.Idle (rules : Rules) (q : Request) (r : Run) : Prop :=
  (∃ warnings response, q.process rules { run := r } = .done { run := r, warnings } response ∧
    response.isNoop) ∨
  ∃ c f, q.demand = .event c ∧ c.id.legible Value.stackRoom = .error f ∧
    q.process rules { run := r } = .failed { run := r } f

/-- An event that was put off does nothing once its visit is over. -/
theorem Timer.request?_stale {t : Timer} {q : Request} (hq : t.request? = some q) (rules : Rules)
    {r : Run} (h : t.visit ≠ r.visit) : q.Idle rules r := by
  unfold Timer.request? at hq
  split at hq
  · cases hq
  · rename_i context _
    cases hq
    rcases Act.processEvent_stale rules { id := t.event, element := t.element, context, armed := some t }
      (t := { run := r }) (by simpa using h) with
      hdone | ⟨f, hf, hfailed⟩
    · exact .inl hdone
    · exact .inr ⟨_, f, rfl, hf, hfailed⟩

namespace Session

variable {ε : Type} (u : Setup)

theorem apply_armed (s : Session ε) (i : Input ε) :
    (s.apply u i).armed = s.armed ∨ ∃ event element context delay,
      i = .schedule event element context delay ∧
      (s.apply u i).armed = s.armed ++ [s.nextTimer event element context delay] := by
  cases i with
  | submit caller q => exact .inl (submit_armed u caller q.direct s)
  | reply r => exact .inl (reply_armed u r s)
  | fire caller timer =>
      rcases fire_cases u caller timer s with ⟨-, ts, -, he⟩ | ⟨t, q, -, -, -, -, he⟩
      · rw [Session.apply, he]
        exact .inl rfl
      · rw [Session.apply, he]
        exact .inl (submit_armed u caller q _)
  | schedule event element context delay =>
      rcases schedule_cases event element context delay s with ⟨-, he⟩ | ⟨-, he⟩
      · rw [Session.apply, he]
        exact .inl rfl
      · rw [Session.apply, he]
        exact .inr ⟨event, element, context, delay, rfl, rfl⟩
  | close => exact .inl rfl

theorem armed_split (s : Session ε) (is : List (Input ε)) {t : Timer}
    (ht : t ∈ (s.play u is).armed) : t ∈ s.armed ∨
      ∃ before event element context delay after,
        is = before ++ .schedule event element context delay :: after ∧
        t = (s.play u before).nextTimer event element context delay := by
  induction is generalizing s with
  | nil => exact .inl ht
  | cons i is ih =>
      rcases ih (s.apply u i) ht with ht | ⟨before, event, element, context, delay, after, rfl, rfl⟩
      · rcases apply_armed u s i with he | ⟨event, element, context, delay, rfl, he⟩
        · exact .inl (he ▸ ht)
        · rw [he] at ht
          rcases List.mem_append.mp ht with ht | ht
          · exact .inl ht
          · exact .inr ⟨[], event, element, context, delay, is, rfl, List.mem_singleton.mp ht⟩
      · exact .inr ⟨i :: before, event, element, context, delay, after, rfl, rfl⟩

/-- What holds of a started session between inputs. -/
structure Started (first : Queued ε × Run) (ls : List Listener) (s : Session ε) : Prop where
  timely : Holds Timely [first] s
  numbered : Numbered s
  inOrder : InOrder u ls s

theorem Started.play {first : Queued ε × Run} {ls : List Listener} {s : Session ε}
    (h : Started u first ls s) (is : List (Input ε)) : Started u first ls (s.play u is) :=
  play_induction u (P := Started u first ls) (fun _ i h =>
    ⟨h.timely.apply u timely_lasting i, h.numbered.apply u h.timely h.inOrder i,
      (h.inOrder.apply u i).1⟩) s is h

theorem started {h : Host} {j : Journey} {globals : List Screen} {state : Fields} {id : String}
    {r : Run} (hr : h.newRun j globals state id = .ok r) (ls : List Listener) (first : ε) :
    Started u (⟨first, ⟨.start, none⟩⟩, r) ls
      (({ run := r, listeners := ls } : Session ε).submit u first ⟨.start, none⟩) := by
  obtain ⟨hvalid, he⟩ := Host.newRun_ok hr
  have hscreens : ∀ a ∈ r.journey.agents, ∀ s ∈ a.screens, s.id ≠ "" := by
    rw [he]
    exact Journey.issues_screens hvalid
  have hfresh : Holds (fun _ _ => True) [] ({ run := r, listeners := ls } : Session ε) :=
    .fresh r ls trivial
  have hnumbered := (Numbered.fresh r ls).apply u hfresh (.fresh u r ls)
    (.submit first ⟨.start, none⟩)
  have hinOrder := ((InOrder.fresh u r ls).submit u first ⟨.start, none⟩).1
  refine ⟨?_, hnumbered, hinOrder⟩
  refine Holds.start u timely_lasting.stable first ls (fun hn => ?_) fun s hs => ?_
  · subst he
    exact ⟨hscreens, nofun, nofun, fun _ => hn, nofun, fun _ => rfl⟩
  · obtain ⟨a, ha, hmem⟩ := Option.bind_eq_some_iff.mp hs
    have hid := hscreens a (Run.agent_mem ha) s (List.mem_of_head? hmem)
    have hstack : ∀ id ∈ r.stack ++ [s.id], id ≠ "" := by
      subst he
      simpa using hid
    exact .arrive hscreens hid hstack

/-- If a timer that a session arms next has its event carried out, the run has remained on the visit
on which it was armed. -/
theorem Numbered.carried_out {s₁ s : Session ε} (h₁ : Numbered s₁) (h : Numbered s)
    (hb : Holds (fun r' _ => s₁.run.Becomes r') s₁.taken s) {t : Timer}
    (hid : t.id = s₁.armed.length) (hvisit : t.visit = s₁.run.visit) {e : Queued ε × Run}
    (he : e ∈ s.taken) (ht : e.1.request.timer? = some t) (rules : Rules) :
    s₁.run.Remains e.2 ∨ e.1.request.Idle rules e.2 := by
  have hown : t.request? = some e.1.request :=
    (h.own e.1 (List.mem_append_left _ (List.mem_map_of_mem he)) t ht).1
  by_cases hstale : t.visit = e.2.visit
  · obtain ⟨rest, htaken, hrest⟩ := hb.taken
    rw [htaken] at he
    rcases List.mem_append.mp he with he | he
    · -- The timer did not exist yet when these were taken up.
      have harmed := (h₁.own e.1 (List.mem_append_left _ (List.mem_map_of_mem he)) t ht).2
      exact absurd hid (Nat.ne_of_lt (h₁.bound t harmed))
    · obtain ⟨_, hbecomes⟩ := hrest e he
      exact .inl (hbecomes.remains (hstale.symm.trans hvisit))
  · exact .inr (Timer.request?_stale hown rules hstale)

/-- However requests, schedules, replies of services and timers that go off follow one another in a
started run: once it is completed no timer is pending; a pending timer belongs to the current screen
and visit; no timer asks for its event twice; and while a timer is pending, and when the event of a
timer is carried out, the run has remained on the visit on which the timer was armed: without a screen
entry, going back or a handoff. -/
theorem play_timers (h : Host) (j : Journey) (globals : List Screen) (state : Fields) (id : String)
    {r : Run} (hr : h.newRun j globals state id = .ok r) (ls : List Listener) (first : ε)
    (is : List (Input ε)) :
    let s₀ := ({ run := r, listeners := ls } : Session ε).submit h.setup first ⟨.start, none⟩
    let s := s₀.play h.setup is
    (s.run.completed → s.timers = []) ∧
    (∀ t ∈ s.timers, t ∈ s.armed ∧ t.visit = s.run.visit ∧ t.owner = s.run.screenId) ∧
    (s.asked.map Timer.id).Nodup ∧ (∀ t ∈ s.asked, t ∈ s.armed) ∧
    ∀ t ∈ s.armed, ∃ before event element context delay after,
      is = before ++ .schedule event element context delay :: after ∧
      t = (s₀.play h.setup before).nextTimer event element context delay ∧
      (t ∈ s.timers → (s₀.play h.setup before).run.Remains s.run) ∧
      ∀ e ∈ s.taken, e.1.request.timer? = some t →
        (s₀.play h.setup before).run.Remains e.2 ∨ e.1.request.Idle h.setup.rules e.2 := by
  intro s₀ s
  have h₀ := started h.setup hr ls first
  have hs : Started h.setup _ ls s := h₀.play h.setup is
  have hnow := hs.timely.now
  refine ⟨hnow.closed, fun t ht => ⟨hs.numbered.pending t ht, hnow.owned t ht⟩, hs.numbered.once,
    hs.numbered.asked_armed, fun t ht => ?_⟩
  have hnone : s₀.armed = [] := submit_armed h.setup first _ _
  rcases armed_split h.setup s₀ is ht with
    ht' | ⟨before, event, element, context, delay, after, hsplit, ht'⟩
  · rw [hnone] at ht'
    cases ht'
  have h₁ := h₀.play h.setup before
  have hplay : s = (s₀.play h.setup before).play h.setup
      (.schedule event element context delay :: after) := by
    rw [← play_append, ← hsplit]
  have hbecomes : Holds (fun r' _ => (s₀.play h.setup before).run.Becomes r')
      (s₀.play h.setup before).taken s := by
    rw [hplay]
    exact (h₁.timely.rebase .refl).play h.setup (becomes_lasting _) _
  have hid : t.id = (s₀.play h.setup before).armed.length := by rw [ht']; rfl
  have hvisit : t.visit = (s₀.play h.setup before).run.visit := by rw [ht']; rfl
  refine ⟨before, event, element, context, delay, after, hsplit, ht', fun hp => ?_,
    fun e he htimer => ?_⟩
  · exact hbecomes.now.remains ((hnow.owned t hp).1.symm.trans hvisit)
  · exact h₁.numbered.carried_out hs.numbered hbecomes hid hvisit he htimer h.setup.rules

theorem play_timers_tour :
    let s := (({ run := Tour.run } : Session Unit).submit {} () ⟨.start, none⟩).play {}
      [.schedule (.str "look") .null .null none]
    s.timers.length = 1 ∧
      ∀ t ∈ s.timers, t ∈ s.armed ∧ t.visit = s.run.visit ∧ t.owner = s.run.screenId :=
  ⟨by decide, (play_timers { setup := {} } Tour.journey [] [] "tour" Tour.newRun_run [] () _).2.1⟩

end Session

end GuidedJourney
