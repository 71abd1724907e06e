import GuidedJourney.Proofs.AnswerForwarding
import GuidedJourney.Proofs.Firings

namespace GuidedJourney

namespace Turn

/-- The run is on the visit that the turn `t` is on, or on a screen that `t'` has entered. -/
def Visited (t t' : Turn) (r : Run) : Prop :=
  (r.visit = t.run.visit ∧ r.screenId = t.run.screenId) ∨ ∃ id ∈ t'.entered, r.screenId = some id

/-- What the events that have fired from one turn to another have written, and where they were then. -/
structure Leads (t : Turn) (fs : List Firing) (t' : Turn) : Prop where
  writes : t'.writes = t.writes ++ fs.flatMap (·.writes)
  entered : t.entered ⊆ t'.entered
  agentId : t'.run.agentId = t.run.agentId
  agents : ∀ f ∈ fs, f.run.agentId = t.run.agentId
  visited : t.Visited t' t'.run
  visits : ∀ f ∈ fs, t.Visited t' f.run

/-- The commits hold all that has been written from `t` on, under the agent of `t'`, and on the visit of
`t` or on screens that `t'` has entered. -/
structure Covers (t t' : Turn) (cs : List Commit) : Prop where
  writes : t'.writes = t.writes ++ cs.flatMap (·.writes)
  agents : ∀ c ∈ cs, c.run.agentId = t'.run.agentId
  visits : ∀ c ∈ cs, t.Visited t' c.run

theorem Visited.trans {t t₁ t' : Turn} {r : Run} (h : t₁.Visited t' r) (hfirst : t.Visited t₁ t₁.run)
    (hentered : t₁.entered ⊆ t'.entered) : t.Visited t' r := by
  rcases h with ⟨hvisit, hscreen⟩ | h
  · -- The run has stayed where `t₁` is, so what is known of `t₁` holds of it.
    rw [Visited, hvisit, hscreen]
    exact hfirst.imp_right fun ⟨id, hid, hs⟩ => ⟨id, hentered hid, hs⟩
  · exact .inr h

namespace Leads

variable {t t₁ t' : Turn} {fs fs' : List Firing}

theorem idle (hwrites : t'.writes = t.writes) (hentered : t.entered ⊆ t'.entered)
    (hagent : t'.run.agentId = t.run.agentId) (hvisited : t.Visited t' t'.run) : t.Leads [] t' :=
  ⟨by rw [hwrites, List.flatMap_nil, List.append_nil], hentered, hagent, List.forall_mem_nil _, hvisited,
    List.forall_mem_nil _⟩

theorem given {element : Value} (h : t.Given element t') : t.Leads [] t' := by
  obtain ⟨interactions, warnings, -, rfl⟩ := h
  exact .idle rfl (List.Subset.refl _) rfl (.inl ⟨rfl, rfl⟩)

theorem covers {t₀ : Turn} (h : t₀.Leads fs t') (hwrites : t₀.writes = t.writes)
    (hvisit : t₀.run.visit = t.run.visit) (hscreen : t₀.run.screenId = t.run.screenId) :
    t.Covers t' (fs.map Firing.toCommit) where
  writes := by rw [List.flatMap_map, ← hwrites, h.writes]
  agents c hc := by
    obtain ⟨f, hf, rfl⟩ := List.mem_map.mp hc
    exact (h.agents f hf).trans h.agentId.symm
  visits c hc := by
    obtain ⟨f, hf, rfl⟩ := List.mem_map.mp hc
    rw [Visited, ← hvisit, ← hscreen]
    exact h.visits f hf

theorem trans (h : t.Leads fs t₁) (h' : t₁.Leads fs' t') : t.Leads (fs ++ fs') t' where
  writes := by rw [h'.writes, h.writes, List.flatMap_append, List.append_assoc]
  entered := List.Subset.trans h.entered h'.entered
  agentId := h'.agentId.trans h.agentId
  agents f hf := by
    rcases List.mem_append.mp hf with hf | hf
    · exact h.agents f hf
    · exact (h'.agents f hf).trans h.agentId
  visited := h'.visited.trans h.visited h'.entered
  visits f hf := by
    rcases List.mem_append.mp hf with hf | hf
    · exact (h.visits f hf).imp_right fun ⟨id, hid, hs⟩ => ⟨id, h'.entered hid, hs⟩
    · exact (h'.visits f hf).trans h.visited h'.entered

theorem fire {f : Firing} (h : f.Leaves t t') : t.Leads [f] t' := by
  obtain ⟨store, hrun⟩ := h.kept
  refine ⟨?_, ?_, ?_, ?_, .inl ?_, ?_⟩
  · rw [h.writes, List.flatMap_singleton]
  · rw [h.entered]
    exact List.Subset.refl _
  · rw [hrun]
    rfl
  · rw [List.forall_mem_singleton, h.found]
  · rw [hrun]
    exact ⟨rfl, rfl⟩
  · rw [List.forall_mem_singleton, h.found]
    exact .inl ⟨rfl, rfl⟩

end Leads

theorem leads_composes : Composes Leads where
  refl _ := .idle rfl (List.Subset.refl _) rfl (.inl ⟨rfl, rfl⟩)
  trans h h' := h.trans h'
  warn _ _ := .idle rfl (List.Subset.refl _) rfl (.inl ⟨rfl, rfl⟩)
  move s _ := .idle rfl (List.subset_append_left _ _) rfl
    (.inr ⟨s.id, List.mem_append_right _ List.mem_cons_self, rfl⟩)
  close _ _ := .idle rfl (List.Subset.refl _) rfl (.inl ⟨rfl, rfl⟩)
  fire h := .fire h

theorem writeAll_writes (t : Turn) (ws : List StateWrite) :
    (t.writeAll ws).writes = t.writes ++ ws.filter (!·.updates.isEmpty) := by
  induction ws generalizing t with
  | nil => exact (List.append_nil _).symm
  | cons w ws ih =>
      change ((t.write w).writeAll ws).writes = _
      rw [ih]
      cases hw : w.updates.isEmpty with
      | true => simp [write, hw]
      | false => simp [write, hw]

end Turn

/-- What a demand commits: the writes that it asks for itself, or those of the events that it makes
fire. -/
def Demand.commits (d : Demand) (t : Turn) (fs : List Firing) : List Commit :=
  match d with
  | .write _ ws => if t.run.completed then [] else [⟨t.run, ws.filter (!·.updates.isEmpty)⟩]
  | _ => fs.map Firing.toCommit

theorem Demand.Fires.covers {rules : Rules} {d : Demand} {t t' : Turn} {fs : List Firing}
    (h : d.Fires rules t fs t') : t.Covers t' (d.commits t fs) := by
  have hcomposes := Turn.leads_composes
  cases h with
  | ignored hd hover =>
      have hnone : d.commits t [] = [] := by
        cases d with
        | write label ws => exact if_pos hover
        | _ => rfl
      rw [hnone]
      exact (hcomposes.refl t).covers rfl rfl rfl
  | unstarted hs => exact (hcomposes.refl t).covers rfl rfl rfl
  | started hs h => exact (hcomposes.visits h).covers rfl rfl rfl
  | @refused c outcome _ hopen h ho =>
      have hreaches : (Act.eventOutcome rules c.named t).Reaches (.done t' outcome) := h ▸ .refl _
      have hgiven := (Act.eventOutcome_refused rules hreaches ho).2
      exact (Turn.Leads.given hgiven).covers rfl rfl rfl
  | applied hoffered hmet h =>
      have hcarries := hcomposes.carriesOut hcomposes.visits h
      exact ((Turn.Leads.given hoffered.given).trans hcarries).covers rfl rfl rfl
  | unreached hopen ha message => exact (hcomposes.warn message t).covers rfl rfl rfl
  | @left id a hopen ha hs =>
      exact ⟨(List.append_nil _).symm, List.forall_mem_nil _, List.forall_mem_nil _⟩
  | handed hopen ha hs h => exact (hcomposes.visits h).covers rfl rfl rfl
  | quiet hopen hd h =>
      cases h with
      | stayed message hs => exact (hcomposes.warn message t).covers rfl rfl rfl
      | back s hs => exact ⟨(List.append_nil _).symm, List.forall_mem_nil _, List.forall_mem_nil _⟩
      | wrote label ws =>
          have hone : (Demand.write label ws).commits t [] =
              [⟨t.run, ws.filter (!·.updates.isEmpty)⟩] :=
            if_neg (by simp [hopen])
          obtain ⟨store, hrun⟩ := (Turn.jots_kept (t.writeAll_jots ws)).1
          rw [hone]
          refine ⟨?_, List.forall_mem_singleton.mpr ?_, List.forall_mem_singleton.mpr (.inl ⟨rfl, rfl⟩)⟩
          · rw [List.flatMap_singleton]
            exact t.writeAll_writes ws
          · rw [hrun]
      | terminated reason flowCompleted => exact (hcomposes.close _ t).covers rfl rfl rfl
      | _ => cases hd

/-- An answer as it was committed, with the run as it was then. -/
structure CommittedAnswer where
  run : Run
  key : String
  value : Value

namespace CommittedAnswer

def record (o : Response) (screenId : Option String) (a : CommittedAnswer) : Answer where
  runId := o.runId
  key := .str a.key
  value := a.value
  screenId
  elementId := o.elementId
  agentId := a.run.agentId

/-- Records under one screen are those under the screen of each answer just if all answers were given on
that screen. -/
theorem map_record_iff (o : Response) (as : List CommittedAnswer) (screenId : Option String) :
    as.map (record o screenId) = as.map (fun a => a.record o a.run.screenId) ↔
      ∀ a ∈ as, a.run.screenId = screenId := by
  induction as with
  | nil => simp
  | cons a as ih =>
      rw [List.map_cons, List.map_cons, List.cons.injEq, ih, List.forall_mem_cons]
      refine and_congr_left fun _ => ⟨fun h => ?_, fun h => by rw [h]⟩
      exact (congrArg Answer.screenId h).symm

end CommittedAnswer

namespace Commit

variable (settings : BridgeSettings)

def updates (cs : List Commit) : List (Run × Key × Value) :=
  cs.flatMap fun c => (c.writes.flatMap StateWrite.updates).map (c.run, ·)

/-- The answers among updates, in order. A key that is no text breaks the search off. -/
def answersIn : List (Run × Key × Value) → List CommittedAnswer
  | (r, .text key, value) :: rest =>
    if Answer.isAnswerKey settings key then ⟨r, key, value⟩ :: answersIn rest else answersIn rest
  | _ => []

def answers (cs : List Commit) : List CommittedAnswer := answersIn settings (updates cs)

variable {settings}

theorem mem_answersIn {us : List (Run × Key × Value)} {a : CommittedAnswer}
    (h : a ∈ answersIn settings us) : (a.run, .text a.key, a.value) ∈ us := by
  induction us with
  | nil => cases h
  | cons u us ih =>
      obtain ⟨r, key | k, value⟩ := u
      · rw [answersIn] at h
        split at h
        · rcases List.mem_cons.mp h with rfl | h
          · exact List.mem_cons_self
          · exact List.mem_cons_of_mem _ (ih h)
        · exact List.mem_cons_of_mem _ (ih h)
      · cases h

theorem mem_answers {cs : List Commit} {a : CommittedAnswer} (h : a ∈ answers settings cs) :
    ∃ c ∈ cs, a.run = c.run := by
  obtain ⟨c, hc, ha⟩ := List.mem_flatMap.mp (mem_answersIn h)
  obtain ⟨_, -, he⟩ := List.mem_map.mp ha
  exact ⟨c, hc, (congrArg Prod.fst he).symm⟩

theorem answersAmong_searched {o : Response} {us : List (Run × Key × Value)}
    (hagents : ∀ u ∈ us, u.1.agentId = o.agentId) :
    o.answersAmong settings (Answer.searched (us.map Prod.snd)) =
      (answersIn settings us).map (CommittedAnswer.record o o.previousScreenId) := by
  induction us with
  | nil => rfl
  | cons u us ih =>
      obtain ⟨r, key | k, value⟩ := u
      · rw [List.forall_mem_cons] at hagents
        have hrest := ih hagents.2
        rw [List.map_cons, Answer.searched_text, answersIn]
        unfold Response.answersAmong at hrest ⊢
        cases hkey : Answer.isAnswerKey settings key with
        | false => rw [List.filter_cons_of_neg (by simp [hkey]), if_neg (by simp), hrest]
        | true =>
            rw [List.filter_cons_of_pos (by simp [hkey]), if_pos rfl, List.map_cons, List.map_cons, hrest,
              CommittedAnswer.record, hagents.1]
      · rfl

theorem updates_snd (cs : List Commit) :
    (updates cs).map Prod.snd = (cs.flatMap (·.writes)).flatMap StateWrite.updates := by
  rw [updates, List.map_flatMap, List.flatMap_assoc]
  exact List.flatMap_congr fun c _ => by simp [Function.comp_def]

theorem forwarded_answers {o : Response} {cs : List Commit}
    (hwrites : o.writes = cs.flatMap (·.writes)) (hagents : ∀ c ∈ cs, c.run.agentId = o.agentId) :
    o.answersAmong settings (Answer.searched o.updates) =
      (answers settings cs).map (CommittedAnswer.record o o.previousScreenId) := by
  have hupdates : o.updates = (updates cs).map Prod.snd := by
    rw [updates_snd, Response.updates, hwrites]
  rw [hupdates]
  refine answersAmong_searched fun u hu => ?_
  obtain ⟨c, hc, hu⟩ := List.mem_flatMap.mp hu
  obtain ⟨_, -, rfl⟩ := List.mem_map.mp hu
  exact hagents c hc

end Commit

namespace Session

variable {ε : Type} (u : Setup)

/-- The request at a place has come to a response, and these are the commits of its demand. -/
inductive Commits (s : Session ε) (place : Nat) : Response → List Commit → Prop
  | mk {q : Queued ε × Run} {fs : List Firing} {t : Turn} {o : Response}
      (htaken : s.taken[place]? = some q) (hfinished : s.finished[place]? = some (q.1.caller, .ok o))
      (hfires : q.1.request.demand.Fires u.rules { run := q.2.counted q.1.request.tally } fs t)
      (htells : o.Of q.2 t) (hrun : t.run = s.runAt (place + 1)) :
      Commits s place o (q.1.request.demand.commits { run := q.2.counted q.1.request.tally } fs)

variable {u} {s : Session ε} {place : Nat} {o : Response} {cs : List Commit}

theorem Traced.commits {r₀ : Run} {ls : List Listener} (h : Traced u r₀ s) (hs : InOrder u ls s)
    {caller : ε} (ho : s.finished[place]? = some (caller, .ok o)) : ∃ cs, Commits u s place o cs := by
  obtain ⟨q, htaken, hcaller, -⟩ := hs.own u ho
  obtain ⟨w, hw, hrun, hdone⟩ := h.reached u htaken
  obtain ⟨t, rfl⟩ := hdone caller o ho
  have htells := Request.tells u.rules hw
  rw [Request.process_apply] at hw
  obtain ⟨fs, hfires⟩ := Demand.fires u.rules hw
  exact ⟨_, .mk htaken (hcaller ▸ ho) hfires htells hrun⟩

/-- The commits of a request hold all its writes, under the agent of its response, and on the visit on
which it was taken up or on screens that it has entered. -/
theorem Commits.tells (h : Commits u s place o cs) : o.writes = cs.flatMap (·.writes) ∧
    o.previousScreenId = (s.runAt place).screenId ∧ ∀ c ∈ cs, c.run.agentId = o.agentId ∧
      ((c.run.visit = (s.runAt place).visit ∧ c.run.screenId = (s.runAt place).screenId) ∨
        ∃ id ∈ o.entered, c.run.screenId = some id) := by
  cases h with
  | @mk q fs t _ htaken hfinished hfires htells hrun =>
      obtain ⟨_, _, _, _, he⟩ := htells
      obtain ⟨store, hcounted⟩ := q.2.counted_eq q.1.request.tally
      have hcovers := hfires.covers
      rw [he, runAt_taken htaken]
      refine ⟨hcovers.writes, rfl, fun c hc => ⟨hcovers.agents c hc, ?_⟩⟩
      have hvisited := hcovers.visits c hc
      rw [Turn.Visited, hcounted] at hvisited
      exact hvisited

/-- Whatever comes in, what is forwarded to the recorder is forwarded of the requests that have come to a
response, in order. Of each of them, unless its event goes by the name of the tool that records input,
these are the answers that it has committed, up to the first update whose key is no text. Each is under
the agent who was active then, but all are under the screen on which the request was taken up. So the
records name the screens where the answers were given just if all were given on one of that id; those
that the entry events of another screen give which the request has entered are recorded elsewhere. -/
theorem play_answers (hrecording : u.recording = true) (r : Run) (ls : List Listener)
    (is : List (Input ε)) :
    let s := ({ run := r, listeners := ls } : Session ε).play u is
    s.answers = s.finished.flatMap (fun e => u.forwards e.2) ∧
    ∀ place caller o, s.finished[place]? = some (caller, .ok o) →
      (∃ cs, Commits u s place o cs) ∧
      (o.eventId.asText? ≠ some u.bridge.recordInputTool → ∀ cs, Commits u s place o cs →
        let as := Commit.answers u.bridge cs
        u.forwards (.ok o) = as.map (CommittedAnswer.record o (s.runAt place).screenId) ∧
        (∀ a ∈ as, a.run.agentId = o.agentId ∧
          ((a.run.visit = (s.runAt place).visit ∧ a.run.screenId = (s.runAt place).screenId) ∨
            ∃ id ∈ o.entered, a.run.screenId = some id)) ∧
        (u.forwards (.ok o) = as.map (fun a => a.record o a.run.screenId) ↔
          ∀ a ∈ as, a.run.screenId = (s.runAt place).screenId)) := by
  intro s
  refine ⟨?_, fun place caller o ho => ⟨?_, fun hevent cs hcs => ?_⟩⟩
  · obtain ⟨new, hfinished, hanswers⟩ := play_adds u is ({ run := r, listeners := ls } : Session ε)
    rw [List.nil_append] at hfinished hanswers
    rw [hanswers, hfinished]
  · have hfresh : InOrder u ls ({ run := r, listeners := ls } : Session ε) := .fresh u r ls
    exact ((Traced.fresh u r ls).play u hfresh is).commits (hfresh.play u is).1 ho
  · obtain ⟨hwrites, hfound, hplaces⟩ := hcs.tells
    have hforwards : u.forwards (.ok o) = (Commit.answers u.bridge cs).map
        (CommittedAnswer.record o (s.runAt place).screenId) := by
      rw [Setup.forwards_ok hrecording hevent, ← hfound]
      exact Commit.forwarded_answers hwrites fun c hc => (hplaces c hc).1
    refine ⟨hforwards, fun a ha => ?_, ?_⟩
    · obtain ⟨c, hc, he⟩ := Commit.mem_answers ha
      rw [he]
      exact hplaces c hc
    · rw [hforwards]
      exact CommittedAnswer.map_record_iff o _ _

end Session

-- A hall where an answer is given on the way to a garden, which gives one by itself.
namespace Outlook

def hall : Screen := { Tour.hall with
  events := [Tour.event "walk"
    [.update [] .module [("answer_pace", .str "slow")], .navigate [] "garden"]] }

def garden : Screen := { Tour.garden with
  events := [⟨"view", .onAppear, [], [.update [] .module [("answer_view", .str "roses")]], .null⟩] }

def run : Run := { Tour.run with
  journey := { Tour.journey with agents := [{ Tour.guide with screens := [hall, garden] }] } }

def walk : Demand := .event { id := .str "walk" }

def played : Session Unit :=
  ({ run } : Session Unit).play {} [.submit () ⟨.start, none⟩, .submit () ⟨walk, none⟩]

end Outlook

namespace Session

/-- Both answers are recorded under the hall. -/
theorem play_answers_outlook : ∃ o, Outlook.played.finished[1]? = some ((), .ok o) ∧
    (∃ cs, Commits {} Outlook.played 1 o cs) ∧
    (Outlook.played.answers.map fun a => (a.key.asText?, a.screenId)) =
      [(some "answer_pace", some "hall"), (some "answer_view", some "hall")] ∧
    ∀ cs, Commits {} Outlook.played 1 o cs →
      Outlook.played.answers = (Commit.answers {} cs).map (CommittedAnswer.record o (some "hall")) := by
  obtain ⟨hanswers, hplaces⟩ := play_answers (u := {}) rfl Outlook.run []
    [.submit () ⟨.start, none⟩, .submit () ⟨Outlook.walk, none⟩]
  obtain ⟨hcommits, hrecords⟩ := hplaces 1 () _ rfl
  exact ⟨_, rfl, hcommits, by decide +kernel, fun cs hcs => (hrecords (by decide +kernel) cs hcs).1⟩

/-- The answer that the garden gives is not recorded under the garden. -/
theorem answers_misplaced : ¬ ∀ (u : Setup) (r : Run) (ls : List Listener) (is : List (Input Unit))
    (place : Nat) (o : Response) (cs : List Commit), u.recording = true →
    o.eventId.asText? ≠ some u.bridge.recordInputTool →
    Commits u (({ run := r, listeners := ls } : Session Unit).play u is) place o cs →
    u.forwards (.ok o) = (Commit.answers u.bridge cs).map fun a => a.record o a.run.screenId := by
  intro h
  have hfires : Outlook.walk.Fires (Setup.rules {})
      { run := (Outlook.played.runAt 1).counted none } _ _ :=
    .applied ⟨rfl, _, rfl, rfl, rfl⟩ rfl (.mk (.refl _) rfl (.fired rfl rfl rfl rfl (.mk (.refl _) rfl ⟨rfl, rfl⟩)
      (.nil _)))
  have hright := h {} Outlook.run [] [.submit () ⟨.start, none⟩, .submit () ⟨Outlook.walk, none⟩] 1 _ _
    rfl (by decide +kernel) (.mk rfl rfl hfires ⟨_, _, _, _, rfl⟩ rfl)
  have hscreens := congrArg (List.map Answer.screenId) hright
  revert hscreens
  decide +kernel

end Session

end GuidedJourney
