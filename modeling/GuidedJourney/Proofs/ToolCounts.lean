import GuidedJourney.Proofs.Desk
import GuidedJourney.Proofs.FieldUpdate
import GuidedJourney.Proofs.RequestEnd

namespace GuidedJourney

open Relation

def StateWrite.Spares (key : String) (w : StateWrite) : Prop :=
  w.scope = .module → key ∉ Fields.keys w.updates.texts

instance (key : String) (w : StateWrite) : Decidable (w.Spares key) :=
  inferInstanceAs (Decidable (_ → _))

namespace Turn

variable {ss : List Screen} {key : String} {v : Option Value} {t t' : Turn}

/-- Unless it has written there, the turn has left a key of the module state at a value. -/
def Leaves (key : String) (v : Option Value) (t : Turn) : Prop :=
  (∀ w ∈ t.writes, w.Spares key) → Fields.find? t.run.store.module key = v

def Plain (ss : List Screen) (t t' : Turn) : Prop :=
  t.Stride ss t' ∨ t.Move t' ∨ ∃ c, t' = t.close c

theorem Leaves.jot (h : t.Leaves key v) (hj : t.Jot t') : t'.Leaves key v := by
  cases hj with
  | write w hw =>
      rcases w with ⟨scope, updates⟩
      intro hspares
      obtain ⟨hold, hnew⟩ := List.forall_mem_append.mp hspares
      have hkey := hnew ⟨scope, updates⟩ (List.mem_singleton.mpr rfl)
      cases scope with
      | screen => exact h hold
      | module =>
          have hother : ∀ f ∈ updates.texts, f.1 ≠ key := by
            intro f hf he
            exact hkey rfl (he ▸ List.mem_map_of_mem hf)
          exact (Fields.find?_overlay hother _).trans (h hold)
  | _ => exact h

theorem Leaves.plain (h : t.Leaves key v) (hp : t.Plain ss t') : t'.Leaves key v := by
  rcases hp with hs | hm | ⟨c, rfl⟩
  · cases hs with
    | jot hopen hj => exact h.jot hj
    | _ => exact h
  · cases hm <;> exact h
  · exact h

end Turn

namespace Demand

variable (rules : Rules) {t : Turn}

theorem process_plain (d : Demand) (hopen : t.Open) :
    (d.process rules).Goes (Turn.Plain t.run.screens) (fun _ _ => True) t := by
  obtain ⟨w, hw⟩ := EntryWidth.exists rules t.run.screens
  have hsettle : ∀ (t₁ : Turn) (s : Screen) (answer : Turn → Response), s ∈ t.run.screens →
      t₁.run.screens = t.run.screens → t₁.Open → (∀ t', (answer t').Of t.run t') →
      ((Act.settleIn rules rules.interpreter.maxChainedEntries s t₁).bind
        fun t' _ => .done t' (answer t')).Goes (Turn.Plain t.run.screens) (fun _ _ => True) t₁ := by
    intro t₁ s answer hs hss hopen hanswer
    exact (Act.settleIn_respond rules hw _ hs hss hopen hanswer).goes.mono
      (fun _ _ h => .inl h) fun _ _ _ => trivial
  cases d with
  | start =>
      change Work.Goes _ _ (Act.processStart rules t) t
      cases hs : t.run.agent?.bind (·.screens.head?) with
      | none =>
          rw [Act.processStart_none rules hs]
          exact ⟨.refl, trivial⟩
      | some s =>
          rw [Act.processStart_first rules hs]
          exact (hsettle (t.moveTo s) s _ (Run.first_mem hs) rfl hopen fun t' => t'.response_of _ _).after
            (.single (.inr (.inl (.start s hs))))
  | event c =>
      exact (Act.processEvent_meets rules hw c rfl).goes.mono (fun _ _ h => .inl h)
        fun _ _ _ => trivial
  | back =>
      change Work.Goes _ _ (Act.processBack t) t
      rcases Act.processBack_open hopen with ⟨message, -, he⟩ | ⟨s, hs, he⟩
      · rw [he]
        exact ⟨.single (.inl (.jot hopen (.warn message))), trivial⟩
      · rw [he]
        exact ⟨.single (.inr (.inl (.back s hopen hs))), trivial⟩
  | handoff id =>
      change Work.Goes _ _ (Act.processHandoff rules id t) t
      rcases Act.processHandoff_open rules id hopen with
        ⟨f, -, -, he⟩ | ⟨message, -, he⟩ | ⟨a, ha, he⟩
      · rw [he]
        exact .refl
      · rw [he]
        exact ⟨.single (.inl (.jot hopen (.warn message))), trivial⟩
      · rw [he]
        cases hs : a.screens.head? with
        | none =>
            rw [Act.handTo_none rules hs]
            exact ⟨.single (.inr (.inl (.leave id a hopen ha hs))), trivial⟩
        | some s =>
            rw [Act.handTo_first rules hs]
            have hmem := Run.screens_agent (Act.handoffTarget_mem ha).1 (List.mem_of_head? hs)
            exact (hsettle ((t.handTo a).moveTo s) s _ hmem rfl hopen fun t' => ⟨_, _, _, _, rfl⟩).after
              (.single (.inr (.inl (.handoff id a s hopen ha hs))))
  | write label ws =>
      exact (Act.processWrite_meets (fun _ _ => .jot) label ws hopen).goes.mono
        (fun _ _ h => .inl h) fun _ _ _ => trivial
  | terminate reason flowCompleted =>
      change Work.Goes _ _ (Act.processTerminate reason flowCompleted t) t
      rw [Act.processTerminate_open reason flowCompleted hopen]
      exact ⟨.single (.inr (.inr ⟨_, rfl⟩)), trivial⟩

end Demand

theorem Request.process_leaves (rules : Rules) (q : Request) (r : Run) (key : String)
    {w : Work Response} (h : (q.process rules { run := r }).Reaches w) :
    w.turn.Leaves key (Fields.find? (r.counted q.tally).store.module key) := by
  cases hover : r.completed with
  | false =>
      obtain ⟨store, hcounted⟩ := r.counted_eq q.tally
      rw [q.process_apply] at h
      have hopen : Turn.Open { run := r.counted q.tally } := by
        rw [hcounted]
        exact hover
      exact (q.demand.process_plain rules hopen).turn (fun _ _ h hp => h.plain hp)
        (fun _ h => h) (fun _ => rfl) h
  | true =>
      rw [Run.counted_over hover]
      by_cases hq : q.demand = .start
      · rcases start_over rules (t := { run := r }) hq hover with ⟨-, he⟩ | ⟨s, t', -, ht, he⟩
        · rw [he] at h
          cases h
          exact fun _ => rfl
        · rw [he] at h
          cases h
          rcases ht with rfl | ⟨message, rfl⟩
          · exact fun _ => rfl
          · exact fun _ => rfl
      · obtain ⟨o, he, -⟩ := process_over rules (t := { run := r }) hq hover
        rw [he] at h
        cases h
        exact fun _ => rfl

/-- The value that a number of tool calls is counted as; tools that have not been called have none. -/
def countValue (n : Nat) : Option Value := if n = 0 then none else some (.int n)

namespace Run

def toolCount? (r : Run) (tool : String) : Option Value :=
  Fields.find? (Fields.get r.store.module toolCallCounts).fieldsOrEmpty tool

theorem counted_toolCount {r : Run} (hopen : r.completed = false) (tally : Option String)
    (tool : String) (n : Nat) (hn : r.toolCount? tool = countValue n) :
    (r.counted tally).toolCount? tool = countValue (n + if tally = some tool then 1 else 0) := by
  cases tally with
  | none => simpa [counted] using hn
  | some called =>
      have hcounts : ((r.counted (some called)).toolCount? tool) =
          if tool = called then
            some (.int (Store.counter (Fields.get (Fields.get r.store.module toolCallCounts).fieldsOrEmpty
              called) + 1))
          else r.toolCount? tool := by
        simp [counted, hopen, toolCount?, Store.incrementIn, Store.setScope, Store.scope, Fields.get,
          Fields.find?_put, Value.fieldsOrEmpty, Value.asFields?]
      rw [hcounts]
      by_cases h : tool = called
      · subst h
        have hcounter : Store.counter (Fields.get
            (Fields.get r.store.module toolCallCounts).fieldsOrEmpty tool) = n := by
          change Store.counter ((r.toolCount? tool).getD .null) = n
          rw [hn, countValue]
          split
          · simp [Store.counter, *]
          · rfl
        simp [hcounter, countValue]
      · rw [if_neg h, if_neg (fun he => h (Option.some.inj he).symm)]
        exact hn

end Run

namespace Session

variable {ε : Type} (u : Setup) {s : Session ε}

/-- None of the writes of the requests that have been taken up has touched a key of the module state. -/
def Untouched (key : String) (s : Session ε) : Prop :=
  ∀ place e, s.taken[place]? = some e → ∃ w,
    (e.1.request.process u.rules { run := e.2 }).Reaches w ∧
    w.turn.run = s.runAt (place + 1) ∧ ∀ x ∈ w.turn.writes, x.Spares key

/-- The request was taken up while the run was not over, and a call of the tool is counted by it. -/
def counts (tool : String) (e : Queued ε × Run) : Bool :=
  e.1.request.tally = some tool && !e.2.completed

theorem Untouched.toolCount (h : Untouched u toolCallCounts s) {tool : String}
    (hfree : (s.runAt 0).toolCount? tool = none) {place : Nat} (hplace : place ≤ s.taken.length) :
    (s.runAt place).toolCount? tool = countValue ((s.taken.take place).countP (counts tool)) := by
  induction place with
  | zero => simpa [countValue] using hfree
  | succ place ih =>
      have hlt : place < s.taken.length := by omega
      have he : s.taken[place]? = some s.taken[place] := List.getElem?_eq_getElem hlt
      obtain ⟨w, hw, hrun, hspares⟩ := h place _ he
      have hleaves := Request.process_leaves u.rules _ _ toolCallCounts hw hspares
      have hsame : (s.runAt (place + 1)).toolCount? tool =
          ((s.runAt place).counted s.taken[place].1.request.tally).toolCount? tool := by
        rw [runAt_taken he, ← hrun]
        simp only [Run.toolCount?, Fields.get, hleaves]
      have hbefore := ih (by omega)
      rw [hsame, List.take_succ_eq_append_getElem hlt, List.countP_append, List.countP_singleton]
      rw [runAt_taken he] at hbefore ⊢
      cases hover : s.taken[place].2.completed with
      | true => simpa [Run.counted_over hover, counts, hover] using hbefore
      | false => simpa [counts, hover] using Run.counted_toolCount hover _ tool _ hbefore

/-- Once no request waits, and if none has failed, the responses tell of all writes. -/
theorem Traced.untouched {r₀ : Run} (h : Traced u r₀ s) (hs : s.suspended = none) {key : String}
    (htold : ∀ e ∈ s.finished, e.2.toOption.any fun o => o.writes.all (·.Spares key)) :
    Untouched u key s := by
  intro place e he
  cases h with
  | waiting ps q r t c k hc ht hw hr hsome => simp [hs] at hsome
  | through hc _ =>
      obtain ⟨t, o, hf, hw, hrun⟩ := hc.at u he
      refine ⟨.ended t o, hw, ?_⟩
      cases o with
      | error f =>
          have hfailed : false = true := htold _ (List.mem_of_getElem? hf)
          cases hfailed
      | ok o =>
          have hwrites : o.writes = t.writes := by
            obtain ⟨_, _, _, _, ho⟩ := Request.tells u.rules hw
            rw [ho]
            rfl
          have hall : o.writes.all (·.Spares key) = true := htold _ (List.mem_of_getElem? hf)
          rw [hwrites, List.all_eq_true] at hall
          exact ⟨hrun, fun x hx => of_decide_eq_true (hall x hx)⟩

theorem callTool_hands (htracked : u.bridge.trackToolCalls = true) (ticket : Nat) (name : String)
    (args : Value) (s : Session Caller) :
    (∃ f, s.callTool u ticket name args = ended (.error f) s) ∨
      ∃ errand q, s.callTool u ticket name args = s.ask u ticket errand q := by
  unfold callTool
  cases args.toFields with
  | error f => exact .inl ⟨f, rfl⟩
  | ok args =>
      simp only [htracked, if_true]
      split
      · unfold triggerEvent
        cases (Fields.get args "eventId").printedOrEmpty with
        | error f => exact .inl ⟨f, rfl⟩
        | ok event =>
            cases (Fields.get args "delay").delay with
            | error f => exact .inl ⟨f, rfl⟩
            | ok given =>
                refine .inr ?_
                simp only [Option.isSome_some, if_true]
                split
                · split <;> exact ⟨_, _, rfl⟩
                · split <;> exact ⟨_, _, rfl⟩
      · split
        · unfold recordInput
          dsimp only
          cases (RecordedInput.ofFields args).writes u.timestamp with
          | error f => exact .inl ⟨f, rfl⟩
          | ok writes => exact .inr ⟨_, _, rfl⟩
        · split
          · unfold endCall
            cases feedbackEvent u args with
            | error f => exact .inl ⟨f, rfl⟩
            | ok event => exact .inr ⟨_, _, rfl⟩
          · exact .inr ⟨_, _, rfl⟩

end Session

def Deed.tool? : Deed → Option String
  | .call _ (.tool name _) => some name
  | _ => none

theorem Deed.tally?_tracked {u : Setup} (htracked : u.bridge.trackToolCalls = true) (m : Deed) :
    m.tally? u = m.tool? := by
  cases m with
  | call ticket c => cases c <;> simp [tally?, Call.tally?, tool?, htracked]
  | _ => rfl

namespace Tour

def chat : List Deed := [
  .call 0 (.demand .start),
  .call 1 (.tool "trigger_event" (.obj [("eventId", .str "walk"), ("delay", .int 9)])),
  .goOn 1,
  record [("summary", .str "slow")] 2,
  .goOn 2,
  .call 3 (.tool "ask" (.obj [])),
  .call 4 (.tool "end_call" (.obj [])),
  .call 5 (.tool "trigger_event" (.obj [("eventId", .str "hurry")])),
  .reply (.success .null),
  .goOn 4,
  .call 6 (.tool "trigger_event" (.obj [("eventId", .str "hurry")]))]

end Tour

namespace Desk

variable (u : Setup)

/-- The places of the requests that calls of a tool hand in as their first. -/
def toolPlaces (tool : String) (d : Desk) : List Deed → List Nat
  | [] => []
  | m :: ms =>
    let d' := d.step u m
    (if m.tool? = some tool ∧ d.session.requests.length < d'.session.requests.length then
      [d.session.requests.length] else []) ++ d'.toolPlaces tool ms

theorem handed_place {qs : List (Queued Caller)} (hlength : qs.length ≤ 1) {called : Option String}
    (htally : ∀ q ∈ qs, q.request.tally = called) {tool : String} {n : Nat} :
    (if called = some tool ∧ n < n + qs.length then [n] else []) =
      ((qs.zipIdx n).filter (·.1.request.tally = some tool)).map Prod.snd := by
  rcases qs with _ | ⟨q, _ | ⟨q', qs⟩⟩
  · simp
  · have hq := htally q List.mem_cons_self
    by_cases hcalled : called = some tool
    · simp [hq, hcalled]
    · simp [hq, hcalled]
  · simp at hlength

theorem toolPlaces_requests {ls : List Listener} (htracked : u.bridge.trackToolCalls = true)
    (tool : String) (d : Desk) (h : Session.Attended u ls d.session) (ms : List Deed) :
    ∃ new, (d.play u ms).session.requests = d.session.requests ++ new ∧
      d.toolPlaces u tool ms = ((new.zipIdx d.session.requests.length).filter
        (·.1.request.tally = some tool)).map Prod.snd := by
  induction ms generalizing d with
  | nil => exact ⟨[], by simp [play], rfl⟩
  | cons m ms ih =>
      obtain ⟨first, hfirst, hlength, htally⟩ := step_requests u h m
      have hattended : Session.Attended u ls (d.step u m).session := play_attended u d [m] h
      obtain ⟨rest, hrest, hplaces⟩ := ih (d.step u m) hattended
      refine ⟨first ++ rest, by rw [play, hrest, hfirst, List.append_assoc], ?_⟩
      have hfirstTally : ∀ q ∈ first, q.request.tally = m.tool? := by
        intro q hq
        rw [(htally q hq).1, Deed.tally?_tracked htracked]
      rw [toolPlaces, hplaces, hfirst, List.length_append, handed_place hlength hfirstTally,
        List.zipIdx_append, List.filter_append, List.map_append]

theorem taken_countP {qs : List (Queued Caller × Run)} (queue : List (Queued Caller)) (tool : String) :
    (((((qs.map Prod.fst ++ queue).zipIdx).filter (·.1.request.tally = some tool)).map
      Prod.snd).countP fun place => (qs[place]?).any (!·.2.completed)) =
      qs.countP (Session.counts tool) := by
  have hqueue : ((queue.zipIdx qs.length).filter (·.1.request.tally = some tool)).countP
      ((fun place => (qs[place]?).any (!·.2.completed)) ∘ Prod.snd) = 0 := by
    refine List.countP_eq_zero.mpr fun x hx => ?_
    have hle := List.le_snd_of_mem_zipIdx (List.mem_of_mem_filter hx)
    simp [List.getElem?_eq_none hle]
  have htaken : (((qs.map Prod.fst).zipIdx).filter (·.1.request.tally = some tool)).countP
      ((fun place => (qs[place]?).any (!·.2.completed)) ∘ Prod.snd) =
      qs.zipIdx.countP (Session.counts tool ∘ Prod.fst) := by
    rw [List.countP_filter, List.zipIdx_map, List.countP_map]
    refine List.countP_congr fun x hx => ?_
    obtain ⟨e, place⟩ := x
    have he := List.mem_zipIdx_iff_getElem?.mp hx
    simp [Session.counts, he, and_comm]
  rw [List.countP_map, List.zipIdx_append, List.filter_append, List.countP_append, Nat.zero_add,
    List.length_map, hqueue, htaken, ← List.countP_map, List.zipIdx_map_fst, Nat.add_zero]

/-- After all deeds the module state has the right count for every tool, if the key of the counts was
free and no write has touched it: as many calls as have handed in a first request that has been taken
up while the run was not over. A call that is not refused at once hands in such a request. -/
theorem play_tool_counts (htracked : u.bridge.trackToolCalls = true) (r : Run)
    (hfree : Fields.find? r.store.module toolCallCounts = none) (ls : List Listener)
    (ms : List Deed) (huntouched : ((fresh r ls).play u ms).session.Untouched u toolCallCounts)
    (tool : String) :
    let d := (fresh r ls).play u ms
    d.session.run.toolCount? tool = countValue (((fresh r ls).toolPlaces u tool ms).countP
      fun place => (d.session.taken[place]?).any (!·.2.completed)) ∧
    ∀ ticket args,
      (∃ f, d.session.callTool u ticket tool args = Session.ended (.error f) d.session) ∨
      d.toolPlaces u tool [.call ticket (.tool tool args)] = [d.session.requests.length] := by
  intro d
  have hfresh : Session.Attended u ls (fresh r ls).session := .fresh u r ls
  have hattended : Session.Attended u ls d.session := play_attended u _ ms hfresh
  refine ⟨?_, fun ticket args => ?_⟩
  · obtain ⟨new, hnew, hplaces⟩ := toolPlaces_requests u htracked tool (fresh r ls) hfresh ms
    have hzero : d.session.runAt 0 = r := (play_traced u r ls ms).runAt_zero
    have hnone : (d.session.runAt 0).toolCount? tool = none := by
      rw [hzero, Run.toolCount?, Fields.get, hfree]
      rfl
    have hcount := huntouched.toolCount u hnone (Nat.le_refl _)
    rw [Session.runAt_end (Nat.le_refl _), List.take_length] at hcount
    have hrequests : new = d.session.taken.map Prod.fst ++ d.session.queue := hnew.symm
    rw [hcount, hplaces, hrequests]
    exact congrArg countValue (taken_countP _ tool).symm
  · refine (Session.callTool_hands u htracked ticket tool args d.session).imp_right ?_
    rintro ⟨errand, q, hq⟩
    have hstep : (d.step u (.call ticket (.tool tool args))).session =
        d.session.submit u ⟨ticket, errand⟩ q := congrArg Prod.fst hq
    have hrequests : (d.session.submit u ⟨ticket, errand⟩ q).requests =
        d.session.requests ++ [⟨⟨ticket, errand⟩, q⟩] := (hattended.inOrder.submit u _ q).2
    have hmore : d.session.requests.length <
        (d.session.submit u ⟨ticket, errand⟩ q).requests.length := by
      rw [hrequests]
      simp
    simp [toolPlaces, Deed.tool?, hstep, hmore]

theorem play_tool_counts_tour :
    let d := (fresh Tour.run []).play Tour.setup Tour.chat
    d.session.Untouched Tour.setup toolCallCounts ∧
    (fresh Tour.run []).toolPlaces Tour.setup "trigger_event" Tour.chat = [1, 5, 7] ∧
    d.session.run.completed = true ∧
    d.session.run.toolCount? "trigger_event" = countValue 2 ∧
    d.session.run.toolCount? "record_input" = countValue 1 ∧
    d.session.run.toolCount? "end_call" = countValue 1 := by
  intro d
  have huntouched : d.session.Untouched Tour.setup toolCallCounts :=
    (play_traced Tour.setup Tour.run [] Tour.chat).untouched Tour.setup
      (Option.isNone_iff_eq_none.mp (by decide +kernel)) (by decide +kernel)
  have hcount := fun tool =>
    (play_tool_counts Tour.setup rfl Tour.run rfl [] Tour.chat huntouched tool).1
  refine ⟨huntouched, by decide +kernel, by decide +kernel, ?_, ?_, ?_⟩
  · rw [hcount]
    exact congrArg countValue (by decide +kernel)
  · rw [hcount]
    exact congrArg countValue (by decide +kernel)
  · rw [hcount]
    exact congrArg countValue (by decide +kernel)

end Desk

end GuidedJourney
