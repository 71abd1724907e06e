import GuidedJourney.Proofs.DelayedEvents
import GuidedJourney.Proofs.EventContexts
import Mathlib.Data.List.Forall2

namespace GuidedJourney

def Queued.contextless {ε : Type} (q : Queued ε) : Queued ε := { q with request := q.request.contextless }

/-- The inputs differ at most in the context of the event that they ask for or put off. -/
inductive Input.SameBut {ε : Type} : Input ε → Input ε → Prop
  | same (i : Input ε) : SameBut i i
  | submit (caller : ε) {q q' : Request} (h : q.contextless = q'.contextless) :
      SameBut (.submit caller q) (.submit caller q')
  | schedule (event element : Value) {context context' : Value} (delay : Option Binary64)
      (h : context.Readable) (h' : context'.Readable) :
      SameBut (.schedule event element context delay) (.schedule event element context' delay)

theorem Timer.request?_contextless {t t' : Timer} (h : t.contextless = t'.contextless) :
    t.request?.map Request.contextless = t'.request?.map Request.contextless := by
  have hrequest : ∀ t : Timer,
      t.request?.map Request.contextless = t.contextless.request?.map Request.contextless := by
    intro t
    cases hc : t.context.toFields with
    | error f => rw [contextless_of_error hc]
    | ok fields =>
        have hnull : ({ t with context := .null } : Timer).contextless = { t with context := .null } := rfl
        have hempty : ({ t with context := .null } : Timer).context.toFields = .ok [] := rfl
        rw [contextless_of_ok ⟨fields, hc⟩, request?_ok hc, request?_ok hempty]
        simp only [Option.map_some, Request.contextless, EventCall.contextless, Option.map_some, hnull,
          contextless_of_ok ⟨fields, hc⟩]
  rw [hrequest t, hrequest t', h]

theorem Release.foldl_contextless (rs : List Release) (ts : List Timer) :
    rs.foldl Release.apply (ts.map Timer.contextless) =
      (rs.foldl Release.apply ts).map Timer.contextless := by
  induction rs generalizing ts with
  | nil => rfl
  | cons r rs ih =>
      rw [List.foldl_cons, List.foldl_cons, ← ih]
      cases r with
      | all => rfl
      | ofScreen id => simp [Release.apply, List.filter_map, Function.comp_def]

theorem Request.direct_contextless {q q' : Request} (h : q.contextless = q'.contextless) :
    q.direct.contextless = q'.direct.contextless := by
  rcases contextless_cases h with rfl | ⟨c, c', tally, rfl, rfl, hc⟩
  · rfl
  · simp only [EventCall.contextless, EventCall.mk.injEq] at hc
    obtain ⟨hid, helement, -, hvalues, -⟩ := hc
    simp only [direct, contextless, EventCall.contextless, hid, helement, hvalues]

namespace Session

variable {ε : Type} (u : Setup)

def contextless (s : Session ε) : Session ε := { s with
  timers := s.timers.map Timer.contextless
  armed := s.armed.map Timer.contextless
  queue := s.queue.map Queued.contextless
  taken := s.taken.map fun e => (e.1.contextless, e.2) }

theorem settle_contextless (t : Turn) (s : Session ε) :
    (s.settle t).contextless = s.contextless.settle t := by
  simp only [settle, contextless, Release.foldl_contextless]

theorem finish_contextless (caller : ε) (o : Except Fault Response) (s : Session ε) :
    (s.finish u caller o).contextless = s.contextless.finish u caller o := by
  cases o <;> rfl

/-- Contexts have no part in what a turn does. -/
theorem follow_contextless (caller : ε) (w : Work Response) (s : Session ε) :
    (s.follow u caller w).contextless = s.contextless.follow u caller w := by
  induction w generalizing s with
  | done t o =>
      rw [follow, follow, finish_contextless, settle_contextless]
  | failed t f =>
      rw [follow, follow, finish_contextless, settle_contextless]
  | waiting t c k ih =>
      have hsettle : ({ s.settle t with calls := s.calls ++ [c] } : Session ε).contextless =
          { s.contextless.settle t with calls := s.contextless.calls ++ [c] } := by
        rw [← settle_contextless]
        rfl
      rw [follow, follow]
      cases u.instant? c with
      | none => exact congrArg (fun s : Session ε => { s with suspended := some ⟨caller, c, k⟩ }) hsettle
      | some x =>
          have hfollow := ih x { s.settle t with calls := s.calls ++ [c] }
          rw [hsettle] at hfollow
          exact hfollow

variable {u} {x y : Session ε}

theorem contextless_run (h : x.contextless = y.contextless) : x.run = y.run :=
  congrArg (fun s => s.run) h

theorem contextless_suspended (h : x.contextless = y.contextless) : x.suspended = y.suspended :=
  congrArg (fun s => s.suspended) h

theorem contextless_isWaiting (h : x.contextless = y.contextless) : x.isWaiting = y.isWaiting := by
  rw [isWaiting, isWaiting, contextless_suspended h]

theorem contextless_place (h : x.contextless = y.contextless) : x.taken.length = y.taken.length := by
  simpa [contextless] using congrArg (fun s => s.taken.length) h

theorem contextless_queue (h : x.contextless = y.contextless) :
    x.queue.map Queued.contextless = y.queue.map Queued.contextless :=
  congrArg (fun s => s.queue) h

theorem contextless_timers (h : x.contextless = y.contextless) :
    x.timers.map Timer.contextless = y.timers.map Timer.contextless :=
  congrArg (fun s => s.timers) h

theorem take_contextless (h : x.contextless = y.contextless) {q q' : Queued ε}
    (hq : q.contextless = q'.contextless)
    (hprocess : q.request.process u.rules { run := x.run } = q'.request.process u.rules { run := x.run }) :
    (x.take u q).contextless = (y.take u q').contextless := by
  have hcaller : q.caller = q'.caller := congrArg (fun q => q.caller) hq
  have hbegun : ({ x with draining := true, taken := x.taken ++ [(q, x.run)] } : Session ε).contextless =
      ({ y with draining := true, taken := y.taken ++ [(q', y.run)] } : Session ε).contextless := by
    have hextend : ∀ (s : Session ε) (q : Queued ε) (r : Run),
        ({ s with draining := true, taken := s.taken ++ [(q, r)] } : Session ε).contextless =
          { s.contextless with
            draining := true, taken := s.contextless.taken ++ [(q.contextless, r)] } := by
      intro s q r
      simp [contextless]
    rw [hextend, hextend, h, hq, contextless_run h]
  rw [take, take, follow_contextless, follow_contextless, hbegun, hcaller, hprocess, contextless_run h]

theorem resumed_contextless (h : x.contextless = y.contextless) (w : Suspension ε) (r : ServiceReply) :
    (x.resumed u w r).contextless = (y.resumed u w r).contextless := by
  have hrest : ({ x with suspended := none } : Session ε).contextless =
      ({ y with suspended := none } : Session ε).contextless :=
    congrArg (fun s : Session ε => { s with suspended := none }) h
  rw [resumed, resumed, follow_contextless, follow_contextless, hrest]

/-- Both have taken up requests for the same event at the same run, and the event has conditions that
their contexts can make come out differently. -/
def Parted (x y : Session ε) : Prop := ∃ (place : Nat) (q q' : Queued ε) (r : Run) (e : Event),
  x.taken[place]? = some (q, r) ∧ y.taken[place]? = some (q', r) ∧
    r.offered? q.request = some e ∧ ¬ e.Indifferent q.request q'.request

theorem Parted.mono {x' y' : Session ε} (h : Parted x y)
    (hx : ∀ {place : Nat} {e}, x.taken[place]? = some e → x'.taken[place]? = some e)
    (hy : ∀ {place : Nat} {e}, y.taken[place]? = some e → y'.taken[place]? = some e) :
    Parted x' y' := by
  obtain ⟨place, q, q', r, e, htaken, htaken', he, hne⟩ := h
  exact ⟨place, q, q', r, e, hx htaken, hy htaken', he, hne⟩

/-- Contexts aside, the sessions are the same unless conditions have parted them. -/
inductive InStep (x y : Session ε) : Prop
  | same (h : x.contextless = y.contextless)
  | parted (h : Parted x y)

namespace InStep

theorem take (h : x.contextless = y.contextless) {q q' : Queued ε} (hq : q.contextless = q'.contextless) :
    InStep (x.take u q) (y.take u q') := by
  have hrequest : q.request.contextless = q'.request.contextless := congrArg Queued.request hq
  by_cases hoffered : ∀ e, x.run.offered? q.request = some e → e.Indifferent q.request q'.request
  · exact .same (take_contextless h hq (Request.process_indifferent u.rules hrequest hoffered))
  · simp only [not_forall] at hoffered
    obtain ⟨e, he, hne⟩ := hoffered
    refine .parted ⟨x.taken.length, q, q', x.run, e, ?_, ?_, he, hne⟩
    · rw [(take_frame u q x).1]
      exact List.getElem?_concat_length
    · rw [(take_frame u q' y).1, contextless_place h, contextless_run h]
      exact List.getElem?_concat_length

theorem drain {queue queue' : List (Queued ε)} (h : x.contextless = y.contextless)
    (hqueue : queue.map Queued.contextless = queue'.map Queued.contextless) :
    InStep (x.drain u queue) (y.drain u queue') := by
  induction queue generalizing x y queue' with
  | nil =>
      obtain rfl : queue' = [] := by simpa using hqueue.symm
      exact .same (congrArg (fun s : Session ε => { s with queue := [], draining := false }) h)
  | cons q rest ih =>
      obtain ⟨q', rest', rfl, hq, hrest⟩ := List.map_eq_cons_iff.mp hqueue.symm
      have hkept : ∀ (s : Session ε) {q : Queued ε} {rest : List (Queued ε)} {place : Nat} {e},
          (s.take u q).taken[place]? = some e → (s.drain u (q :: rest)).taken[place]? = some e := by
        intro s q rest place e htaken
        rw [drain_cons]
        split
        · exact htaken
        · exact drain_taken u rest htaken
      cases take (u := u) h hq.symm with
      | parted hparted => exact .parted (hparted.mono (hkept x) (hkept y))
      | same htake =>
          rw [drain_cons, drain_cons, contextless_isWaiting htake]
          split
          · refine .same ?_
            change { (x.take u q).contextless with queue := rest.map Queued.contextless } =
              { (y.take u q').contextless with queue := rest'.map Queued.contextless }
            rw [htake, hrest]
          · exact ih htake hrest.symm

theorem submit (h : x.contextless = y.contextless) (caller : ε) {q q' : Request}
    (hq : q.contextless = q'.contextless) :
    InStep (x.submit u caller q) (y.submit u caller q') := by
  have hbusy : x.isBusy = y.isBusy := congrArg (fun s => s.draining) h
  have hqueue : (x.queue ++ [Queued.mk caller q]).map Queued.contextless =
      (y.queue ++ [Queued.mk caller q']).map Queued.contextless := by
    rw [List.map_append, List.map_append, contextless_queue h]
    exact congrArg (fun q => _ ++ [Queued.mk caller q]) hq
  unfold Session.submit
  rw [hbusy]
  split
  · refine .same ?_
    change { x.contextless with queue := (x.queue ++ [Queued.mk caller q]).map Queued.contextless } =
      { y.contextless with queue := (y.queue ++ [Queued.mk caller q']).map Queued.contextless }
    rw [h, hqueue]
  · exact drain h hqueue

theorem reply (h : x.contextless = y.contextless) (r : ServiceReply) :
    InStep (x.reply u r) (y.reply u r) := by
  cases hw : x.suspended with
  | none =>
      rw [reply_idle u hw, reply_idle u ((contextless_suspended h).symm.trans hw)]
      exact .same h
  | some w =>
      have hresumed := resumed_contextless (u := u) h w r
      rw [reply_waiting u hw, reply_waiting u ((contextless_suspended h).symm.trans hw),
        contextless_isWaiting hresumed]
      split
      · exact .same hresumed
      · exact drain hresumed (contextless_queue hresumed)

theorem fire (h : x.contextless = y.contextless) (caller : ε) (timer : Nat) :
    InStep (x.fire u caller timer) (y.fire u caller timer) := by
  have hfind : (x.timers.find? (·.id == timer)).map Timer.contextless =
      (y.timers.find? (·.id == timer)).map Timer.contextless := by
    have hid : (fun t : Timer => t.id == timer) ∘ Timer.contextless = fun t => t.id == timer :=
      funext fun t => by simp
    have hmapped := congrArg (List.find? (·.id == timer)) (contextless_timers h)
    rwa [List.find?_map, List.find?_map, hid] at hmapped
  have hdropped : ({ x with timers := x.timers.filter (·.id != timer) } : Session ε).contextless =
      ({ y with timers := y.timers.filter (·.id != timer) } : Session ε).contextless := by
    have hfilter : ∀ s : Session ε,
        ({ s with timers := s.timers.filter (·.id != timer) } : Session ε).contextless =
          { s.contextless with timers := s.contextless.timers.filter (·.id != timer) } := by
      intro s
      simp [contextless, List.filter_map, Function.comp_def]
    rw [hfilter, hfilter, h]
  unfold Session.fire
  cases hx : x.timers.find? (·.id == timer) with
  | none =>
      have hy : y.timers.find? (·.id == timer) = none := by simpa [hx] using hfind.symm
      rw [hy]
      exact .same h
  | some t =>
      rw [hx] at hfind
      obtain ⟨t', hy, ht⟩ := Option.map_eq_some_iff.mp hfind.symm
      have hrequest := Timer.request?_contextless ht.symm
      rw [hy]
      dsimp only
      cases hq : t.request? with
      | none =>
          have hq' : t'.request? = none := by simpa [hq] using hrequest.symm
          rw [hq']
          exact .same hdropped
      | some q =>
          rw [hq] at hrequest
          obtain ⟨q', hq', hsame⟩ := Option.map_eq_some_iff.mp hrequest.symm
          rw [hq']
          exact submit hdropped caller hsame.symm

theorem schedule (h : x.contextless = y.contextless) (event element : Value) {context context' : Value}
    (delay : Option Binary64) (hcontext : context = context' ∨ context.Readable ∧ context'.Readable) :
    InStep (x.schedule event element context delay).1 (y.schedule event element context' delay).1 := by
  have hrun := contextless_run h
  have htimer : (x.nextTimer event element context delay).contextless =
      (y.nextTimer event element context' delay).contextless := by
    have hcount : x.armed.length = y.armed.length := by
      simpa [contextless] using congrArg (fun s => s.armed.length) h
    rcases hcontext with rfl | ⟨hcontext, hcontext'⟩
    · simp only [nextTimer, hcount, hrun]
    · rw [Timer.contextless_of_ok hcontext, Timer.contextless_of_ok hcontext']
      simp only [nextTimer, hcount, hrun]
  have harm : ∀ (s : Session ε) (t : Timer),
      ({ s with timers := s.timers ++ [t], armed := s.armed ++ [t] } : Session ε).contextless =
        { s.contextless with
          timers := s.contextless.timers ++ [t.contextless]
          armed := s.contextless.armed ++ [t.contextless] } := by
    intro s t
    simp [contextless]
  rcases schedule_cases event element context delay x with ⟨hover, hx⟩ | ⟨hopen, hx⟩
  · rcases schedule_cases event element context' delay y with ⟨-, hy⟩ | ⟨hopen', hy⟩
    · rw [hx, hy]
      exact .same h
    · rw [hrun, hopen'] at hover
      cases hover
  · rcases schedule_cases event element context' delay y with ⟨hover', hy⟩ | ⟨-, hy⟩
    · rw [hrun, hover'] at hopen
      cases hopen
    · rw [hx, hy]
      exact .same (by rw [harm, harm, htimer, h])

theorem apply (h : InStep x y) {i j : Input ε} (hij : i.SameBut j) :
    InStep (x.apply u i) (y.apply u j) := by
  cases h with
  | parted hparted => exact .parted (hparted.mono (apply_taken u i) (apply_taken u j))
  | same h =>
      cases hij with
      | submit caller hq => exact submit h caller (Request.direct_contextless hq)
      | schedule event element delay hx hy => exact schedule h event element delay (.inr ⟨hx, hy⟩)
      | same i =>
          cases i with
          | submit caller q => exact submit h caller rfl
          | reply r => exact reply h r
          | fire caller timer => exact fire h caller timer
          | schedule event element context delay => exact schedule h event element delay (.inl rfl)
          | close => exact .same (congrArg (fun s : Session ε => { s with timers := [] }) h)

theorem play (h : InStep x y) {is js : List (Input ε)} (hsame : List.Forall₂ Input.SameBut is js) :
    InStep (x.play u is) (y.play u js) := by
  induction hsame generalizing x y with
  | nil => exact h
  | cons hij _ ih => exact ih (h.apply hij)

end InStep

/-- The contexts that come with events are transient. Two plays may differ in them wherever the event on
offer, with all actions of its branches, has no conditions, or none that come out differently: then they
leave the same run, call services in the same way and give everyone the same results, and all that has
come of the plays is the same up to the contexts of the requests and timers themselves. -/
theorem play_transient (u : Setup) (s : Session ε) {is js : List (Input ε)}
    (hsame : List.Forall₂ Input.SameBut is js)
    (hopen : ∀ (place : Nat) (q q' : Queued ε) (r : Run) (e : Event),
      (s.play u is).taken[place]? = some (q, r) → (s.play u js).taken[place]? = some (q', r) → q ≠ q' →
        r.offered? q.request = some e → e.Unconditional ∨ e.Indifferent q.request q'.request) :
    (s.play u is).run = (s.play u js).run ∧ (s.play u is).calls = (s.play u js).calls ∧
      (s.play u is).finished = (s.play u js).finished ∧
      (s.play u is).contextless = (s.play u js).contextless := by
  have hstep : InStep (s.play u is) (s.play u js) := (InStep.same rfl).play hsame
  cases hstep with
  | same h => exact ⟨contextless_run h, congrArg (·.calls) h, congrArg (·.finished) h, h⟩
  | parted hparted =>
      obtain ⟨place, q, q', r, e, hq, hq', he, hdiffers⟩ := hparted
      have hne : q ≠ q' := by
        rintro rfl
        exact hdiffers fun _ _ _ _ => rfl
      rcases hopen place q q' r e hq hq' hne he with hnone | hsame
      · exact absurd (hnone.indifferent _ _) hdiffers
      · exact absurd hsame hdiffers

theorem callTool_sameBut (u : Setup) (ticket : Nat) {name : String} {args args' : Fields}
    (hname : name ∉ [u.bridge.triggerEventTool, u.bridge.recordInputTool, u.bridge.endCallTool])
    (helement : Fields.get args "elementId" = Fields.get args' "elementId") (s : Session Caller) :
    ∃ i j : Input Caller, i.SameBut j ∧ s.callTool u ticket name (.obj args) = (s.apply u i, none) ∧
      s.callTool u ticket name (.obj args') = (s.apply u j, none) := by
  simp only [List.mem_cons, List.not_mem_nil, or_false, not_or] at hname
  obtain ⟨htrigger, hrecord, hend⟩ := hname
  let request (args : Fields) : Request := {
    demand := .event {
      id := toolEvent s.run name
      element := Fields.get args "elementId"
      context := Fields.erase "elementId" args }
    tally := if u.bridge.trackToolCalls then some name else none }
  have hcall : ∀ args : Fields, s.callTool u ticket name (.obj args) =
      (s.apply u (.submit ⟨ticket, .none⟩ (request args)), none) := by
    intro args
    simp only [callTool, Value.toFields_obj, if_neg htrigger, if_neg hrecord, if_neg hend]
    rfl
  have hsame : (request args).contextless = (request args').contextless := by
    simp only [request, Request.contextless, EventCall.contextless, helement]
  exact ⟨_, _, .submit ⟨ticket, .none⟩ hsame, hcall args, hcall args'⟩

end Session

def Tour.whispers (secret : String) : List (Input Unit) := [
  .submit () ⟨.start, none⟩,
  .submit () ⟨.event { id := .str "ask", context := [("secret", .str secret)] }, none⟩,
  .schedule (.str "hurry") .null (.obj [("secret", .str secret)]) none,
  .reply (.success .null),
  .fire () 0]

theorem Session.play_transient_tour :
    let x := ({ run := Tour.run } : Session Unit).play Tour.setup (Tour.whispers "under the stairs")
    let y := ({ run := Tour.run } : Session Unit).play Tour.setup (Tour.whispers "in the garden")
    x.finished.length = 3 ∧ x.run = y.run ∧ x.calls = y.calls ∧ x.finished = y.finished := by
  intro x y
  have hsame : List.Forall₂ Input.SameBut (Tour.whispers "under the stairs")
      (Tour.whispers "in the garden") :=
    .cons (.same _) <| .cons (.submit () rfl) <|
      .cons (.schedule _ _ none ⟨_, rfl⟩ ⟨_, rfl⟩) <| .cons (.same _) <| .cons (.same _) .nil
  have hopen : x.taken.all (fun p => (p.2.offered? p.1.request).all fun e =>
      decide e.Unconditional) = true := by
    decide +kernel
  obtain ⟨hrun, hcalls, hfinished, -⟩ := play_transient Tour.setup { run := Tour.run } hsame
    fun place q q' r e hq _ _ he => by
      have hevent := List.all_eq_true.mp hopen (q, r) (List.mem_of_getElem? hq)
      simp only [he, Option.all_some, decide_eq_true_eq] at hevent
      exact .inl hevent
  exact ⟨by decide +kernel, hrun, hcalls, hfinished⟩

end GuidedJourney
