import GuidedJourney.Proofs.WorldPlay

namespace GuidedJourney

def Operation.ending? : Operation → Option (String × Value × (Nat → Sequel))
  | .finish id reason => some (id, reason, .remove id)
  | .shutdown (id :: rest) => some (id, .str "shutdown", fun i => .shutdown i id rest)
  | _ => none

def Sequel.settle (h : Host) : Sequel → Host
  | .register i => h.register i
  | .remove id i | .shutdown i id _ => (h.close i).remove id

namespace Host

theorem find_ok {h : Host} {id : String} {i : Nat} : h.find id = .ok i ↔ h.runs.lookup id = some i := by
  unfold find
  cases h.runs.lookup id <;> simp

theorem find_error {h : Host} {id : String} {e : Refusal} (he : h.find id = .error e) :
    h.runs.lookup id = none := by
  unfold find at he
  cases hl : h.runs.lookup id with
  | none => rfl
  | some i => simp [hl] at he

theorem remove_unlisted {h : Host} {id : String} {e : Refusal} (he : h.find id = .error e) :
    h.remove id = h := by
  have hnone := List.lookup_eq_none_iff.mp (find_error he)
  have hall : h.runs.filter (·.1 != id) = h.runs :=
    List.filter_eq_self.mpr fun e he => by rw [bne_comm]; exact hnone e he
  unfold remove
  rw [hall]

@[simp] theorem close_runs (h : Host) (i : Nat) : (h.close i).runs = h.runs := by
  unfold close
  split <;> rfl

theorem close_setup (h : Host) (i : Nat) :
    (h.close i).setup = h.setup ∧ (h.close i).catalog = h.catalog := by
  unfold close
  cases h.session? i <;> exact ⟨rfl, rfl⟩

theorem register_some {h : Host} {i : Nat} {s : Session Caller} (hs : h.session? i = some s) :
    h.register i = { h with runs := Fields.put s.run.id i h.runs } := by
  rw [register, hs]

theorem register_setup (h : Host) (i : Nat) :
    (h.register i).setup = h.setup ∧ (h.register i).catalog = h.catalog := by
  unfold register
  cases h.session? i <;> exact ⟨rfl, rfl⟩

end Host

namespace World

def jobs (w : World) : List Job := w.ready ++ w.sleepers.map Sleeper.job

/-- The world in which a session has come from `before` to `after` on behalf of a ticket, and the jobs
that this makes are on their way. -/
def handed (i ticket : Nat) (before after : Session Caller) (w : World) : World :=
  (({ w with host := w.host.setSession i after }.armTimers i before after).release i ticket before
    after).awaitService i before after

theorem act_none {i : Nat} {w : World} (h : w.host.session? i = none) (ticket : Nat)
    (f : Session Caller → CallStep) : w.act i ticket f = w := by
  simp only [act, h]

theorem act_some {i : Nat} {w : World} {before : Session Caller}
    (h : w.host.session? i = some before) (ticket : Nat) (f : Session Caller → CallStep) :
    w.act i ticket f = ((f before).2.elim id (conclude ticket))
      (w.handed i ticket before (f before).1) := by
  unfold act
  rw [h]
  dsimp only
  cases (f before).2 <;> rfl

theorem later_cases (delay : Binary64) (j : Job) (w : World) : ∃ ready sleepers,
    w.later delay j = { w with ready, sleepers } ∧
      ∀ j' ∈ ready ++ sleepers.map Sleeper.job, j' ∈ w.jobs ∨ j' = j := by
  unfold later
  split
  · refine ⟨_, _, rfl, fun j' hj => ?_⟩
    simp only [List.append_assoc, List.mem_append, List.mem_singleton] at hj
    simp only [jobs, List.mem_append]
    tauto
  · refine ⟨_, _, rfl, fun j' hj => ?_⟩
    simp only [List.map_append, List.map_cons, List.map_nil, List.mem_append, List.mem_singleton] at hj
    simp only [jobs, List.mem_append]
    tauto

theorem later_host (w : World) (delay : Binary64) (j : Job) : (w.later delay j).host = w.host := by
  obtain ⟨ready, sleepers, he, -⟩ := later_cases delay j w
  rw [he]

theorem later_results (w : World) (delay : Binary64) (j : Job) :
    (w.later delay j).results = w.results := by
  obtain ⟨ready, sleepers, he, -⟩ := later_cases delay j w
  rw [he]

def Waits (w : World) (i : Nat) (after : Session Caller) (e : Caller × Except Fault Response) : Prop :=
  e ∈ after.finished ∨ ∃ d ∈ w.drainers, d.session = i ∧ d.held = some e

theorem drainer_cases (i ticket : Nat) (w : World) :
    ((w.drainers.find? (·.session == i)).getD { session := i, ticket }).session = i ∧
    ∀ e, ((w.drainers.find? (·.session == i)).getD { session := i, ticket }).held = some e →
      ∃ d ∈ w.drainers, d.session = i ∧ d.held = some e := by
  cases hf : w.drainers.find? (·.session == i) with
  | none => exact ⟨rfl, fun e he => by cases he⟩
  | some d =>
      have hi : d.session = i := by simpa using List.find?_some hf
      exact ⟨hi, fun e he => ⟨d, List.mem_of_find?_eq_some hf, hi, he⟩⟩

theorem release_cases (i ticket : Nat) (before after : Session Caller) (w : World) :
    ∃ ready drainers, w.release i ticket before after = { w with ready, drainers } ∧
      (∀ j ∈ ready, j ∈ w.ready ∨ ∃ e, w.Waits i after e ∧ j = .resume i e.1 e.2) ∧
      ∀ d ∈ drainers, d ∈ w.drainers ∨
        d.session = i ∧ ∀ e, d.held = some e → w.Waits i after e := by
  unfold release
  have hdrainer := w.drainer_cases i ticket
  generalize (w.drainers.find? (·.session == i)).getD { session := i, ticket } = drainer at *
  dsimp only
  generalize hh : ((after.finished.drop before.finished.length).find? _).or drainer.held = held
  have hdone : ∀ e ∈ after.finished.drop before.finished.length, w.Waits i after e :=
    fun e he => .inl (List.mem_of_mem_drop he)
  have hheld : ∀ e, held = some e → w.Waits i after e := by
    rintro e rfl
    rcases Option.or_eq_some_iff.mp hh with he | ⟨-, he⟩
    · exact hdone e (List.mem_of_find?_eq_some he)
    · exact .inr (hdrainer.2 e he)
  have hresumed : ∀ j, j ∈ ((after.finished.drop before.finished.length).filter
      fun e => !(e.1.ticket == drainer.ticket)).map (fun e => Job.resume i e.1 e.2) →
      ∃ e, w.Waits i after e ∧ j = .resume i e.1 e.2 := by
    intro j hj
    obtain ⟨e, he, rfl⟩ := List.mem_map.mp hj
    exact ⟨e, hdone e (List.mem_of_mem_filter he), rfl⟩
  split
  · refine ⟨_, _, rfl, fun j hj => ?_, fun d hd => ?_⟩
    · rcases List.mem_append.mp hj with hj | hj
      · exact .inl hj
      · exact .inr (hresumed j hj)
    · rcases List.mem_cons.mp hd with rfl | hd
      · exact .inr ⟨hdrainer.1, hheld⟩
      · exact .inl (List.mem_of_mem_filter hd)
  · refine ⟨_, _, rfl, fun j hj => ?_, fun d hd => .inl (List.mem_of_mem_filter hd)⟩
    rcases List.mem_append.mp hj with hj | hj
    · obtain ⟨e, he, rfl⟩ := Option.map_eq_some_iff.mp (Option.mem_toList.mp hj)
      exact .inr ⟨e, hheld e he, rfl⟩
    · rcases List.mem_append.mp hj with hj | hj
      · exact .inl hj
      · exact .inr (hresumed j hj)

/-- The jobs that come of a step of a session: its timers are waited for, its callers go on, and the
answer of a service comes. -/
inductive Comes (w : World) (i : Nat) (after : Session Caller) : Job → Prop
  | arm (timer : Nat) : Comes w i after (.arm i timer)
  | resume {e : Caller × Except Fault Response} (h : w.Waits i after e) :
      Comes w i after (.resume i e.1 e.2)
  | reply (r : ServiceReply) : Comes w i after (.reply i r)

theorem awaitService_cases (i : Nat) (before after : Session Caller) (w : World) :
    w.awaitService i before after = w ∨
      ∃ delay r, w.awaitService i before after = w.later delay (.reply i r) := by
  unfold awaitService
  split
  · exact .inl rfl
  · split
    · exact .inr ⟨_, _, rfl⟩
    · exact .inl rfl

theorem handed_cases (i ticket : Nat) (before after : Session Caller) (w : World) :
    ∃ ready sleepers drainers, w.handed i ticket before after =
        { w with host := w.host.setSession i after, ready, sleepers, drainers } ∧
      (∀ j ∈ ready ++ sleepers.map Sleeper.job, j ∈ w.jobs ∨ w.Comes i after j) ∧
      ∀ d ∈ drainers, d ∈ w.drainers ∨
        d.session = i ∧ ∀ e, d.held = some e → w.Waits i after e := by
  let armed := { w with host := w.host.setSession i after }.armTimers i before after
  obtain ⟨ready, drainers, hrelease, hready, hdrainers⟩ := release_cases i ticket before after armed
  have hreleased : ∀ j ∈ (armed.release i ticket before after).jobs,
      j ∈ w.jobs ∨ w.Comes i after j := by
    intro j hj
    rw [hrelease] at hj
    rcases List.mem_append.mp hj with hj | hj
    · rcases hready j hj with hj | ⟨e, he, rfl⟩
      · rcases List.mem_append.mp hj with hj | hj
        · exact .inl (List.mem_append_left _ hj)
        · obtain ⟨t, -, rfl⟩ := List.mem_map.mp hj
          exact .inr (.arm t.id)
      · exact .inr (.resume he)
    · exact .inl (List.mem_append_right _ hj)
  change ∃ ready' sleepers' drainers',
    (armed.release i ticket before after).awaitService i before after = _ ∧ _
  rcases awaitService_cases i before after (armed.release i ticket before after) with
    he | ⟨delay, r, he⟩
  · exact ⟨_, _, _, he.trans hrelease, by rw [hrelease] at hreleased; exact hreleased, hdrainers⟩
  · obtain ⟨ready', sleepers, hlater, hjobs⟩ :=
      later_cases delay (.reply i r) (armed.release i ticket before after)
    refine ⟨ready', sleepers, drainers, ?_, fun j hj => ?_, hdrainers⟩
    · rw [he, hlater, hrelease]
      rfl
    · rcases hjobs j hj with hj | rfl
      · exact hreleased j hj
      · exact .inr (.reply r)

/-- How a job turns to a session: the world by then, the session, the ticket and the step. -/
inductive Turns (w : World) : Job → World → Nat → Nat → (Session Caller → CallStep) → Prop
  | call (t i : Nat) (c : Call) :
      Turns w (.begin t (.call i c)) w i t (Session.begin w.host.setup t c)
  | start (t : Nat) (r : Run) :
      Turns w (.begin t (.start r))
        { w with
          host := (w.host.addSession r).1
          sequels := (t, .register w.host.sessions.length) :: w.sequels }
        w.host.sessions.length t (Session.ask w.host.setup t .none ⟨.start, none⟩)
  | terminate {op : Operation} {id : String} {reason : Value} {sequel : Nat → Sequel} {i : Nat}
      (t : Nat) (hop : op.ending? = some (id, reason, sequel)) (hi : w.host.find id = .ok i) :
      Turns w (.begin t op) { w with sequels := (t, sequel i) :: w.sequels } i t
        (Session.ask w.host.setup t .none ⟨.terminate reason false, none⟩)
  | resume (i : Nat) (c : Caller) (o : Except Fault Response) :
      Turns w (.resume i c o) w i c.ticket (Session.resume w.host.setup c o)
  | reply (i : Nat) (r : ServiceReply) :
      Turns w (.reply i r) w i 0 fun s => (s.reply w.host.setup r, none)
  | fire (i timer : Nat) :
      Turns w (.fire i timer) w.newTicket.1 i w.tickets
        fun s => (s.fire w.host.setup ⟨w.tickets, .none⟩ timer, none)

/-- What the jobs come to that have nothing to do with what goes on in a session. -/
inductive Rests (w : World) : Job → World → Prop
  | sleep (t : Nat) (delay : Binary64) : Rests w (.begin t (.sleep delay)) (w.later delay (.wake t))
  | unlisted {op : Operation} {id : String} {reason : Value} {sequel : Nat → Sequel} {e : Refusal}
      (t : Nat) (hop : op.ending? = some (id, reason, sequel)) (hid : w.host.find id = .error e) :
      Rests w (.begin t op) (w.result t (.error e))
  | shut (t : Nat) : Rests w (.begin t (.shutdown [])) (w.result t (.ok none))
  | arm (i timer : Nat) (delay : Binary64) : Rests w (.arm i timer) (w.later delay (.fire i timer))
  | disarmed (i timer : Nat) : Rests w (.arm i timer) w
  | wake (t : Nat) : Rests w (.wake t) (w.result t (.ok none))

theorem terminate_cases {op : Operation} {id : String} {reason : Value} {sequel : Nat → Sequel}
    (hop : op.ending? = some (id, reason, sequel)) (t : Nat) (w : World) :
    (∃ w₁ i f, w.Turns (.begin t op) w₁ i t f ∧ w.terminate t id reason sequel = w₁.act i t f) ∨
      w.Rests (.begin t op) (w.terminate t id reason sequel) := by
  unfold terminate
  cases hid : w.host.find id with
  | error e => exact .inr (.unlisted t hop hid)
  | ok i => exact .inl ⟨_, _, _, .terminate t hop hid, rfl⟩

theorem perform_cases (j : Job) (w : World) :
    (∃ w₁ i t f, w.Turns j w₁ i t f ∧ w.perform j = w₁.act i t f) ∨ w.Rests j (w.perform j) := by
  cases j with
  | begin t op =>
      cases op with
      | call i c => exact .inl ⟨_, _, _, _, .call t i c, rfl⟩
      | sleep delay => exact .inr (.sleep t delay)
      | start r => exact .inl ⟨_, _, _, _, .start t r, rfl⟩
      | finish id reason =>
          have hop : (Operation.finish id reason).ending? = some (id, reason, .remove id) := rfl
          exact (terminate_cases hop t w).imp_left fun ⟨w₁, i, f, ht, he⟩ => ⟨w₁, i, t, f, ht, he⟩
      | shutdown ids =>
          cases ids with
          | nil => exact .inr (.shut t)
          | cons id rest =>
              have hop : (Operation.shutdown (id :: rest)).ending? =
                  some (id, .str "shutdown", fun i => .shutdown i id rest) := rfl
              exact (terminate_cases hop t w).imp_left fun ⟨w₁, i, f, ht, he⟩ => ⟨w₁, i, t, f, ht, he⟩
  | resume i c o => exact .inl ⟨_, _, _, _, .resume i c o, rfl⟩
  | reply i r => exact .inl ⟨_, _, _, _, .reply i r, rfl⟩
  | arm i timer =>
      refine .inr ?_
      change w.Rests _ (w.arm i timer)
      unfold arm
      split
      · exact .arm i timer _
      · exact .disarmed i timer
  | fire i timer => exact .inl ⟨_, _, _, _, .fire i timer, rfl⟩
  | wake t => exact .inr (.wake t)

theorem mem_push {j j' : Job} {w : World} : j' ∈ (w.push j).jobs ↔ j' ∈ w.jobs ∨ j' = j := by
  simp only [jobs, push, List.mem_append, List.mem_singleton]
  tauto

theorem rise_jobs (n : Nat) (w : World) {j : Job} : j ∈ (w.step (.rise n)).jobs ↔ j ∈ w.jobs := by
  rcases w.rise_cases n with ⟨-, he⟩ | ⟨before, x, behind, hx, rfl⟩
  · rw [he]
  · rw [step_rise hx]
    split
    · simp only [jobs, hx, List.map_append, List.map_cons, List.mem_append, List.mem_cons,
        List.not_mem_nil]
      tauto
    · rfl

def settled (ticket : Nat) (o : Except Fault Response) (w : World) : Host :=
  match o, w.sequels.lookup ticket with
  | .ok _, some q => q.settle w.host
  | _, _ => w.host

theorem part_cases (ticket : Nat) (id : String) (i : Nat) (goOn : World → World) (w : World) :
    w.part ticket id i goOn = goOn (w.setHost ((w.host.close i).remove id)) ∨
      ∃ e, w.part ticket id i goOn = (w.setHost ((w.host.close i).remove id)).result ticket (.error e) := by
  unfold part
  dsimp only
  cases h : (w.setHost (w.host.close i)).host.find id with
  | ok k => exact .inl rfl
  | error e =>
      have hlisted : (w.host.close i).find id = .error e := h
      rw [Host.remove_unlisted hlisted]
      exact .inr ⟨e, rfl⟩

theorem conclude_cases (ticket : Nat) (o : Except Fault Response) (w : World) :
    (∃ x, w.conclude ticket o = (w.setHost (w.settled ticket o)).result ticket x) ∨
    ∃ i id rest, w.sequels.lookup ticket = some (.shutdown i id rest) ∧ w.conclude ticket o =
      (w.setHost (w.settled ticket o)).pushFront (.begin ticket (.shutdown rest)) := by
  unfold conclude settled
  cases o with
  | error f => exact .inl ⟨_, rfl⟩
  | ok r =>
      cases hq : w.sequels.lookup ticket with
      | none => exact .inl ⟨_, rfl⟩
      | some q =>
          cases q with
          | register i => exact .inl ⟨_, rfl⟩
          | remove id i =>
              rcases part_cases ticket id i _ w with he | ⟨e, he⟩
              · exact .inl ⟨_, he⟩
              · exact .inl ⟨_, he⟩
          | shutdown i id rest =>
              rcases part_cases ticket id i _ w with he | ⟨e, he⟩
              · exact .inr ⟨i, id, rest, rfl, he⟩
              · exact .inl ⟨_, he⟩

variable {w : World}

theorem Turns.setup {j : Job} {w₁ : World} {i t : Nat} {f : Session Caller → CallStep}
    (ht : w.Turns j w₁ i t f) : w₁.host.setup = w.host.setup := by
  cases ht <;> rfl

theorem Rests.host {j : Job} {w' : World} (hr : w.Rests j w') : w'.host = w.host := by
  cases hr with
  | sleep t delay => exact later_host w delay _
  | arm i timer delay => exact later_host w delay _
  | _ => rfl

theorem settled_setup (t : Nat) (o : Except Fault Response) (w : World) :
    (w.settled t o).setup = w.host.setup ∧ (w.settled t o).catalog = w.host.catalog := by
  unfold settled
  split
  · rename_i q _
    cases q with
    | register i => exact w.host.register_setup i
    | remove id i => exact w.host.close_setup i
    | shutdown i id rest => exact w.host.close_setup i
  · exact ⟨rfl, rfl⟩

theorem act_frame (i t : Nat) (f : Session Caller → CallStep) (w : World) :
    ∃ host ready sleepers drainers results,
      w.act i t f = { w with host, ready, sleepers, drainers, results } ∧
        host.setup = w.host.setup ∧ host.catalog = w.host.catalog := by
  cases hi : w.host.session? i with
  | none => exact ⟨_, _, _, _, _, act_none hi t f, rfl, rfl⟩
  | some before =>
      obtain ⟨ready, sleepers, drainers, he, -⟩ := w.handed_cases i t before (f before).1
      rw [act_some hi, he]
      cases (f before).2 with
      | none => exact ⟨_, _, _, _, _, rfl, rfl, rfl⟩
      | some o =>
          rw [Option.elim_some]
          rcases conclude_cases t o _ with ⟨x, hc⟩ | ⟨i, id, rest, -, hc⟩ <;>
            exact ⟨_, _, _, _, _, hc, settled_setup t o _⟩

end World

end GuidedJourney
