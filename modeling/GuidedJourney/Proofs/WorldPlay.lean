import GuidedJourney.Proofs.Desk
import GuidedJourney.Simulation.World

namespace GuidedJourney

/-- What may be asked of a host. A session is called by its number, a run is ended by its id. -/
inductive Order where
  | launch (j : Journey) (globals : List Screen) (state : Fields) (id : String)
  | launchNamed (journey : Value) (state : Fields) (id : String)
  | call (session : Nat) (c : Call)
  | sleep (delay : Binary64)
  | finish (id : String) (reason : Value)
  | shutdown

/-- What an order comes to, unless it is refused. -/
def Order.operation (h : Host) : Order → Except Refusal Operation
  | .launch j globals state id => (h.newRun j globals state id).map .start
  | .launchNamed journey state id =>
    match h.catalog with
    | none => .error .noCatalog
    | some c => do return .start (← h.newRun (← c.find journey) c.globals state id)
  | .call i c => .ok (.call i c.direct)
  | .sleep delay => .ok (.sleep delay)
  | .finish id reason => .ok (.finish id reason)
  | .shutdown => .ok (.shutdown h.runIds)

def Order.launches : Order → List String
  | .launch _ _ _ id | .launchNamed _ _ id => [id]
  | _ => []

theorem Order.operation_launch {h : Host} {o : Order} {op : Operation} {id : String}
    (ho : o.operation h = .ok op) (hid : o.launches = [id]) : ∃ r, op = .start r ∧ r.id = id := by
  have hstart : ∀ {j globals state} {x : Except Refusal Operation},
      x = (h.newRun j globals state id).map .start → x = .ok op → ∃ r, op = .start r ∧ r.id = id := by
    rintro j globals state x rfl hx
    cases hr : h.newRun j globals state id with
    | error e => rw [hr] at hx; cases hx
    | ok r =>
        rw [hr] at hx
        cases hx
        exact ⟨r, rfl, by rw [(Host.newRun_ok hr).2]⟩
  cases o with
  | launch j globals state id =>
      obtain rfl : id = _ := List.head_eq_of_cons_eq hid
      exact hstart rfl ho
  | launchNamed journey state id =>
      obtain rfl : id = _ := List.head_eq_of_cons_eq hid
      unfold operation at ho
      cases hc : h.catalog with
      | none => rw [hc] at ho; cases ho
      | some c =>
          rw [hc] at ho
          dsimp only at ho
          cases hj : c.find journey with
          | error e => rw [hj] at ho; cases ho
          | ok j =>
              rw [hj] at ho
              exact hstart rfl ho
  | _ => cases hid

inductive Happening where
  | order (o : Order)
  | work
  | pass (now : Binary64)
  | rise (n : Nat)
  /-- A ticket is drawn by someone of whom nothing else is seen. -/
  | draw

namespace World

def order (o : Order) (w : World) : World :=
  let (w, ticket) := w.newTicket
  match o.operation w.host with
  | .ok op => w.push (.begin ticket op)
  | .error e => w.result ticket (.error e)

def step (w : World) : Happening → World
  | .order o => w.order o
  | .work => w.work
  | .pass now => w.pass now
  | .rise n => w.rise n
  | .draw => w.newTicket.1

def after (w : World) : List Happening → World
  | [] => w
  | h :: hs => (w.step h).after hs

theorem after_append (w : World) (hs hs' : List Happening) :
    w.after (hs ++ hs') = (w.after hs).after hs' := by
  induction hs generalizing w with
  | nil => rfl
  | cons h hs ih => exact ih _

theorem after_induction {P : World → Prop} (hstep : ∀ w h, P w → P (w.step h)) (w : World)
    (hs : List Happening) (hw : P w) : P (w.after hs) := by
  induction hs generalizing w with
  | nil => exact hw
  | cons h hs ih => exact ih _ (hstep w h hw)

theorem step_order {o : Order} {op : Operation} {w : World} (ho : o.operation w.host = .ok op) :
    w.step (.order o) = w.newTicket.1.push (.begin w.tickets op) := by
  rw [step, order, newTicket]
  simp only [ho]

theorem step_refused {o : Order} {e : Refusal} {w : World} (ho : o.operation w.host = .error e) :
    w.step (.order o) = w.newTicket.1.result w.tickets (.error e) := by
  rw [step, order, newTicket]
  simp only [ho]

theorem order_cases (o : Order) (w : World) :
    (∃ e, o.operation w.host = .error e ∧
      w.step (.order o) = w.newTicket.1.result w.tickets (.error e)) ∨
    ∃ op, o.operation w.host = .ok op ∧
      w.step (.order o) = w.newTicket.1.push (.begin w.tickets op) := by
  cases ho : o.operation w.host with
  | error e => exact .inl ⟨e, rfl, step_refused ho⟩
  | ok op => exact .inr ⟨op, rfl, step_order ho⟩

theorem step_work {w : World} {j : Job} {rest : List Job} (hready : w.ready = j :: rest) :
    w.step .work = { w with ready := rest }.perform j := by
  rw [step, work, hready]

theorem work_cases (w : World) : (w.ready = [] ∧ w.step .work = w) ∨
    ∃ j rest, w.ready = j :: rest ∧ w.step .work = { w with ready := rest }.perform j := by
  cases hready : w.ready with
  | nil => exact .inl ⟨rfl, by rw [step, work, hready]⟩
  | cons j rest => exact .inr ⟨j, rest, rfl, step_work hready⟩

theorem pass_frame (now : Binary64) (w : World) : ∃ clock, w.step (.pass now) = { w with clock } := by
  rw [step, pass]
  split
  · exact ⟨now, rfl⟩
  · exact ⟨w.clock, rfl⟩

theorem sleepers_at {w : World} {before behind : List Sleeper} {x : Sleeper}
    (hx : w.sleepers = before ++ x :: behind) : w.sleepers[before.length]? = some x := by
  rw [hx, List.getElem?_append_right (Nat.le_refl _), Nat.sub_self]
  rfl

theorem step_rise {w : World} {before behind : List Sleeper} {x : Sleeper}
    (hx : w.sleepers = before ++ x :: behind) : w.step (.rise before.length) =
      if isDue w.clock x then { w with ready := w.ready ++ [x.job], sleepers := before ++ behind }
      else w := by
  have hrest : w.sleepers.eraseIdx before.length = before ++ behind := by
    rw [hx, List.eraseIdx_append_of_length_le (Nat.le_refl _), Nat.sub_self]
    rfl
  rw [step, rise, sleepers_at hx, hrest]

theorem rise_cases (n : Nat) (w : World) : (w.sleepers[n]? = none ∧ w.step (.rise n) = w) ∨
    ∃ before x behind, w.sleepers = before ++ x :: behind ∧ n = before.length := by
  rcases Nat.lt_or_ge n w.sleepers.length with hlt | hge
  · refine .inr ⟨w.sleepers.take n, w.sleepers[n], w.sleepers.drop (n + 1), ?_, ?_⟩
    · rw [← List.drop_eq_getElem_cons hlt, List.take_append_drop]
    · rw [List.length_take, Nat.min_eq_left (Nat.le_of_lt hlt)]
  · have hnone : w.sleepers[n]? = none := List.getElem?_eq_none hge
    exact .inl ⟨hnone, by rw [step, rise, hnone]⟩

theorem rise_frame (n : Nat) (w : World) :
    ∃ ready sleepers, w.step (.rise n) = { w with ready, sleepers } := by
  rcases w.rise_cases n with ⟨-, he⟩ | ⟨before, x, behind, hx, rfl⟩
  · exact ⟨w.ready, w.sleepers, he⟩
  · rw [step_rise hx]
    split
    · exact ⟨_, _, rfl⟩
    · exact ⟨w.ready, w.sleepers, rfl⟩

end World

namespace Tour

def launch (id : String) : Order := .launch journey [] [] id

theorem step_launch (w : World) (id : String) : w.step (.order (launch id)) =
    w.newTicket.1.push (.begin w.tickets
      (.start { run with id, logLimit := w.host.setup.interpreter.maxEventLog })) := by
  have hname : journey.nameIssues = [] := by decide +kernel
  have hvalid := Journey.issues_clear rfl hname rfl (by decide)
  refine World.step_order ?_
  exact congrArg (Except.map Operation.start) (Host.newRun_valid w.host hvalid [] [] id)

end Tour

end GuidedJourney
