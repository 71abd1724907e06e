import GuidedJourney.Proofs.RunShare
import GuidedJourney.Proofs.SharedRecorder

namespace GuidedJourney

variable {own : List Nat} {id : String} {i : Nat}

/-- An order as the run with the id in session `i` sees it, if it is for that run. -/
def Order.alone? (id : String) (i : Nat) : Order → Option Order
  | .launch j globals state id' => if id' = id then some (.launch j globals state id') else none
  | .launchNamed journey state id' => if id' = id then some (.launchNamed journey state id') else none
  | .call k c => if k = i then some (.call 0 c) else none
  | .finish id' reason => if id' = id then some (.finish id' reason) else none
  | .sleep _ | .shutdown => none

theorem Order.alone?_cases {o o' : Order} (ho : o.alone? id i = some o') :
    (o.launches = [id] ∧ o' = o) ∨ (∃ c, o = .call i c ∧ o' = .call 0 c) ∨
      ∃ reason, o = .finish id reason ∧ o' = o := by
  cases o with
  | launch j globals state id' =>
      obtain ⟨rfl, rfl⟩ : id' = id ∧ Order.launch j globals state id' = o' := by
        simpa [alone?] using ho
      exact .inl ⟨rfl, rfl⟩
  | launchNamed journey state id' =>
      obtain ⟨rfl, rfl⟩ : id' = id ∧ Order.launchNamed journey state id' = o' := by
        simpa [alone?] using ho
      exact .inl ⟨rfl, rfl⟩
  | call k c =>
      obtain ⟨rfl, rfl⟩ : k = i ∧ Order.call 0 c = o' := by simpa [alone?] using ho
      exact .inr (.inl ⟨c, rfl, rfl⟩)
  | finish id' reason =>
      obtain ⟨rfl, rfl⟩ : id' = id ∧ Order.finish id' reason = o' := by simpa [alone?] using ho
      exact .inr (.inr ⟨reason, rfl, rfl⟩)
  | sleep delay => cases ho
  | shutdown => cases ho

theorem Order.alone?_launch {o : Order} (ho : o.launches = [id]) : o.alone? id i = some o := by
  cases o with
  | launch j globals state id' => exact if_pos (List.head_eq_of_cons_eq ho)
  | launchNamed journey state id' => exact if_pos (List.head_eq_of_cons_eq ho)
  | _ => cases ho

/-- An order for the run comes to the same on the host with no other run. -/
theorem Order.operation_alone {o o' : Order} (ho : o.alone? id i = some o') (h : Host) :
    (∃ e, o.operation h = .error e ∧ o'.operation (h.alone id i) = .error e) ∨
    ∃ op op', o.operation h = .ok op ∧ op.alone? id i = some op' ∧
      o'.operation (h.alone id i) = .ok op' := by
  rcases alone?_cases ho with ⟨hid, rfl⟩ | ⟨c, rfl, rfl⟩ | ⟨reason, rfl, rfl⟩
  · have hsame : o'.operation (h.alone id i) = o'.operation h := by
      cases o' with
      | launch j globals state id' => rfl
      | launchNamed journey state id' => rfl
      | _ => cases hid
    rw [hsame]
    cases hop : o'.operation h with
    | error e => exact .inl ⟨e, rfl, rfl⟩
    | ok op =>
        obtain ⟨r, rfl, hr⟩ := operation_launch hop hid
        exact .inr ⟨_, _, rfl, if_pos hr, rfl⟩
  · exact .inr ⟨_, _, rfl, if_pos rfl, rfl⟩
  · exact .inr ⟨_, _, rfl, if_pos rfl, rfl⟩

theorem Order.operation_alone_none {o : Order} {op : Operation} {h : Host} (ho : o.alone? id i = none)
    (hop : o.operation h = .ok op) : op.alone? id i = none := by
  have hlaunch : ∀ {id'}, o.launches = [id'] → id' ≠ id → op.alone? id i = none := by
    intro id' hid hne
    obtain ⟨r, rfl, rfl⟩ := operation_launch hop hid
    exact if_neg hne
  cases o with
  | launch j globals state id' => exact hlaunch rfl (by simpa [Order.alone?] using ho)
  | launchNamed journey state id' => exact hlaunch rfl (by simpa [Order.alone?] using ho)
  | call k c =>
      cases hop
      exact if_neg (by simpa [Order.alone?] using ho)
  | finish id' reason =>
      cases hop
      exact if_neg (by simpa [Order.alone?] using ho)
  | sleep delay => cases hop; rfl
  | shutdown => cases hop; rfl

/-- What comes from outside as the run with the id in session `i` sees it: its orders, and the time. -/
def Happening.asked? (id : String) (i : Nat) : Happening → Option Happening
  | .order o => (o.alone? id i).map .order
  | .pass now => some (.pass now)
  | .work | .rise _ | .draw => none

theorem Order.alone?_alone {o o' : Order} (ho : o.alone? id i = some o') : o'.alone? id 0 = some o' := by
  rcases alone?_cases ho with ⟨hid, rfl⟩ | ⟨c, rfl, rfl⟩ | ⟨reason, rfl, rfl⟩
  · exact alone?_launch hid
  · rfl
  · exact if_pos rfl

namespace World

def draws (w : World) : Happening → Bool
  | .order _ | .draw => true
  | .work => match w.ready with
    | .fire _ _ :: _ => true
    | _ => false
  | .pass _ | .rise _ => false

def own? (id : String) (i : Nat) (w : World) : Happening → Option Happening
  | .work => (w.ready.head?.bind (Job.alone? id i)).map fun _ => .work
  | .rise n => (w.sleepers[n]?.bind fun x => x.job.alone? id i).map fun _ =>
    .rise (sift (Job.alone? id i) (w.sleepers.take n)).length
  | h => h.asked? id i

/-- The part of the run in what happens. Of others nothing is left of it but the tickets that they draw. -/
def share (id : String) (i : Nat) (w : World) (h : Happening) : List Happening :=
  match w.own? id i h with
  | some h' => [h']
  | none => if w.draws h then [.draw] else []

/-- The part of the run in a play. -/
def shares (id : String) (i : Nat) (w : World) : List Happening → List Happening
  | [] => []
  | h :: hs => w.share id i h ++ (w.step h).shares id i hs

/-- The tickets that are drawn for the run during a play. -/
def drawn (id : String) (i : Nat) (w : World) : List Happening → List Nat
  | [] => []
  | h :: hs => (if w.draws h && (w.own? id i h).isSome then [w.tickets] else []) ++
    (w.step h).drawn id i hs

variable {w : World}

theorem share_some {h h' : Happening} (hown : w.own? id i h = some h') : w.share id i h = [h'] := by
  rw [share, hown]

theorem share_none {h : Happening} (hown : w.own? id i h = none) :
    w.share id i h = if w.draws h then [.draw] else [] := by
  rw [share, hown]

theorem own?_order (o : Order) : w.own? id i (.order o) = (o.alone? id i).map .order := rfl

theorem share_asked (h : Happening) :
    (w.share id i h).filterMap (Happening.asked? id 0) = (h.asked? id i).toList := by
  have hnone : ∀ {h : Happening}, w.own? id i h = none →
      (w.share id i h).filterMap (Happening.asked? id 0) = [] := by
    intro h hown
    rw [share_none hown]
    split <;> rfl
  cases h with
  | order o =>
      cases ho : o.alone? id i with
      | none =>
          have hown : w.own? id i (.order o) = none := by rw [own?_order, ho]; rfl
          rw [hnone hown, Happening.asked?, ho]
          rfl
      | some o' =>
          have hown : w.own? id i (.order o) = some (.order o') := by rw [own?_order, ho]; rfl
          rw [share_some hown, Happening.asked?, ho]
          simp [Happening.asked?, Order.alone?_alone ho]
  | work =>
      cases hown : w.own? id i .work with
      | none => exact hnone hown
      | some h' =>
          obtain ⟨j, -, rfl⟩ := Option.map_eq_some_iff.mp hown
          rw [share_some hown]
          rfl
  | rise n =>
      cases hown : w.own? id i (.rise n) with
      | none => exact hnone hown
      | some h' =>
          obtain ⟨j, -, rfl⟩ := Option.map_eq_some_iff.mp hown
          rw [share_some hown]
          rfl
  | pass now => rfl
  | draw => rfl

/-- The part of a run has all that is asked of the run, and in the same order and at the same moments. -/
theorem shares_asked (hs : List Happening) :
    (w.shares id i hs).filterMap (Happening.asked? id 0) =
      hs.filterMap (Happening.asked? id i) := by
  induction hs generalizing w with
  | nil => rfl
  | cons h hs ih =>
      rw [shares, List.filterMap_append, share_asked, ih]
      cases hh : h.asked? id i with
      | none => rw [List.filterMap_cons_none hh]; rfl
      | some h' => rw [List.filterMap_cons_some hh]; rfl

theorem later_tickets (w : World) (delay : Binary64) (j : Job) :
    (w.later delay j).tickets = w.tickets := by
  obtain ⟨ready, sleepers, he, -⟩ := later_cases delay j w
  rw [he]

theorem perform_tickets (j : Job) (w : World) :
    (w.perform j).tickets = w.tickets + j.aside.length := by
  rcases w.perform_cases j with ⟨w₁, i, t, f, ht, he⟩ | hr
  · obtain ⟨_, _, _, _, _, hact, -⟩ := w₁.act_frame i t f
    rw [he, hact]
    cases ht with
    | @terminate op id reason sequel i t hop hi => rfl
    | _ => rfl
  · generalize w.perform j = w' at hr
    cases hr with
    | sleep t delay => exact later_tickets w delay _
    | arm i timer delay => exact later_tickets w delay _
    | _ => rfl

theorem step_tickets (w : World) (h : Happening) :
    (w.step h).tickets = w.tickets + (w.draws h).toNat := by
  cases h with
  | order o => rcases w.order_cases o with ⟨e, -, he⟩ | ⟨op, -, he⟩ <;> rw [he] <;> rfl
  | work =>
      rcases w.work_cases with ⟨hready, he⟩ | ⟨j, rest, hready, he⟩
      · rw [he, draws, hready]
        rfl
      · rw [he, perform_tickets, draws, hready]
        cases j <;> rfl
  | pass now => obtain ⟨clock, he⟩ := w.pass_frame now; rw [he]; rfl
  | rise n => obtain ⟨ready, sleepers, he⟩ := w.rise_frame n; rw [he]; rfl
  | draw => rfl

theorem drawn_ge {hs : List Happening} {t : Nat} (ht : t ∈ w.drawn id i hs) : w.tickets ≤ t := by
  induction hs generalizing w with
  | nil => cases ht
  | cons h hs ih =>
      rcases List.mem_append.mp ht with ht | ht
      · split at ht
        · exact Nat.le_of_eq (List.mem_singleton.mp ht).symm
        · cases ht
      · have hle := ih ht
        rw [step_tickets] at hle
        exact Nat.le_trans (Nat.le_add_right _ _) hle

theorem drawn_cons {h : Happening} {hs : List Happening}
    (hown : ∀ t, w.tickets ≤ t → (t ∈ own ↔ t ∈ w.drawn id i (h :: hs))) :
    (w.draws h → (w.tickets ∈ own ↔ (w.own? id i h).isSome)) ∧
    ∀ t, (w.step h).tickets ≤ t → (t ∈ own ↔ t ∈ (w.step h).drawn id i hs) := by
  have hstep := w.step_tickets h
  constructor
  · intro hdraws
    rw [hdraws] at hstep
    -- A ticket that is drawn later has a greater number.
    have hlater : w.tickets ∉ (w.step h).drawn id i hs := fun ht => by
      have hle := drawn_ge ht
      rw [hstep] at hle
      exact absurd hle (Nat.not_succ_le_self _)
    rw [hown _ (Nat.le_refl _), drawn, hdraws, Bool.true_and]
    cases (w.own? id i h).isSome <;> simp [hlater]
  · intro t ht
    rw [hown t (by omega), drawn, List.mem_append]
    refine or_iff_right fun hnow => ?_
    split at hnow
    · rename_i hdraws
      obtain rfl := List.mem_singleton.mp hnow
      rw [hstep, (Bool.and_eq_true_iff.mp hdraws).1] at ht
      exact absurd ht (Nat.not_succ_le_self _)
    · cases hnow

theorem alone_order {o o' : Order} (ho : o.alone? id i = some o')
    (hticket : w.tickets ∈ own) :
    (w.step (.order o)).alone own id i = (w.alone own id i).step (.order o') := by
  rcases Order.operation_alone ho w.host with ⟨e, hop, hop'⟩ | ⟨op, op', hop, hsome, hop'⟩
  · rw [step_refused hop, step_refused (w := w.alone own id i) hop']
    exact alone_result hticket _
  · rw [step_order hop, step_order (w := w.alone own id i) hop']
    have hjob : (Job.begin w.tickets op).alone? id i = some (.begin w.tickets op') := by
      rw [Job.alone?, hsome]
      rfl
    exact alone_push_some hjob

theorem alone_order_ne {o : Order} (ho : o.alone? id i = none)
    (hticket : w.tickets ∉ own) :
    (w.step (.order o)).alone own id i = (w.alone own id i).step .draw := by
  rcases w.order_cases o with ⟨e, -, he⟩ | ⟨op, hop, he⟩
  · rw [he]
    exact alone_result_ne hticket _
  · rw [he]
    have hjob : (Job.begin w.tickets op).alone? id i = none := by
      rw [Job.alone?, Order.operation_alone_none ho hop]
      rfl
    exact alone_push_none hjob

theorem alone_pass (now : Binary64) :
    (w.step (.pass now)).alone own id i = (w.alone own id i).step (.pass now) := by
  have hclock : (w.alone own id i).clock = w.clock := rfl
  rw [step, step, World.pass, World.pass, hclock]
  split <;> rfl

theorem own?_rise {before behind : List Sleeper} {x : Sleeper}
    (hx : w.sleepers = before ++ x :: behind) : w.own? id i (.rise before.length) =
      (x.job.alone? id i).map fun _ => .rise (sift (Job.alone? id i) before).length := by
  have hbefore : w.sleepers.take before.length = before := by rw [hx, List.take_left]
  rw [own?, sleepers_at hx, hbefore]
  rfl

theorem alone_rise (n : Nat) : (w.step (.rise n)).alone own id i =
    (w.alone own id i).after (w.share id i (.rise n)) := by
  rcases w.rise_cases n with ⟨hnone, he⟩ | ⟨before, x, behind, hx, rfl⟩
  · rw [he, share_none (by rw [own?, hnone]; rfl)]
    rfl
  · rw [step_rise hx]
    cases halone : x.job.alone? id i with
    | none =>
        have hkept : sift (Job.alone? id i) w.sleepers = sift (Job.alone? id i) (before ++ behind) := by
          rw [hx, sift_append, sift_cons_none halone, sift_append]
        rw [share_none (by rw [own?_rise hx, halone]; rfl)]
        split
        · simp only [alone, hkept, List.filterMap_append, List.filterMap_cons_none halone,
            List.filterMap_nil, List.append_nil]
          rfl
        · rfl
    | some j =>
        have hview : (w.alone own id i).sleepers =
            sift (Job.alone? id i) before ++ ⟨x.due, j⟩ :: sift (Job.alone? id i) behind := by
          rw [alone, hx, sift_split halone]
        have hready : (w.ready ++ [x.job]).filterMap (Job.alone? id i) =
            w.ready.filterMap (Job.alone? id i) ++ [j] := by
          rw [List.filterMap_append, List.filterMap_cons_some halone, List.filterMap_nil]
        rw [share_some (by rw [own?_rise hx, halone]; rfl), after, after, step_rise hview, apply_ite (alone own id i)]
        simp only [alone, hready, sift_append]
        rfl

theorem own?_cases {m m' : Happening} (hown : w.own? id i m = some m') :
    (∃ o o', m = .order o ∧ m' = .order o') ∨ (m = .work ∧ m' = .work) ∨
      (∃ now, m = .pass now ∧ m' = .pass now) ∨
      ∃ before x behind j, w.sleepers = before ++ x :: behind ∧ x.job.alone? id i = some j ∧
        m = .rise before.length ∧ m' = .rise (sift (Job.alone? id i) before).length := by
  cases m with
  | order o =>
      obtain ⟨o', -, rfl⟩ := Option.map_eq_some_iff.mp hown
      exact .inl ⟨o, o', rfl, rfl⟩
  | work =>
      obtain ⟨j, -, rfl⟩ := Option.map_eq_some_iff.mp hown
      exact .inr (.inl ⟨rfl, rfl⟩)
  | pass now =>
      cases hown
      exact .inr (.inr (.inl ⟨now, rfl, rfl⟩))
  | rise n =>
      rcases w.rise_cases n with ⟨hnone, -⟩ | ⟨before, x, behind, hx, rfl⟩
      · rw [own?, hnone] at hown
        cases hown
      · rw [own?_rise hx] at hown
        obtain ⟨j, halone, rfl⟩ := Option.map_eq_some_iff.mp hown
        exact .inr (.inr (.inr ⟨before, x, behind, j, hx, halone, rfl, rfl⟩))
  | draw => cases hown

theorem mem_alone_sleepers {y : Sleeper} (hy : y ∈ (w.alone own id i).sleepers) :
    ∃ x ∈ w.sleepers, x.due = y.due :=
  mem_sift hy

theorem share_throughout {P : World → Happening → Prop} {m : Happening}
    (hdraw : ∀ w : World, P w .draw)
    (hown : ∀ m', w.own? id i m = some m' → P (w.alone own id i) m') :
    (w.alone own id i).Throughout P (w.share id i m) := by
  cases hm : w.own? id i m with
  | none =>
      rw [share_none hm]
      split
      · exact throughout_singleton.mpr (hdraw _)
      · trivial
  | some m' =>
      rw [share_some hm]
      exact throughout_singleton.mpr (hown m' hm)

/-- What happens in time to all does so to the run. -/
theorem share_onTime {m : Happening} (h : w.OnTime m) :
    (w.alone own id i).Throughout OnTime (w.share id i m) := by
  refine share_throughout (fun _ => trivial) fun m' hown => ?_
  rcases own?_cases hown with ⟨o, o', rfl, rfl⟩ | ⟨rfl, rfl⟩ | ⟨now, rfl, rfl⟩ |
    ⟨before, x, behind, j, hx, halone, rfl, rfl⟩
  · trivial
  · trivial
  · intro y hy
    obtain ⟨x, hx, hdue⟩ := mem_alone_sleepers hy
    exact hdue ▸ h x hx
  · have hview : (w.alone own id i).sleepers =
        sift (Job.alone? id i) before ++ ⟨x.due, j⟩ :: sift (Job.alone? id i) behind := by
      rw [alone, hx, sift_split halone]
    intro y hy z hz
    rw [sleepers_at hview] at hy
    obtain rfl := Option.some.inj hy
    obtain ⟨z', hz', hdue⟩ := mem_alone_sleepers hz
    exact hdue ▸ h x (sleepers_at hx) z' hz'

/-- What happens in its turn to all does so to the run. -/
theorem share_inTurn {m : Happening} (h : w.InTurn m) :
    (w.alone own id i).Throughout InTurn (w.share id i m) := by
  have hclock : (w.alone own id i).clock = w.clock := rfl
  refine share_throughout (fun _ => trivial) fun m' hown => ?_
  rcases own?_cases hown with ⟨o, o', rfl, rfl⟩ | ⟨rfl, rfl⟩ | ⟨now, rfl, rfl⟩ |
    ⟨before, x, behind, j, hx, halone, rfl, rfl⟩
  · trivial
  · intro y hy
    obtain ⟨x, hx, hdue⟩ := mem_alone_sleepers hy
    rw [isDue, hclock, ← hdue]
    exact h x hx
  · refine ⟨?_, fun y hy => ?_⟩
    · rw [alone, h.1]
      rfl
    · obtain ⟨x, hx, hdue⟩ := mem_alone_sleepers hy
      rw [isDue, hclock, ← hdue]
      exact h.2 x hx
  · have hview : (w.alone own id i).sleepers =
        sift (Job.alone? id i) before ++ ⟨x.due, j⟩ :: sift (Job.alone? id i) behind := by
      rw [alone, hx, sift_split halone]
    obtain ⟨hfirst, hearlier⟩ := h x (sleepers_at hx)
    intro y hy
    rw [sleepers_at hview] at hy
    obtain rfl := Option.some.inj hy
    refine ⟨fun z hz => ?_, fun z hz => ?_⟩
    · obtain ⟨z', hz', hdue⟩ := mem_alone_sleepers hz
      exact hdue ▸ hfirst z' hz'
    · rw [hview, List.take_left] at hz
      obtain ⟨z', hz', hdue⟩ := mem_sift hz
      refine hdue ▸ hearlier z' ?_
      rw [hx, List.take_left]
      exact hz'

namespace Apart

theorem draw (h : w.Apart own id i) : w.newTicket.1.Apart own id i :=
  ⟨h.sound.draw, h.sole, h.jobs, h.callers, h.drainers, h.sequels⟩

theorem push (h : w.Apart own id i) {j : Job} (hfits : j.Fits w.host.ids) (hj : j.Owned own id i) :
    (w.push j).Apart own id i := by
  refine ⟨h.sound.push hfits, h.sole, fun j' hj' => ?_, h.callers, h.drainers,
    h.sequels⟩
  rcases mem_push.mp hj' with hj' | rfl
  · exact h.jobs j' hj'
  · exact hj

theorem order (h : w.Apart own id i) {o : Order} (ho : o ≠ .shutdown)
    (hticket : w.tickets ∈ own ↔ (o.alone? id i).isSome) :
    (w.step (.order o)).Apart own id i := by
  rcases w.order_cases o with ⟨e, -, he⟩ | ⟨op, hop, he⟩
  · rw [he]
    exact h.draw.told _ _
  · rw [he]
    refine h.draw.push (Order.operation_fits hop _ _) ⟨?_, hticket.trans ?_⟩
    · rintro ids rfl
      cases o with
      | launch j globals state id' => obtain ⟨r, hr, -⟩ := Order.operation_launch hop rfl; cases hr
      | launchNamed journey state id' => obtain ⟨r, hr, -⟩ := Order.operation_launch hop rfl; cases hr
      | shutdown => exact ho rfl
      | _ => cases hop
    · cases ho' : o.alone? id i with
      | none =>
          rw [Order.operation_alone_none ho' hop]
          exact Iff.rfl
      | some o' =>
          rcases Order.operation_alone ho' w.host with ⟨e, hop', -⟩ | ⟨op', op'', hop', hop'', -⟩
          · rw [hop] at hop'
            cases hop'
          · rw [hop] at hop'
            cases hop'
            rw [hop'']
            rfl

theorem pass (h : w.Apart own id i) (now : Binary64) : (w.step (.pass now)).Apart own id i := by
  have hsound := h.sound.step (.pass now)
  obtain ⟨clock, he⟩ := w.pass_frame now
  rw [he] at hsound ⊢
  exact ⟨hsound, h.sole, h.jobs, h.callers, h.drainers, h.sequels⟩

theorem rise (h : w.Apart own id i) (n : Nat) : (w.step (.rise n)).Apart own id i := by
  have hsound := h.sound.step (.rise n)
  have hjobs : ∀ j ∈ (w.step (.rise n)).jobs, j.Owned own id i :=
    fun j hj => h.jobs j ((w.rise_jobs n).mp hj)
  obtain ⟨ready, sleepers, he⟩ := w.rise_frame n
  rw [he] at hsound hjobs ⊢
  exact ⟨hsound, h.sole, hjobs, h.callers, h.drainers, h.sequels⟩

theorem due (h : w.Apart own id i) {j : Job} {rest : List Job} (hready : w.ready = j :: rest)
    (hids : Sole id i (w.step .work).host.ids)
    (hticket : w.draws .work → (w.tickets ∈ own ↔ (w.own? id i .work).isSome)) :
    ({ w with ready := rest } : World).Apart own id i ∧
      ({ w with ready := rest } : World).Due own id i j := by
  obtain ⟨hrest, hj⟩ := h.sound.work hready
  have howned : ∀ j' ∈ w.jobs, j'.Owned own id i := h.jobs
  rw [World.jobs, hready, List.cons_append, List.forall_mem_cons] at howned
  refine ⟨⟨hrest, h.sole, howned.2, h.callers, h.drainers, h.sequels⟩,
    ⟨hj, howned.1, ?_, ?_⟩⟩
  · rintro k timer rfl
    refine (hticket (by rw [draws, hready])).trans ?_
    rw [own?, hready]
    by_cases hk : k = i <;> simp [Job.alone?, hk]
  · rw [step_work hready, hrest.perform_ids hj] at hids
    exact hids

/-- What happens is to the run what its own part is to what the run sees, and keeps the run apart. -/
theorem step (h : w.Apart own id i) {m : Happening} (hm : m ≠ .order .shutdown)
    (hids : Sole id i (w.step m).host.ids)
    (hticket : w.draws m → (w.tickets ∈ own ↔ (w.own? id i m).isSome)) :
    (w.step m).Apart own id i ∧
      (w.step m).alone own id i = (w.alone own id i).after (w.share id i m) := by
  cases m with
  | order o =>
      have hticket : w.tickets ∈ own ↔ (o.alone? id i).isSome := by
        simpa [own?, Happening.asked?] using hticket rfl
      refine ⟨h.order (fun ho => hm (congrArg _ ho)) hticket, ?_⟩
      cases ho : o.alone? id i with
      | none =>
          rw [share_none (by rw [own?_order, ho]; rfl)]
          exact alone_order_ne ho (by simp [hticket, ho])
      | some o' =>
          rw [share_some (by rw [own?_order, ho]; rfl)]
          exact alone_order ho (by simp [hticket, ho])
  | work =>
      rcases w.work_cases with ⟨hready, he⟩ | ⟨j, rest, hready, he⟩
      · rw [he, share, own?, draws, hready]
        exact ⟨h, rfl⟩
      · obtain ⟨hrest, hj⟩ := h.due hready hids hticket
        rw [he]
        refine ⟨hrest.perform hj, ?_⟩
        cases halone : j.alone? id i with
        | none =>
            have hview : ({ w with ready := rest } : World).alone own id i = w.alone own id i := by
              simp only [alone, hready, List.filterMap_cons_none halone]
            have haside : (if w.draws .work then [.draw] else []) = j.aside := by
              rw [draws, hready]
              cases j <;> rfl
            rw [share_none (by rw [own?, hready, List.head?_cons, Option.bind_some, halone]; rfl), haside,
              ← hview]
            exact hrest.alone_perform_ne hj halone
        | some j' =>
            rw [share_some (by rw [own?, hready, List.head?_cons, Option.bind_some, halone]; rfl)]
            have hview : (w.alone own id i).ready = j' :: rest.filterMap (Job.alone? id i) := by
              rw [alone, hready, List.filterMap_cons_some halone]
            rw [World.after, World.after, step_work hview]
            exact hrest.alone_perform hj halone
  | pass now => exact ⟨h.pass now, alone_pass now⟩
  | rise n => exact ⟨h.rise n, alone_rise n⟩
  | draw => exact ⟨h.draw, rfl⟩

/-- To the run, a play is its own part alone, in which things happen in time or in their turn if they do in
the play. -/
theorem after (h : w.Apart own id i) {hs : List Happening} (hm : .order .shutdown ∉ hs)
    (hids : Sole id i (w.after hs).host.ids)
    (hown : ∀ t, w.tickets ≤ t → (t ∈ own ↔ t ∈ w.drawn id i hs)) :
    (w.after hs).alone own id i = (w.alone own id i).after (w.shares id i hs) ∧
      (w.Throughout OnTime hs → (w.alone own id i).Throughout OnTime (w.shares id i hs)) ∧
      (w.Throughout InTurn hs → (w.alone own id i).Throughout InTurn (w.shares id i hs)) := by
  induction hs generalizing w with
  | nil => exact ⟨rfl, fun _ => trivial, fun _ => trivial⟩
  | cons m hs ih =>
      rw [List.mem_cons, not_or] at hm
      obtain ⟨hnow, hlater⟩ := drawn_cons hown
      obtain ⟨hstep, hview⟩ := h.step (Ne.symm hm.1)
        (hids.earlier ((h.sound.step m).after_ids hs)) hnow
      obtain ⟨hrest, hontime, hinturn⟩ := ih hstep hm.2 hids hlater
      rw [shares, after_append, throughout_append, throughout_append, ← hview]
      exact ⟨hrest, fun ⟨hfirst, hlast⟩ => ⟨share_onTime hfirst, hontime hlast⟩,
        fun ⟨hfirst, hlast⟩ => ⟨share_inTurn hfirst, hinturn hlast⟩⟩

theorem fresh (u : Setup) (catalog : Option Catalog) :
    ({ host := { setup := u, catalog } } : World).Apart own id i :=
  ⟨.fresh u catalog, by simp [Sole, Host.ids], by simp [World.jobs],
    by simp [Host.session?], by simp, by simp⟩

end Apart

theorem alone_result? {t : Nat} (ht : t ∈ own) : (w.alone own id i).result? t = w.result? t := by
  change (w.results.filter fun e => own.contains e.1).lookup t = w.results.lookup t
  induction w.results with
  | nil => rfl
  | cons e rest ih =>
      rcases e with ⟨t', x⟩
      by_cases he : t = t'
      · subst he
        simp [ht]
      · have hne : (t == t') = false := by simpa using he
        rw [List.filter_cons, List.lookup_cons, hne]
        split
        · rw [List.lookup_cons, hne]
          exact ih
        · exact ih

/-- Runs with ids of their own do not get in each other's way. Whatever is asked of a host, of all its runs
and in any order in which things can happen, each run is in the end as it is if only its own part is
played, at the same moments and without the other runs: its session, all that it still waits for, the
results of its tickets and the answers that the recorder has under its id are the same. Sleepers go off at
any time from their due on and in any order, also those that are due together or at no time that can be
told; if all go off in time, so do those of the run when it is alone. And if everything happens in its turn,
so that those that are due together go off in the order in which they were put off, it does so for the run
alone. -/
theorem after_isolated (u : Setup) (catalog : Option Catalog) (hs : List Happening)
    (hsingle : .order .shutdown ∉ hs) :
    let w₀ : World := { host := { setup := u, catalog } }
    let w := w₀.after hs
    w.host.ids.Nodup → ∀ i s, w.host.session? i = some s →
      let id := s.run.id
      let own := w₀.drawn id i hs
      let v := w₀.after (w₀.shares id i hs)
      (w₀.shares id i hs).filterMap (Happening.asked? id 0) = hs.filterMap (Happening.asked? id i) ∧
      (w₀.Throughout OnTime hs → w₀.Throughout OnTime (w₀.shares id i hs)) ∧
      (w₀.Throughout InTurn hs → w₀.Throughout InTurn (w₀.shares id i hs)) ∧
      v = w.alone own id i ∧
      v.host.sessions = [s] ∧ v.clock = w.clock ∧
      (v.host.find id = (w.host.find id).map fun _ => 0) ∧
      (∀ t ∈ own, v.result? t = w.result? t) ∧
      (w₀.records (w₀.shares id i hs)).filter (·.runId == id) =
        (w₀.records hs).filter (·.runId == id) := by
  intro w₀ w hids i s hs' id own v
  have hid : w.host.ids[i]? = some id := by rw [Host.ids_getElem?, hs']; rfl
  have hsole : Sole id i w.host.ids := .of_nodup hids hid
  have hfresh : w₀.Apart own id i := .fresh u catalog
  obtain ⟨hview, hontime, hinturn⟩ : w.alone own id i = v ∧
      (w₀.Throughout OnTime hs → w₀.Throughout OnTime _) ∧
      (w₀.Throughout InTurn hs → w₀.Throughout InTurn _) :=
    hfresh.after hsingle hsole fun t _ => Iff.rfl
  have hsessions : v.host.sessions = [s] := by
    rw [← hview]
    change (w.host.session? i).toList = [s]
    rw [hs']
    rfl
  -- Both recorders have of the run what its session has recorded.
  have hrecords := hfresh.sound.records_run hs hsole
  have hsole' : Sole id 0 v.host.ids := by
    rw [Host.ids, hsessions]
    exact .of_nodup (List.nodup_singleton _) rfl
  have hrecords' := hfresh.sound.records_run (w₀.shares id i hs) hsole'
  refine ⟨shares_asked hs, hontime, hinturn, hview.symm, hsessions, ?_, ?_, fun t ht => ?_, ?_⟩
  · rw [← hview]
    rfl
  · rw [← hview]
    exact Host.alone_find
  · rw [← hview]
    exact alone_result? ht
  · refine hrecords'.trans (Eq.trans ?_ hrecords.symm)
    change Option.elim v.host.sessions[0]? [] _ = Option.elim (w.host.session? i) [] _
    rw [hsessions, hs']
    rfl

end World

namespace Tour

def meanwhile : List Happening := [
  .order (launch "first"), .order (launch "second"), .work, .work, .work, .work,
  .order (.call 0 (.dispatch (.str "ask") .null .null .null .null)),
  .order (.call 1 (.tool "record_input" (.obj (pace "slow")))), .work, .work, .work,
  .pass (.ofNat 5), .rise 0, .work, .work,
  .order (.call 0 (.tool "record_input" (.obj (pace "quick")))), .work, .work,
  .order (.finish "first" .null), .work, .work]

end Tour

theorem World.after_isolated_tour :
    let w₀ : World := { host := { setup := Tour.setup } }
    let w := w₀.after Tour.meanwhile
    let part := w₀.shares "second" 1 Tour.meanwhile
    .order .shutdown ∉ Tour.meanwhile ∧ w.host.ids.Nodup ∧
    w₀.Throughout InTurn Tour.meanwhile ∧ w₀.Throughout InTurn part ∧
    (w₀.records Tour.meanwhile).map (·.runId) = ["second", "first"] ∧
    ∃ s, w.host.session? 1 = some s ∧ (w₀.after part).host.sessions = [s] ∧
      (w₀.after part).result? 3 = w.result? 3 ∧
      (w₀.records part).filter (·.runId == "second") =
        (w₀.records Tour.meanwhile).filter (·.runId == "second") := by
  intro w₀ w part
  have hsingle : Happening.order .shutdown ∉ Tour.meanwhile := by simp [Tour.meanwhile, Tour.launch]
  have hids : w.host.ids = ["first", "second"] := by
    simp only [w, w₀, Tour.meanwhile, World.after, Tour.step_launch]
    decide +kernel
  have hnodup : w.host.ids.Nodup := by
    rw [hids]
    decide
  have hrecords : (w₀.records Tour.meanwhile).map (·.runId) = ["second", "first"] := by
    simp only [w₀, Tour.meanwhile, World.records, World.recorded, Tour.step_launch]
    decide +kernel
  have hturns : w₀.Throughout InTurn Tour.meanwhile := by
    simp only [w₀, Tour.meanwhile, World.Throughout, Tour.step_launch]
    decide +kernel
  have hdrawn : 3 ∈ w₀.drawn "second" 1 Tour.meanwhile := by
    simp only [w₀, Tour.meanwhile, World.drawn, Tour.step_launch]
    decide +kernel
  have hsecond : w.host.ids[1]? = some "second" := by rw [hids]; rfl
  rw [Host.ids_getElem?] at hsecond
  obtain ⟨s, hs, hid⟩ := Option.map_eq_some_iff.mp hsecond
  obtain ⟨-, -, hinturn, -, hsessions, -, -, hresults, hanswers⟩ :=
    World.after_isolated Tour.setup none Tour.meanwhile hsingle hnodup 1 s hs
  rw [hid] at hinturn hsessions hresults hanswers
  exact ⟨hsingle, hnodup, hturns, hinturn hturns, hrecords, s, hs, hsessions, hresults 3 hdrawn, hanswers⟩

end GuidedJourney
