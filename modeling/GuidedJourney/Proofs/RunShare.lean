import GuidedJourney.Proofs.SoundWorld
import GuidedJourney.Proofs.RunView

namespace GuidedJourney

def Sequel.Owned (own : List Nat) (i t : Nat) (q : Sequel) : Prop :=
  (∀ k id rest, q ≠ .shutdown k id rest) ∧ (t ∈ own ↔ q.session = i)

def Job.Owned (own : List Nat) (id : String) (i : Nat) : Job → Prop
  | .begin t op => (∀ ids, op ≠ .shutdown ids) ∧ (t ∈ own ↔ (op.alone? id i).isSome)
  | .resume k c _ => c.ticket ∈ own ↔ k = i
  | .wake t => t ∉ own
  | _ => True

/-- What shows of the job of another run: when a timer goes off, a ticket is drawn. -/
def Job.aside : Job → List Happening
  | .fire _ _ => [.draw]
  | _ => []

theorem Operation.ending?_finish {op : Operation} {id : String} {reason : Value}
    {sequel : Nat → Sequel} (hop : op.ending? = some (id, reason, sequel))
    (hsingle : ∀ ids, op ≠ .shutdown ids) : op = .finish id reason ∧ sequel = .remove id := by
  cases op with
  | finish id' reason' => cases hop; exact ⟨rfl, rfl⟩
  | shutdown ids => exact absurd rfl (hsingle ids)
  | _ => cases hop

namespace World

variable {own : List Nat} {id : String} {i k t : Nat} {w w₁ : World} {j j' : Job}
  {f : Session Caller → CallStep}

/-- The run with the id in session `i` can be told from the others: it alone has the id, and those of its
callers have tickets of its own. -/
structure Apart (own : List Nat) (id : String) (i : Nat) (w : World) : Prop where
  sound : w.Sound
  sole : Sole id i w.host.ids
  jobs : ∀ j ∈ w.jobs, j.Owned own id i
  callers : ∀ k s, w.host.session? k = some s → ∀ q ∈ s.requests, (q.caller.ticket ∈ own ↔ k = i)
  drainers : ∀ d ∈ w.drainers, ∀ e, d.held = some e → (e.1.ticket ∈ own ↔ d.session = i)
  sequels : ∀ e ∈ w.sequels, e.2.Owned own i e.1

theorem Apart.lookup (h : w.Apart own id i) {q : Sequel} (hq : w.sequels.lookup t = some q) :
    (∃ k s, q = .register k ∧ w.host.session? k = some s ∧ (s.run.id = id ↔ k = i) ∧
      (t ∈ own ↔ k = i)) ∨
    ∃ k id', q = .remove id' k ∧ (id' = id ↔ k = i) ∧ (t ∈ own ↔ k = i) := by
  obtain ⟨before, after, hsplit, -⟩ := List.lookup_eq_some_iff.mp hq
  have hmem : (t, q) ∈ w.sequels := by rw [hsplit]; exact List.mem_append_right _ List.mem_cons_self
  obtain ⟨hsingle, hown⟩ := h.sequels _ hmem
  have hfits := h.sound.sequels _ hmem
  cases q with
  | register k =>
      have hlt : k < w.host.ids.length := hfits
      have hid := List.getElem?_eq_getElem hlt
      rw [Host.ids_getElem?] at hid
      obtain ⟨s, hs, -⟩ := Option.map_eq_some_iff.mp hid
      refine .inl ⟨k, s, rfl, hs, h.sole k _ ?_, hown⟩
      rw [Host.ids_getElem?, hs]
      rfl
  | remove id' k => exact .inr ⟨k, id', rfl, h.sole k id' hfits, hown⟩
  | shutdown k id' rest => exact absurd rfl (hsingle k id' rest)

theorem alone_part (ht : t ∈ own) (x : Upshot) :
    (w.part t id i (result t x)).alone own id i = (w.alone own id i).part t id 0 (result t x) := by
  have hclosed : (w.setHost (w.host.close i)).alone own id i =
      (w.alone own id i).setHost ((w.alone own id i).host.close 0) :=
    alone_setHost Host.alone_close
  have hfind : ((w.setHost (w.host.close i)).alone own id i).host.find id =
      ((w.setHost (w.host.close i)).host.find id).map fun _ => 0 := Host.alone_find
  unfold part
  dsimp only
  rw [← hclosed, hfind]
  cases (w.setHost (w.host.close i)).host.find id with
  | error e => exact alone_result ht _
  | ok k =>
      exact (alone_result ht x).trans (congrArg (World.result t x) (alone_setHost Host.alone_remove))

theorem Apart.alone_conclude (h : w.Apart own id i) (ht : t ∈ own) (o : Except Fault Response) :
    (w.conclude t o).alone own id i = (w.alone own id i).conclude t o := by
  cases o with
  | error f => exact alone_result ht _
  | ok r =>
      unfold conclude
      rw [alone_lookup ht]
      cases hq : w.sequels.lookup t with
      | none => exact alone_result ht _
      | some q =>
          rcases h.lookup hq with ⟨k, s, rfl, hs, hid, hk⟩ | ⟨k, id', rfl, hid, hk⟩
          · obtain rfl : k = i := hk.mp ht
            refine (alone_result ht _).trans (congrArg (World.result t _) ?_)
            exact alone_setHost (Host.alone_register hs (hid.mpr rfl))
          · obtain rfl : k = i := hk.mp ht
            obtain rfl : id' = id := hid.mpr rfl
            exact alone_part ht _

theorem Apart.alone_conclude_ne (h : w.Apart own id i) (ht : t ∉ own) (o : Except Fault Response) :
    (w.conclude t o).alone own id i = w.alone own id i := by
  rcases w.conclude_cases t o with ⟨x, he⟩ | ⟨k, id', rest, hq, -⟩
  · have hsettled : (w.settled t o).alone id i = w.host.alone id i := by
      unfold settled
      cases o with
      | error f => rfl
      | ok r =>
          cases hq : w.sequels.lookup t with
          | none => rfl
          | some q =>
              rcases h.lookup hq with ⟨k, s, rfl, hs, hid, hk⟩ | ⟨k, id', rfl, hid, hk⟩
              · exact Host.alone_register_ne hs (mt hid.mp (mt hk.mpr ht))
              · have hother : k ≠ i := mt hk.mpr ht
                exact (Host.alone_remove_ne (mt hid.mp hother)).trans (Host.alone_close_ne hother)
    rw [he, alone_result_ne ht]
    exact alone_setHost hsettled
  · rcases h.lookup hq with ⟨_, _, hq, -⟩ | ⟨_, _, hq, -⟩ <;> cases hq

/-- A step of the run's session, on behalf of a ticket of its own. -/
theorem Apart.alone_act
    (hhanded : ∀ s, w.host.session? i = some s → (w.handed i t s (f s).1).Apart own id i)
    (ht : ∀ s o, (f s).2 = some o → t ∈ own) :
    (w.act i t f).alone own id i = (w.alone own id i).act 0 t f := by
  have hview : (w.alone own id i).host.session? 0 = w.host.session? i := Host.alone_session
  cases hi : w.host.session? i with
  | none => rw [act_none hi, act_none (hview.trans hi)]
  | some s =>
      rw [act_some hi, act_some (hview.trans hi), ← alone_handed]
      cases ho : (f s).2 with
      | none => rfl
      | some o => exact (hhanded s hi).alone_conclude (ht s o ho) o

theorem Apart.alone_act_ne (hk : k ≠ i)
    (hhanded : ∀ s, w.host.session? k = some s → (w.handed k t s (f s).1).Apart own id i)
    (ht : ∀ s o, (f s).2 = some o → t ∉ own) :
    (w.act k t f).alone own id i = w.alone own id i := by
  cases hi : w.host.session? k with
  | none => rw [act_none hi]
  | some s =>
      have hkept : (w.handed k t s (f s).1).alone own id i = w.alone own id i :=
        alone_handed_ne hk s (f s).1
      rw [act_some hi]
      cases ho : (f s).2 with
      | none => exact hkept
      | some o => exact ((hhanded s hi).alone_conclude_ne (ht s o ho) o).trans hkept

theorem settle_session {h : Host} {q : Sequel} {s : Session Caller}
    (hs : (q.settle h).session? k = some s) :
    ∃ s₀, h.session? k = some s₀ ∧ s.requests = s₀.requests := by
  have hclose : ∀ i', (h.close i').session? k = some s →
      ∃ s₀, h.session? k = some s₀ ∧ s.requests = s₀.requests := by
    intro i' hs
    unfold Host.close at hs
    cases hi : h.session? i' with
    | none => rw [hi] at hs; exact ⟨s, hs, rfl⟩
    | some s' =>
        rw [hi] at hs
        rcases Host.session?_setSession hs with ⟨rfl, rfl⟩ | hs
        · exact ⟨s', hi, rfl⟩
        · exact ⟨s, hs, rfl⟩
  cases q with
  | register i' =>
      refine ⟨s, ?_, rfl⟩
      change (h.register i').session? k = some s at hs
      unfold Host.register at hs
      split at hs <;> exact hs
  | remove id' i' => exact hclose i' hs
  | shutdown i' id' rest => exact hclose i' hs

namespace Apart

theorem conclude (h : w.Apart own id i) (t : Nat) (o : Except Fault Response) :
    (w.conclude t o).Apart own id i := by
  have hsound := h.sound.conclude t o
  rcases w.conclude_cases t o with ⟨x, he⟩ | ⟨k, id', rest, hq, -⟩
  · rw [he] at hsound ⊢
    refine ⟨hsound, ?_, h.jobs, ?_, h.drainers, h.sequels⟩
    · change Sole id i (w.settled t o).ids
      rw [settled_ids]
      exact h.sole
    · intro k s hs
      change (w.settled t o).session? k = some s at hs
      unfold settled at hs
      split at hs
      · obtain ⟨s₀, hs₀, hrequests⟩ := settle_session hs
        rw [hrequests]
        exact h.callers k s₀ hs₀
      · exact h.callers k s hs
  · rcases h.lookup hq with ⟨_, _, hq, -⟩ | ⟨_, _, hq, -⟩ <;> cases hq

theorem handed (h : w.Apart own id i) {before after : Session Caller} {as : List Answer}
    (hk : w.host.session? k = some before)
    (hm : Session.Moves w.host.setup t as before after) (has : ∀ a ∈ as, a.runId = before.run.id)
    (hcallers : ∀ q ∈ after.requests, (q.caller.ticket ∈ own ↔ k = i)) :
    (w.handed k t before after).Apart own id i := by
  have hbefore := h.sound.host.attended before (List.mem_of_getElem? hk)
  have hafter := hm.attended hbefore
  -- Whoever goes on has handed in a request, or is the one that processes the requests.
  have hwaits : ∀ e, w.Waits k after e → (e.1.ticket ∈ own ↔ k = i) := by
    rintro e (he | ⟨d, hd, rfl, he⟩)
    · obtain ⟨place, hplace⟩ := List.mem_iff_getElem?.mp he
      obtain ⟨q, hq, hcaller, -⟩ := hafter.inOrder.own w.host.setup hplace
      rw [hcaller]
      exact hcallers q.1 (List.mem_append_left _ (List.mem_map_of_mem (List.mem_of_getElem? hq)))
    · exact h.drainers d hd e he
  have hsound := h.sound.handed hk hm has
  obtain ⟨ready, sleepers, drainers, he, hjobs, hdrainers⟩ := w.handed_cases k t before after
  rw [he] at hsound ⊢
  refine ⟨hsound, ?_, fun j hj => ?_, fun k' s hs => ?_, fun d hd e he => ?_, h.sequels⟩
  · change Sole id i (w.host.setSession k after).ids
    rw [Host.setSession_ids hk (hm.runId hbefore)]
    exact h.sole
  · rcases hjobs j hj with hj | hj
    · exact h.jobs j hj
    · cases hj with
      | resume hwaits' => exact hwaits _ hwaits'
      | _ => trivial
  · rcases Host.session?_setSession hs with ⟨rfl, rfl⟩ | hs
    · exact hcallers
    · exact h.callers k' s hs
  · rcases hdrainers d hd with hd | ⟨hd, hwaits'⟩
    · exact h.drainers d hd e he
    · rw [hd]
      exact hwaits e (hwaits' e he)

theorem act (h : w.Apart own id i)
    (hhanded : ∀ s, w.host.session? k = some s → (w.handed k t s (f s).1).Apart own id i) :
    (w.act k t f).Apart own id i := by
  cases hi : w.host.session? k with
  | none => rw [act_none hi]; exact h
  | some s =>
      rw [act_some hi]
      cases (f s).2 with
      | none => exact hhanded s hi
      | some o => exact (hhanded s hi).conclude t o

theorem later (h : w.Apart own id i) (delay : Binary64) (hj : j.Owned own id i)
    (hfits : j.Fits w.host.ids) : (w.later delay j).Apart own id i := by
  have hsound := h.sound.later delay hfits
  obtain ⟨ready, sleepers, he, hjobs⟩ := later_cases delay j w
  rw [he] at hsound ⊢
  refine ⟨hsound, h.sole, fun j' hj' => ?_, h.callers, h.drainers, h.sequels⟩
  rcases hjobs j' hj' with hj' | rfl
  · exact h.jobs j' hj'
  · exact hj

theorem told (h : w.Apart own id i) (t : Nat) (x : Upshot) : (w.result t x).Apart own id i :=
  ⟨h.sound.told t x, h.sole, h.jobs, h.callers, h.drainers, h.sequels⟩

end Apart

/-- A job that may come next if the run is to stay apart: it is ready as it should be, the ticket that it
draws is the run's own just if it is for the run, and the run that it starts is another one. -/
structure Due (own : List Nat) (id : String) (i : Nat) (w : World) (j : Job) : Prop where
  fits : j.Fits w.host.ids
  owned : j.Owned own id i
  drawn : ∀ k timer, j = .fire k timer → (w.tickets ∈ own ↔ k = i)
  sole : Sole id i (w.host.ids ++ j.launched)

theorem Turns.alone (ht : w.Turns j w₁ k t f) (hw : w.Sound) (hj : w.Due own id i j) :
    (j.alone? id i).isSome ↔ k = i := by
  have hids := hj.sole
  rw [← ht.ids] at hids
  cases ht with
  | call t k c => by_cases hk : k = i <;> simp [Job.alone?, Operation.alone?, hk]
  | start t r =>
      have hnew : w.host.sessions.length = i ↔ r.id = id := by
        refine (hids _ _ ?_).symm
        change (w.host.addSession r).1.ids[_]? = _
        rw [Host.addSession_ids, Host.ids, ← List.length_map fun s => s.run.id]
        exact List.getElem?_concat_length
      by_cases hr : r.id = id <;> simp [Job.alone?, Operation.alone?, hr, hnew]
  | @terminate op id' reason sequel k t hop hi =>
      obtain ⟨rfl, -⟩ := Operation.ending?_finish hop hj.owned.1
      have hid : id' = id ↔ k = i := hids k id' (hw.host.find hi)
      by_cases hk : k = i <;> simp [Job.alone?, Operation.alone?, hid, hk]
  | _ => by_cases hk : k = i <;> simp [Job.alone?, hk]

theorem Turns.owned (ht : w.Turns j w₁ k t f) (hw : w.Sound) (hj : w.Due own id i j)
    (hreply : ∀ k r, j ≠ .reply k r) : t ∈ own ↔ k = i := by
  have halone := ht.alone hw hj
  have howned := hj.owned
  cases ht with
  | call t k c => exact howned.2.trans (by simpa [Job.alone?] using halone)
  | start t r => exact howned.2.trans (by simpa [Job.alone?] using halone)
  | terminate t hop hi => exact howned.2.trans (by simpa [Job.alone?] using halone)
  | resume k c o => exact howned
  | reply k r => exact absurd rfl (hreply k r)
  | fire k timer => exact hj.drawn k timer rfl

theorem Turns.requests (ht : w.Turns j w₁ k t f) (hj : j.Fits w.host.ids) {before : Session Caller}
    (hbefore : before.Attended w.host.setup []) : ∀ q ∈ (f before).1.requests,
      q ∈ before.requests ∨ q.caller.ticket = t ∧ ∀ k r, j ≠ .reply k r := by
  intro q hq
  -- The answer of a service comes without a caller, and its ticket is nobody's.
  by_cases hreply : ∃ k r, j = .reply k r
  · obtain ⟨k', r, rfl⟩ := hreply
    cases ht with
    | reply k r =>
        have hrequests := (hbefore.inOrder.apply w.host.setup (.reply r)).2
        change (before.reply w.host.setup r).requests = before.requests ++ [] at hrequests
        rw [List.append_nil] at hrequests
        exact .inl (hrequests ▸ hq)
  · obtain ⟨new, hnew, htickets⟩ := (ht.moves hj before).requests hbefore
    rw [hnew] at hq
    rcases List.mem_append.mp hq with hq | hq
    · exact .inl hq
    · exact .inr ⟨htickets q hq, fun k r he => hreply ⟨k, r, he⟩⟩

theorem Turns.over (ht : w.Turns j w₁ k t f) {s : Session Caller} {o : Except Fault Response}
    (ho : (f s).2 = some o) (k' : Nat) (r : ServiceReply) : j ≠ .reply k' r := by
  rintro rfl
  cases ht
  cases ho

namespace Apart

theorem turned (h : w.Apart own id i) (ht : w.Turns j w₁ k t f) (hj : w.Due own id i j) :
    w₁.Apart own id i := by
  have howned := ht.owned h.sound hj
  have hsound := ht.sound h.sound
  have hids := hj.sole
  rw [← ht.ids] at hids
  cases ht with
  | start t r =>
      refine ⟨hsound, hids, h.jobs, fun k s hs => ?_, h.drainers,
        fun e he => ?_⟩
      · change (w.host.sessions ++ [_])[k]? = some s at hs
        rw [List.getElem?_append] at hs
        split at hs
        · exact h.callers k s hs
        · obtain rfl := List.mem_singleton.mp (List.mem_of_getElem? hs)
          simp [Session.requests]
      · rcases List.mem_cons.mp he with rfl | he
        · exact ⟨by simp, howned (by simp)⟩
        · exact h.sequels e he
  | terminate t hop hi =>
      refine ⟨hsound, hids, h.jobs, h.callers, h.drainers, fun e he => ?_⟩
      obtain ⟨rfl, rfl⟩ := Operation.ending?_finish hop hj.owned.1
      rcases List.mem_cons.mp he with rfl | he
      · exact ⟨by simp, howned (by simp)⟩
      · exact h.sequels e he
  | fire k timer =>
      exact ⟨hsound, hids, h.jobs, h.callers, h.drainers, h.sequels⟩
  | _ => exact h

theorem stepped (h : w.Apart own id i) (ht : w.Turns j w₁ k t f) (hj : w.Due own id i j)
    (s : Session Caller) (hs : w₁.host.session? k = some s) :
    (w₁.handed k t s (f s).1).Apart own id i := by
  have hw₁ := h.turned ht hj
  have hs' := hw₁.sound.host.attended s (List.mem_of_getElem? hs)
  rw [ht.setup] at hs'
  obtain ⟨hmoves, hsigned⟩ := ht.signs hj.fits hs
  refine hw₁.handed hs hmoves hsigned fun q hq => ?_
  rcases ht.requests hj.fits hs' q hq with hq | ⟨rfl, hreply⟩
  · exact hw₁.callers k s hs q hq
  · exact ht.owned h.sound hj hreply

theorem perform (h : w.Apart own id i) (hj : w.Due own id i j) : (w.perform j).Apart own id i := by
  have howned := hj.owned
  rcases w.perform_cases j with ⟨w₁, k, t, f, ht, he⟩ | hr
  · rw [he]
    exact (h.turned ht hj).act (h.stepped ht hj)
  · generalize w.perform j = w' at hr
    cases hr with
    | sleep t delay =>
        have ht : t ∉ own := by simpa [Operation.alone?] using howned.2
        exact h.later delay ht trivial
    | unlisted t hop hid => exact h.told t _
    | shut t => exact h.told t _
    | arm k timer delay => exact h.later delay trivial trivial
    | disarmed k timer => exact h
    | wake t => exact h.told t _

theorem alone_turn (h : w.Apart own id i) (ht : w.Turns j w₁ i t f) (hj : w.Due own id i j) :
    (w₁.act i t f).alone own id i = (w₁.alone own id i).act 0 t f :=
  alone_act (h.stepped ht hj) fun _ _ ho =>
    (ht.owned h.sound hj (ht.over ho)).mpr rfl

theorem alone_turn_ne (h : w.Apart own id i) (ht : w.Turns j w₁ k t f) (hj : w.Due own id i j)
    (hk : k ≠ i) : (w₁.act k t f).alone own id i = w₁.alone own id i :=
  alone_act_ne hk (h.stepped ht hj) fun _ _ ho => mt (ht.owned h.sound hj (ht.over ho)).mp hk

end Apart

theorem alone_arm (timer : Nat) :
    (w.arm i timer).alone own id i = (w.alone own id i).arm 0 timer := by
  have hview : (w.alone own id i).host.session? 0 = w.host.session? i := Host.alone_session
  have hfire : (Job.fire i timer).alone? id i = some (.fire 0 timer) := if_pos rfl
  unfold arm
  rw [hview]
  split
  · exact alone_later_some hfire _
  · rfl

theorem alone_sequel (ht : t ∈ own) (q : Sequel) :
    ({ w with sequels := (t, q) :: w.sequels } : World).alone own id i =
      { w.alone own id i with sequels := (t, q.alone) :: (w.alone own id i).sequels } := by
  have hsequels : ((t, q) :: w.sequels).filter (fun e => own.contains e.1) =
      (t, q) :: w.sequels.filter fun e => own.contains e.1 :=
    List.filter_cons_of_pos (by simpa using ht)
  simp only [alone, hsequels]
  rfl

theorem alone_sequel_ne (ht : t ∉ own) (q : Sequel) :
    ({ w with sequels := (t, q) :: w.sequels } : World).alone own id i = w.alone own id i := by
  have hsequels : ((t, q) :: w.sequels).filter (fun e => own.contains e.1) =
      w.sequels.filter fun e => own.contains e.1 :=
    List.filter_cons_of_neg (by simpa using ht)
  simp only [alone, hsequels]

theorem perform_first (t : Nat) (r : Run) (hempty : w.host.sessions = []) :
    w.perform (.begin t (.start r)) = act 0 t (Session.ask w.host.setup t .none ⟨.start, none⟩)
      { w with host := (w.host.addSession r).1, sequels := (t, .register 0) :: w.sequels } := by
  have hzero : w.host.sessions.length = 0 := congrArg List.length hempty
  simp only [perform, begin, Host.addSession, hzero]

theorem Apart.alone_perform (h : w.Apart own id i) (hj : w.Due own id i j)
    (halone : j.alone? id i = some j') :
    (w.perform j).alone own id i = (w.alone own id i).perform j' := by
  cases j with
  | begin t op =>
      have ht : t ∈ own := hj.owned.2.mpr (by
        obtain ⟨op', hop, -⟩ := Option.map_eq_some_iff.mp halone
        rw [hop]
        rfl)
      cases op with
      | call k c =>
          obtain ⟨rfl, rfl⟩ : k = i ∧ Job.begin t (.call 0 c) = j' := by
            simpa [Job.alone?, Operation.alone?] using halone
          exact h.alone_turn (.call t k c) hj
      | start r =>
          obtain ⟨rfl, rfl⟩ : r.id = id ∧ Job.begin t (.start r) = j' := by
            simpa [Job.alone?, Operation.alone?] using halone
          have hturns := Turns.start (w := w) t r
          obtain rfl := (hturns.alone h.sound hj).mp (by rw [halone]; rfl)
          obtain ⟨hhost, hempty⟩ : (w.host.addSession r).1.alone r.id w.host.sessions.length = _ ∧ _ :=
            Host.alone_addSession r rfl
          refine (h.alone_turn hturns hj).trans (.trans ?_ (perform_first t r hempty).symm)
          let added := w.setHost (w.host.addSession r).1
          have hsequel : ({ added with
              sequels := (t, .register w.host.sessions.length) :: added.sequels } : World).alone own
                r.id w.host.sessions.length = _ := alone_sequel ht _
          rw [alone_setHost hhost] at hsequel
          exact congrArg (World.act 0 t _) hsequel
      | finish id' reason =>
          obtain ⟨rfl, rfl⟩ : id' = id ∧ Job.begin t (.finish id' reason) = j' := by
            simpa [Job.alone?, Operation.alone?] using halone
          have hfind : (w.alone own id' i).host.find id' = (w.host.find id').map fun _ => 0 :=
            Host.alone_find
          change (w.terminate t id' reason (.remove id')).alone own id' i =
            (w.alone own id' i).terminate t id' reason (.remove id')
          unfold terminate
          rw [hfind]
          cases hid : w.host.find id' with
          | error e => exact alone_result ht _
          | ok k =>
              have hturns : w.Turns (.begin t (.finish id' reason)) _ k t _ := .terminate t rfl hid
              obtain rfl := (hturns.alone h.sound hj).mp (by rw [halone]; rfl)
              exact (h.alone_turn hturns hj).trans (congrArg (World.act 0 t _) (alone_sequel ht _))
      | sleep delay => cases halone
      | shutdown ids => cases halone
  | resume k c o =>
      obtain ⟨rfl, rfl⟩ : k = i ∧ Job.resume 0 c o = j' := by simpa [Job.alone?] using halone
      exact h.alone_turn (.resume k c o) hj
  | reply k r =>
      obtain ⟨rfl, rfl⟩ : k = i ∧ Job.reply 0 r = j' := by simpa [Job.alone?] using halone
      exact h.alone_turn (.reply k r) hj
  | arm k timer =>
      obtain ⟨rfl, rfl⟩ : k = i ∧ Job.arm 0 timer = j' := by simpa [Job.alone?] using halone
      exact alone_arm timer
  | fire k timer =>
      obtain ⟨rfl, rfl⟩ : k = i ∧ Job.fire 0 timer = j' := by simpa [Job.alone?] using halone
      exact h.alone_turn (.fire k timer) hj
  | wake t => cases halone

theorem Turns.alone_ne (ht : w.Turns j w₁ k t f) (hw : w.Sound) (hj : w.Due own id i j) (hk : k ≠ i) :
    w₁.alone own id i = (w.alone own id i).after j.aside := by
  have howned := ht.owned hw hj
  have halone := mt (ht.alone hw hj).mp hk
  cases ht with
  | start t r =>
      have hlength : w.host.sessions.length ≠ i := hk
      have hadded : (w.setHost (w.host.addSession r).1).alone own id i = w.alone own id i :=
        alone_setHost (Host.alone_addSession_ne r hlength)
      have ht : t ∉ own := mt (howned (by simp)).mp hk
      exact (alone_sequel_ne (w := w.setHost (w.host.addSession r).1) ht _).trans hadded
  | terminate t hop hi =>
      obtain ⟨rfl, rfl⟩ := Operation.ending?_finish hop hj.owned.1
      exact alone_sequel_ne (mt (howned (by simp)).mp hk) _
  | _ => rfl

/-- The run sees nothing of the job of another one, but that its timers draw tickets. -/
theorem Apart.alone_perform_ne (h : w.Apart own id i) (hj : w.Due own id i j)
    (halone : j.alone? id i = none) :
    (w.perform j).alone own id i = (w.alone own id i).after j.aside := by
  rcases w.perform_cases j with ⟨w₁, k, t, f, ht, he⟩ | hr
  · have hk : k ≠ i := fun hk => by
      have hsome := (ht.alone h.sound hj).mpr hk
      rw [halone] at hsome
      cases hsome
    rw [he, h.alone_turn_ne ht hj hk]
    exact ht.alone_ne h.sound hj hk
  · have howned := hj.owned
    have hown : ∀ {t op}, j = .begin t op → t ∉ own := by
      rintro t op rfl ht
      have hsome := hj.owned.2.mp ht
      rw [Option.map_eq_none_iff.mp halone] at hsome
      cases hsome
    generalize w.perform j = w' at hr
    cases hr with
    | sleep t delay => exact alone_later_none rfl delay
    | unlisted t hop hid => exact alone_result_ne (hown rfl) _
    | shut t => exact alone_result_ne (hown rfl) _
    | arm k timer delay =>
        have hfire : (Job.fire k timer).alone? id i = none :=
          if_neg fun hk => by simp [Job.alone?, hk] at halone
        exact alone_later_none hfire delay
    | disarmed k timer => rfl
    | wake t => exact alone_result_ne howned _

end World

end GuidedJourney
