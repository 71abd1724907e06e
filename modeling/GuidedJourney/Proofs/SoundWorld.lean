import GuidedJourney.Proofs.FieldUpdate
import GuidedJourney.Proofs.SessionMoves
import GuidedJourney.Proofs.WorldStep
import Mathlib.Data.List.Infix

namespace GuidedJourney

def Sequel.Fits (ids : List String) : Sequel → Prop
  | .register i => i < ids.length
  | .remove id i | .shutdown i id _ => ids[i]? = some id

theorem getElem?_later {α : Type} {xs ys : List α} (h : xs <+: ys) {i : Nat} {a : α}
    (hi : xs[i]? = some a) : ys[i]? = some a := by
  obtain ⟨hlt, rfl⟩ := List.getElem?_eq_some_iff.mp hi
  exact List.prefix_iff_getElem?.mp h i hlt

def Sole (id : String) (i : Nat) (ids : List String) : Prop :=
  ∀ k id', ids[k]? = some id' → (id' = id ↔ k = i)

theorem Sole.earlier {id : String} {i : Nat} {ids ids' : List String} (h : Sole id i ids')
    (hp : ids <+: ids') : Sole id i ids :=
  fun k id' hk => h k id' (getElem?_later hp hk)

theorem Sole.of_nodup {id : String} {i : Nat} {ids : List String} (h : ids.Nodup)
    (hi : ids[i]? = some id) : Sole id i ids := by
  intro k id' hk
  obtain ⟨hlt, hid⟩ := List.getElem?_eq_some_iff.mp hk
  obtain ⟨hlt', rfl⟩ := List.getElem?_eq_some_iff.mp hi
  rw [← hid]
  exact h.getElem_inj_iff

theorem Sequel.Fits.later {ids ids' : List String} {q : Sequel} (h : q.Fits ids)
    (hp : ids <+: ids') : q.Fits ids' := by
  cases q with
  | register i => exact Nat.lt_of_lt_of_le h hp.length_le
  | remove id i => exact getElem?_later hp h
  | shutdown i id rest => exact getElem?_later hp h

@[simp] theorem Call.direct_direct (c : Call) : c.direct.direct = c.direct := by
  rcases c with _ | _ | _ | d
  · rfl
  · rfl
  · rfl
  · cases d <;> rfl

def Job.Fits (ids : List String) : Job → Prop
  | .begin _ (.call _ c) => c.direct = c
  | .resume k _ (.ok r) => ids[k]? = some r.runId
  | _ => True

theorem Job.Fits.later {ids ids' : List String} {j : Job} (h : j.Fits ids) (hp : ids <+: ids') :
    j.Fits ids' := by
  cases j with
  | begin t op => cases op <;> exact h
  | resume k c o =>
      cases o with
      | error f => trivial
      | ok r => exact getElem?_later hp h
  | _ => trivial

def Job.noted (u : Setup) : Job → List Answer
  | .resume _ c o => Desk.own u c o
  | _ => []

def Job.launched : Job → List String
  | .begin _ (.start r) => [r.id]
  | _ => []

theorem Operation.ending?_launched {op : Operation} {x : String × Value × (Nat → Sequel)}
    (hop : op.ending? = some x) {t : Nat} : (Job.begin t op).launched = [] := by
  cases op with
  | start r => cases hop
  | _ => rfl

theorem Order.operation_fits {h : Host} {o : Order} {op : Operation} (ho : o.operation h = .ok op)
    (t : Nat) (ids : List String) : (Job.begin t op).Fits ids := by
  cases o with
  | launch j globals state id =>
      obtain ⟨r, rfl, -⟩ := operation_launch ho rfl
      trivial
  | launchNamed journey state id =>
      obtain ⟨r, rfl, -⟩ := operation_launch ho rfl
      trivial
  | call i c =>
      cases ho
      exact c.direct_direct
  | _ => cases ho; trivial

namespace Host

def ids (h : Host) : List String := h.sessions.map fun s => s.run.id

theorem ids_getElem? (h : Host) (i : Nat) : h.ids[i]? = (h.session? i).map fun s => s.run.id :=
  List.getElem?_map ..

theorem session?_setSession {h : Host} {i k : Nat} {s s' : Session Caller}
    (hs : (h.setSession i s').session? k = some s) : k = i ∧ s = s' ∨ h.session? k = some s := by
  simp only [setSession, session?, List.getElem?_set] at hs
  split at hs
  · split at hs <;> cases hs
    exact .inl ⟨Eq.symm ‹_›, rfl⟩
  · exact .inr hs

theorem setSession_ids {h : Host} {i : Nat} {s s' : Session Caller} (hs : h.session? i = some s)
    (hid : s'.run.id = s.run.id) : (h.setSession i s').ids = h.ids := by
  refine List.ext_getElem? fun k => ?_
  simp only [ids_getElem?, setSession, session?, List.getElem?_set]
  split
  · rename_i hk
    subst hk
    rw [session?] at hs
    obtain ⟨hlt, rfl⟩ := List.getElem?_eq_some_iff.mp hs
    simp [hlt, hid]
  · rfl

theorem addSession_ids (h : Host) (r : Run) : (h.addSession r).1.ids = h.ids ++ [r.id] :=
  List.map_append

theorem close_ids (h : Host) (i : Nat) : (h.close i).ids = h.ids := by
  unfold close
  cases hi : h.session? i with
  | none => rfl
  | some s => exact setSession_ids hi rfl

theorem register_ids (h : Host) (i : Nat) : (h.register i).ids = h.ids := by
  unfold register
  split <;> rfl

/-- The sessions are in order, with answers of their runs, and the runs that are listed are found in them
under their ids. -/
structure Sound (h : Host) : Prop where
  attended : ∀ s ∈ h.sessions, s.Attended h.setup []
  signed : ∀ s ∈ h.sessions, ∀ a ∈ s.answers, a.runId = s.run.id
  listed : ∀ e ∈ h.runs, h.ids[e.2]? = some e.1
  apart : h.runIds.Nodup

namespace Sound

variable {h : Host}

theorem find_iff (hs : h.Sound) {id : String} {i : Nat} : h.find id = .ok i ↔ (id, i) ∈ h.runs := by
  have hmem : ∀ {k : Nat}, h.find id = .ok k → (id, k) ∈ h.runs := by
    intro k hk
    obtain ⟨before, after, hruns, -⟩ := List.lookup_eq_some_iff.mp (find_ok.mp hk)
    rw [hruns]
    exact List.mem_append_right _ List.mem_cons_self
  refine ⟨hmem, fun hi => ?_⟩
  cases hk : h.find id with
  | error e =>
      have hnone := List.lookup_eq_none_iff.mp (find_error hk) (id, i) hi
      simp at hnone
  | ok k =>
      cases List.inj_on_of_nodup_map hs.apart (hmem hk) hi rfl
      rfl

theorem find (hs : h.Sound) {id : String} {i : Nat} (hi : h.find id = .ok i) : h.ids[i]? = some id :=
  hs.listed (id, i) (hs.find_iff.mp hi)

theorem setSession (hs : h.Sound) {i : Nat} {s s' : Session Caller} (hi : h.session? i = some s)
    (hid : s'.run.id = s.run.id) (ha : s'.Attended h.setup [])
    (hsigned : ∀ a ∈ s'.answers, a.runId = s'.run.id) : (h.setSession i s').Sound where
  attended s'' hs'' := by
    rcases List.mem_or_eq_of_mem_set hs'' with hs'' | rfl
    · exact hs.attended s'' hs''
    · exact ha
  signed s'' hs'' := by
    rcases List.mem_or_eq_of_mem_set hs'' with hs'' | rfl
    · exact hs.signed s'' hs''
    · exact hsigned
  listed e he := by
    rw [setSession_ids hi hid]
    exact hs.listed e he
  apart := hs.apart

theorem addSession (hs : h.Sound) (r : Run) : (h.addSession r).1.Sound where
  attended s hs' := by
    rcases List.mem_append.mp hs' with hs' | hs'
    · exact hs.attended s hs'
    · obtain rfl := List.mem_singleton.mp hs'
      exact .fresh h.setup r []
  signed s hs' := by
    rcases List.mem_append.mp hs' with hs' | hs'
    · exact hs.signed s hs'
    · obtain rfl := List.mem_singleton.mp hs'
      exact fun a ha => absurd ha List.not_mem_nil
  listed e he := by
    rw [addSession_ids]
    exact getElem?_later (List.prefix_append ..) (hs.listed e he)
  apart := hs.apart

theorem register (hs : h.Sound) (i : Nat) : (h.register i).Sound := by
  unfold Host.register
  cases hi : h.session? i with
  | none => exact hs
  | some s =>
      refine ⟨hs.attended, hs.signed, fun e he => ?_, Fields.put_nodup hs.apart _ _⟩
      rcases Fields.mem_put he with rfl | he
      · change h.ids[i]? = some s.run.id
        rw [ids_getElem?, hi]
        rfl
      · exact hs.listed e he

theorem close (hs : h.Sound) (i : Nat) : (h.close i).Sound := by
  unfold Host.close
  cases hi : h.session? i with
  | none => exact hs
  | some s =>
      have hmem := List.mem_of_getElem? hi
      have ha : s.Attended h.setup [] := hs.attended s hmem
      exact hs.setSession hi rfl (ha.apply h.setup (i := .close) trivial) (hs.signed s hmem)

theorem remove (hs : h.Sound) (id : String) : (h.remove id).Sound where
  attended := hs.attended
  signed := hs.signed
  listed e he := hs.listed e (List.mem_of_mem_filter he)
  apart := hs.apart.sublist (List.filter_sublist.map _)

end Sound

end Host

namespace World

structure Sound (w : World) : Prop where
  host : w.host.Sound
  jobs : ∀ j ∈ w.jobs, j.Fits w.host.ids
  drainers : ∀ d ∈ w.drainers, ∀ c r, d.held = some (c, .ok r) → w.host.ids[d.session]? = some r.runId
  sequels : ∀ e ∈ w.sequels, e.2.Fits w.host.ids

variable {w : World}

theorem Turns.moves {j : Job} {w₁ : World} {i t : Nat} {f : Session Caller → CallStep}
    (ht : w.Turns j w₁ i t f) (hj : j.Fits w.host.ids) (before : Session Caller) :
    Session.Moves w.host.setup t (j.noted w.host.setup) before (f before).1 := by
  have hask : ∀ d : Demand, (⟨d, none⟩ : Request).direct = ⟨d, none⟩ →
      Session.Moves w.host.setup t [] before
        (Session.ask w.host.setup t .none ⟨d, none⟩ before).1 := by
    intro d hd
    have hmoves := Session.Moves.input (u := w.host.setup) (s := before)
      (i := .submit ⟨t, .none⟩ ⟨d, none⟩) trivial rfl
    rwa [Session.apply, hd] at hmoves
  cases ht with
  | call t i c =>
      have hc : c.direct = c := hj
      have htakes := Session.begin_takes w.host.setup t c before
      rw [hc] at htakes
      exact htakes.unnoted.moves
  | start t r => exact hask .start rfl
  | terminate t hop hi => exact hask _ rfl
  | resume i c o => exact (Session.resume_takes w.host.setup c o before).moves
  | reply i r => exact .input (i := .reply r) trivial trivial
  | fire i timer => exact .input (i := .fire ⟨w.tickets, .none⟩ timer) rfl rfl

theorem Turns.signs {j : Job} {w₁ : World} {i t : Nat} {f : Session Caller → CallStep}
    (ht : w.Turns j w₁ i t f) (hj : j.Fits w.host.ids) {before : Session Caller}
    (hi : w₁.host.session? i = some before) :
    Session.Moves w₁.host.setup t (j.noted w.host.setup) before (f before).1 ∧
      ∀ a ∈ j.noted w.host.setup, a.runId = before.run.id := by
  refine ⟨?_, fun a ha => ?_⟩
  · rw [ht.setup]
    exact ht.moves hj before
  · cases ht with
    | resume i c o =>
        obtain ⟨r, rfl, hr⟩ := Desk.own_runId ha
        have hid : w.host.ids[i]? = some r.runId := hj
        rw [Host.ids_getElem?, hi] at hid
        exact hr.trans (Option.some.inj hid).symm
    | _ => cases ha

theorem Turns.sound {j : Job} {w₁ : World} {i t : Nat} {f : Session Caller → CallStep}
    (ht : w.Turns j w₁ i t f) (hw : w.Sound) : w₁.Sound := by
  cases ht with
  | start t r =>
      have hp : w.host.ids <+: (w.host.addSession r).1.ids := by
        rw [Host.addSession_ids]
        exact List.prefix_append ..
      refine ⟨hw.host.addSession r, fun j hj => (hw.jobs j hj).later hp,
        fun d hd c r hr => getElem?_later hp (hw.drainers d hd c r hr), fun e he => ?_⟩
      rcases List.mem_cons.mp he with rfl | he
      · change w.host.sessions.length < (w.host.addSession r).1.ids.length
        rw [Host.addSession_ids]
        simp [Host.ids]
      · exact (hw.sequels e he).later hp
  | @terminate op id reason sequel i t hop hi =>
      refine ⟨hw.host, hw.jobs, hw.drainers, fun e he => ?_⟩
      rcases List.mem_cons.mp he with rfl | he
      · have hid := hw.host.find hi
        unfold Operation.ending? at hop
        split at hop <;> cases hop <;> exact hid
      · exact hw.sequels e he
  | call t i c => exact hw
  | resume i c o => exact hw
  | reply i r => exact hw
  | fire i timer => exact ⟨hw.host, hw.jobs, hw.drainers, hw.sequels⟩

theorem Turns.ids {j : Job} {w₁ : World} {i t : Nat} {f : Session Caller → CallStep}
    (ht : w.Turns j w₁ i t f) : w₁.host.ids = w.host.ids ++ j.launched := by
  cases ht with
  | start t r => exact w.host.addSession_ids r
  | terminate t hop hi => rw [Operation.ending?_launched hop, List.append_nil]
  | _ => exact (List.append_nil _).symm

theorem Rests.launched {j : Job} {w' : World} (hr : w.Rests j w') : j.launched = [] := by
  cases hr with
  | unlisted t hop hid => exact Operation.ending?_launched hop
  | _ => rfl

theorem settle_ids (h : Host) (q : Sequel) : (q.settle h).ids = h.ids := by
  cases q with
  | register i => exact h.register_ids i
  | remove id i => exact h.close_ids i
  | shutdown i id rest => exact h.close_ids i

theorem settled_ids (t : Nat) (o : Except Fault Response) (w : World) :
    (w.settled t o).ids = w.host.ids := by
  unfold settled
  split
  · exact settle_ids _ _
  · rfl

theorem conclude_ids (t : Nat) (o : Except Fault Response) (w : World) :
    (w.conclude t o).host.ids = w.host.ids := by
  rcases w.conclude_cases t o with ⟨x, he⟩ | ⟨i, id, rest, -, he⟩ <;>
    rw [he] <;> exact settled_ids t o w

namespace Sound

theorem handed (hw : w.Sound) {i t : Nat} {before after : Session Caller} {as : List Answer}
    (hi : w.host.session? i = some before) (hm : Session.Moves w.host.setup t as before after)
    (has : ∀ a ∈ as, a.runId = before.run.id) : (w.handed i t before after).Sound := by
  obtain ⟨ready, sleepers, drainers, he, hjobs, hdrainers⟩ := w.handed_cases i t before after
  have hmem := List.mem_of_getElem? hi
  have ha := hw.host.attended before hmem
  have hid := hm.runId ha
  have hids := Host.setSession_ids hi hid
  have hwaits : ∀ c r, w.Waits i after (c, .ok r) → w.host.ids[i]? = some r.runId := by
    rintro c r (hc | ⟨d, hd, rfl, hc⟩)
    · rw [(hm.attended ha).runId hc rfl, hid, Host.ids_getElem?, hi]
      rfl
    · exact hw.drainers d hd c r hc
  rw [he]
  refine ⟨hw.host.setSession hi hid (hm.attended ha) fun a ha' => ?_, fun j hj => ?_,
    fun d hd c r hr => ?_, ?_⟩
  · obtain ⟨more, hanswers, hmore⟩ := hm.answers ha
    rw [hanswers] at ha'
    rcases List.mem_append.mp ha' with ha' | ha'
    · rcases List.mem_append.mp ha' with ha' | ha'
      · exact (hw.host.signed before hmem a ha').trans hid.symm
      · exact (has a ha').trans hid.symm
    · exact hmore a ha'
  · rw [hids]
    rcases hjobs j hj with hj | hj
    · exact hw.jobs j hj
    · cases hj with
      | @resume e hc =>
          obtain ⟨c, o⟩ := e
          cases o with
          | error f => trivial
          | ok r => exact hwaits c r hc
      | _ => trivial
  · rw [hids]
    rcases hdrainers d hd with hd | ⟨rfl, hd⟩
    · exact hw.drainers d hd c r hr
    · exact hwaits c r (hd _ hr)
  · rw [hids]
    exact hw.sequels

theorem settled (hw : w.Sound) (t : Nat) (o : Except Fault Response) : (w.settled t o).Sound := by
  unfold World.settled
  split
  · rename_i q _
    cases q with
    | register i => exact hw.host.register i
    | remove id i => exact (hw.host.close i).remove id
    | shutdown i id rest => exact (hw.host.close i).remove id
  · exact hw.host

theorem conclude (hw : w.Sound) (t : Nat) (o : Except Fault Response) : (w.conclude t o).Sound := by
  have hids := w.settled_ids t o
  have hsettled : (w.setHost (w.settled t o)).Sound := by
    refine ⟨hw.settled t o, ?_, ?_, ?_⟩ <;> rw [setHost, hids]
    · exact hw.jobs
    · exact hw.drainers
    · exact hw.sequels
  rcases w.conclude_cases t o with ⟨x, he⟩ | ⟨i, id, rest, -, he⟩
  · rw [he]
    exact ⟨hsettled.host, hsettled.jobs, hsettled.drainers, hsettled.sequels⟩
  · rw [he]
    refine ⟨hsettled.host, fun j hj => ?_, hsettled.drainers, hsettled.sequels⟩
    rcases List.mem_cons.mp hj with rfl | hj
    · trivial
    · exact hsettled.jobs j hj

theorem act (hw : w.Sound) {i t : Nat} {f : Session Caller → CallStep}
    (hm : ∀ before, w.host.session? i = some before → ∃ as,
      Session.Moves w.host.setup t as before (f before).1 ∧ ∀ a ∈ as, a.runId = before.run.id) :
    (w.act i t f).Sound := by
  cases hi : w.host.session? i with
  | none =>
      rw [act_none hi]
      exact hw
  | some before =>
      obtain ⟨as, hmoves, has⟩ := hm before hi
      have hhanded := hw.handed hi hmoves has
      rw [act_some hi]
      cases (f before).2 with
      | none => exact hhanded
      | some o => exact hhanded.conclude t o

theorem later (hw : w.Sound) (delay : Binary64) {j : Job} (hj : j.Fits w.host.ids) :
    (w.later delay j).Sound := by
  obtain ⟨ready, sleepers, he, hjobs⟩ := later_cases delay j w
  rw [he]
  refine ⟨hw.host, fun j' hj' => ?_, hw.drainers, hw.sequels⟩
  rcases hjobs j' hj' with hj' | rfl
  · exact hw.jobs j' hj'
  · exact hj

theorem told (hw : w.Sound) (t : Nat) (x : Upshot) : (w.result t x).Sound :=
  ⟨hw.host, hw.jobs, hw.drainers, hw.sequels⟩

theorem push (hw : w.Sound) {j : Job} (hj : j.Fits w.host.ids) : (w.push j).Sound := by
  refine ⟨hw.host, fun j' hj' => ?_, hw.drainers, hw.sequels⟩
  rcases mem_push.mp hj' with hj' | rfl
  · exact hw.jobs j' hj'
  · exact hj

theorem draw (hw : w.Sound) : w.newTicket.1.Sound := ⟨hw.host, hw.jobs, hw.drainers, hw.sequels⟩

theorem perform (hw : w.Sound) {j : Job} (hj : j.Fits w.host.ids) : (w.perform j).Sound := by
  rcases w.perform_cases j with ⟨w₁, i, t, f, ht, he⟩ | hr
  · rw [he]
    exact (ht.sound hw).act fun before hi => ⟨_, ht.signs hj hi⟩
  · generalize w.perform j = w' at hr
    cases hr with
    | sleep t delay => exact hw.later delay trivial
    | arm i timer delay => exact hw.later delay trivial
    | unlisted t hop hid => exact hw.told t _
    | shut t => exact hw.told t _
    | wake t => exact hw.told t _
    | disarmed i timer => exact hw

theorem work (hw : w.Sound) {j : Job} {rest : List Job} (hready : w.ready = j :: rest) :
    ({ w with ready := rest } : World).Sound ∧ j.Fits w.host.ids := by
  have hmem : ∀ j' ∈ w.jobs, j'.Fits w.host.ids := hw.jobs
  rw [World.jobs, hready, List.cons_append, List.forall_mem_cons] at hmem
  exact ⟨⟨hw.host, hmem.2, hw.drainers, hw.sequels⟩, hmem.1⟩

theorem step (hw : w.Sound) (h : Happening) : (w.step h).Sound := by
  cases h with
  | order o =>
      rcases w.order_cases o with ⟨e, -, he⟩ | ⟨op, hop, he⟩
      · rw [he]
        exact hw.draw.told _ _
      · rw [he]
        exact hw.draw.push (Order.operation_fits hop _ _)
  | work =>
      rcases w.work_cases with ⟨-, he⟩ | ⟨j, rest, hready, he⟩
      · rw [he]
        exact hw
      · obtain ⟨hrest, hj⟩ := hw.work hready
        rw [he]
        exact hrest.perform hj
  | pass now =>
      obtain ⟨clock, he⟩ := w.pass_frame now
      rw [he]
      exact ⟨hw.host, hw.jobs, hw.drainers, hw.sequels⟩
  | rise n =>
      have hjobs : ∀ j ∈ (w.step (.rise n)).jobs, j.Fits w.host.ids :=
        fun j hj => hw.jobs j ((w.rise_jobs n).mp hj)
      obtain ⟨ready, sleepers, he⟩ := w.rise_frame n
      rw [he] at hjobs ⊢
      exact ⟨hw.host, hjobs, hw.drainers, hw.sequels⟩
  | draw => exact hw.draw

theorem after (hw : w.Sound) (hs : List Happening) : (w.after hs).Sound :=
  after_induction (fun _ h hw => hw.step h) w hs hw

theorem fresh (u : Setup) (catalog : Option Catalog) :
    ({ host := { setup := u, catalog } } : World).Sound :=
  ⟨⟨by simp, by simp, by simp, List.nodup_nil⟩, by simp [World.jobs], by simp, by simp⟩

theorem act_ids (hw : w.Sound) {i t : Nat} {f : Session Caller → CallStep}
    (hm : ∀ before, w.host.session? i = some before →
      ∃ as, Session.Moves w.host.setup t as before (f before).1) :
    (w.act i t f).host.ids = w.host.ids := by
  cases hi : w.host.session? i with
  | none => rw [act_none hi]
  | some before =>
      obtain ⟨ready, sleepers, drainers, he, -⟩ := w.handed_cases i t before (f before).1
      obtain ⟨as, hmoves⟩ := hm before hi
      have hid := hmoves.runId (hw.host.attended before (List.mem_of_getElem? hi))
      have hhanded : (w.handed i t before (f before).1).host.ids = w.host.ids := by
        rw [he]
        exact Host.setSession_ids hi hid
      rw [act_some hi]
      cases (f before).2 with
      | none => exact hhanded
      | some o => rw [← hhanded]; exact conclude_ids t o _

theorem perform_ids (hw : w.Sound) {j : Job} (hj : j.Fits w.host.ids) :
    (w.perform j).host.ids = w.host.ids ++ j.launched := by
  rcases w.perform_cases j with ⟨w₁, i, t, f, ht, he⟩ | hr
  · rw [he, ← ht.ids]
    exact (ht.sound hw).act_ids fun before hi => ⟨_, (ht.signs hj hi).1⟩
  · rw [hr.host, hr.launched, List.append_nil]

theorem step_ids (hw : w.Sound) (h : Happening) : w.host.ids <+: (w.step h).host.ids := by
  cases h with
  | order o =>
      rcases w.order_cases o with ⟨e, -, he⟩ | ⟨op, -, he⟩ <;> rw [he] <;> exact List.prefix_refl _
  | work =>
      rcases w.work_cases with ⟨-, he⟩ | ⟨j, rest, hready, he⟩
      · rw [he]
      · obtain ⟨hrest, hj⟩ := hw.work hready
        rw [he, hrest.perform_ids hj]
        exact List.prefix_append ..
  | pass now => obtain ⟨clock, he⟩ := w.pass_frame now; rw [he]
  | rise n => obtain ⟨ready, sleepers, he⟩ := w.rise_frame n; rw [he]
  | draw => exact List.prefix_refl _

theorem after_ids (hw : w.Sound) (hs : List Happening) : w.host.ids <+: (w.after hs).host.ids := by
  induction hs generalizing w with
  | nil => exact List.prefix_refl _
  | cons h hs ih => exact (hw.step_ids h).trans (ih (hw.step h))

theorem after_id (hw : w.Sound) (hs : List Happening) {i : Nat} {id : String}
    (hi : w.host.ids[i]? = some id) : (w.after hs).host.ids[i]? = some id :=
  getElem?_later (hw.after_ids hs) hi

end Sound

end World

end GuidedJourney
