import GuidedJourney.Proofs.SoundWorld
import Mathlib.Data.Set.Card

namespace GuidedJourney

/-- What becomes known of the run in a session when a call is over well. -/
inductive Notice where
  | started (session : Nat)
  | ended (session : Nat)
  deriving DecidableEq

def Notice.session : Notice → Nat
  | .started i | .ended i => i

def Sequel.notice : Sequel → Notice
  | .register i => .started i
  | .remove _ i | .shutdown i _ _ => .ended i

/-- The run in session `i` was started under the id, and nothing has become known of the id since. -/
def Notice.Stands (ids : List String) (ns : List Notice) (id : String) (i : Nat) : Prop :=
  ∃ before after, ns = before ++ .started i :: after ∧ ids[i]? = some id ∧
    ∀ n ∈ after, ids[n.session]? ≠ some id

def Notice.enter (id : String) (runs : List (String × Nat)) : Notice → List (String × Nat)
  | .started i => Fields.put id i runs
  | .ended _ => runs.filter (·.1 != id)

theorem Notice.stands_concat {ids : List String} {ns : List Notice} {n : Notice} {id : String}
    {i : Nat} : Stands ids (ns ++ [n]) id i ↔
      ids[n.session]? = some id ∧ n = .started i ∨ ids[n.session]? ≠ some id ∧ Stands ids ns id i := by
  constructor
  · rintro ⟨before, after, hns, hid, hafter⟩
    rcases List.eq_nil_or_concat after with rfl | ⟨after', m, rfl⟩
    · obtain ⟨rfl, hn⟩ := List.append_inj' hns rfl
      obtain rfl := List.head_eq_of_cons_eq hn
      exact .inl ⟨hid, rfl⟩
    · rw [List.concat_eq_append, ← List.cons_append, ← List.append_assoc] at hns
      obtain ⟨rfl, hm⟩ := List.append_inj' hns rfl
      obtain rfl := List.head_eq_of_cons_eq hm
      rw [List.concat_eq_append] at hafter
      exact .inr ⟨hafter n (by simp), before, after', rfl, hid, fun m hm => hafter m (by simp [hm])⟩
  · rintro (⟨hid, rfl⟩ | ⟨hne, before, after, rfl, hid, hafter⟩)
    · exact ⟨ns, [], rfl, hid, by simp⟩
    · refine ⟨before, after ++ [n], by simp, hid, fun m hm => ?_⟩
      rcases List.mem_append.mp hm with hm | hm
      · exact hafter m hm
      · rwa [List.mem_singleton.mp hm]

def Notice.Entered (runs : List (String × Nat)) (h : Host) : Option Notice → Prop
  | none => h.runs = runs
  | some n => ∃ key, h.ids[n.session]? = some key ∧ h.runs = n.enter key runs

/-- Entering what has become known keeps the table as the notices have it. -/
theorem Notice.enter_stands {ids : List String} {ns : List Notice} {runs : List (String × Nat)}
    (h : ∀ id i, runs.lookup id = some i ↔ Stands ids ns id i) {n : Notice} {key : String}
    (hn : ids[n.session]? = some key) (id : String) (i : Nat) :
    (n.enter key runs).lookup id = some i ↔ Stands ids (ns ++ [n]) id i := by
  rw [stands_concat, ← h, hn]
  cases n with
  | started k =>
      rw [enter, Fields.lookup_put]
      by_cases he : id = key
      · simp [he]
      · simp [he, Ne.symm he]
  | ended k =>
      rw [enter, Fields.lookup_filter]
      by_cases he : id = key
      · simp [he]
      · simp [he, Ne.symm he]

namespace World

def outcome? (w : World) : Job → Option (Nat × Except Fault Response)
  | .begin t (.call i c) =>
    (w.host.session? i).bind fun s => (s.begin w.host.setup t c).2.map (t, ·)
  | .resume i c o =>
    (w.host.session? i).bind fun s => (s.resume w.host.setup c o).2.map (c.ticket, ·)
  | _ => none

def known (w : World) (t : Nat) : Except Fault Response → Option Notice
  | .ok _ => (w.sequels.lookup t).map Sequel.notice
  | .error _ => none

/-- What becomes known with a job. -/
def notice? (w : World) (j : Job) : Option Notice := (w.outcome? j).bind fun e => w.known e.1 e.2

def news (w : World) : Happening → List Notice
  | .work => (w.ready.head?.bind w.notice?).toList
  | _ => []

/-- What becomes known during a play, in order. -/
def notices (w : World) : List Happening → List Notice
  | [] => []
  | h :: hs => w.news h ++ (w.step h).notices hs

variable {w w₁ : World} {j : Job} {i t : Nat} {f : Session Caller → CallStep}

theorem outcome_ending {op : Operation} {x : String × Value × (Nat → Sequel)}
    (hop : op.ending? = some x) (t : Nat) (w : World) : w.outcome? (.begin t op) = none := by
  cases op with
  | call i c => cases hop
  | _ => rfl

theorem Rests.outcome {w' : World} (hr : w.Rests j w') : w.outcome? j = none := by
  cases hr with
  | unlisted t hop hid => exact outcome_ending hop t w
  | _ => rfl

theorem Turns.outcome (ht : w.Turns j w₁ i t f) :
    w.outcome? j = (w₁.host.session? i).bind fun s => (f s).2.map (t, ·) := by
  cases ht with
  | terminate t hop hi =>
      rw [outcome_ending hop]
      cases w.host.session? i <;> rfl
  | start t r => cases (w.host.addSession r).1.session? w.host.sessions.length <;> rfl
  | call t i c => rfl
  | resume i c o => rfl
  | reply i r => cases w.host.session? i <;> rfl
  | fire i timer =>
      change none = (w.host.session? i).bind _
      cases w.host.session? i <;> rfl

theorem Turns.sequels (ht : w.Turns j w₁ i t f) {s : Session Caller} {o : Except Fault Response}
    (ho : (f s).2 = some o) : w₁.sequels = w.sequels := by
  cases ht with
  | start t r => cases ho
  | terminate t hop hi => cases ho
  | _ => rfl

theorem Turns.runs (ht : w.Turns j w₁ i t f) : w₁.host.runs = w.host.runs := by
  cases ht <;> rfl

theorem settle_runs {h : Host} {q : Sequel} (hq : q.Fits h.ids) :
    ∃ key, h.ids[q.notice.session]? = some key ∧ (q.settle h).runs = q.notice.enter key h.runs := by
  cases q with
  | register i =>
      have hlt : i < h.ids.length := hq
      have hid := List.getElem?_eq_getElem hlt
      rw [Host.ids_getElem?] at hid
      obtain ⟨s, hs, hkey⟩ := Option.map_eq_some_iff.mp hid
      refine ⟨s.run.id, ?_, ?_⟩
      · change h.ids[i]? = _
        rw [Host.ids_getElem?, hs]
        rfl
      · change (h.register i).runs = Fields.put _ i h.runs
        rw [Host.register_some hs]
  | remove id i => exact ⟨id, hq, by rw [Sequel.settle, Host.remove, Host.close_runs]; rfl⟩
  | shutdown i id rest => exact ⟨id, hq, by rw [Sequel.settle, Host.remove, Host.close_runs]; rfl⟩

theorem conclude_runs (hw : w.Sound) (t : Nat) (o : Except Fault Response) :
    Notice.Entered w.host.runs (w.conclude t o).host (w.known t o) := by
  have hhost : (w.conclude t o).host = w.settled t o := by
    rcases w.conclude_cases t o with ⟨x, he⟩ | ⟨i, id, rest, -, he⟩ <;> rw [he] <;> rfl
  rw [hhost]
  unfold settled
  cases o with
  | error f => rfl
  | ok r =>
      cases hq : w.sequels.lookup t with
      | none => rw [known, hq]; rfl
      | some q =>
          obtain ⟨before, after, hsequels, -⟩ := List.lookup_eq_some_iff.mp hq
          have hfits : q.Fits w.host.ids := hw.sequels (t, q) (by simp [hsequels])
          rw [known, hq, Option.map_some, Notice.Entered, settle_ids]
          exact settle_runs hfits

/-- A job enters in the table what becomes known with it, and leaves the table alone otherwise. -/
theorem perform_runs (hw : w.Sound) (hj : j.Fits w.host.ids) :
    Notice.Entered w.host.runs (w.perform j).host (w.notice? j) := by
  rcases w.perform_cases j with ⟨w₁, i, t, f, ht, he⟩ | hr
  · rw [he, notice?, ht.outcome]
    cases hi : w₁.host.session? i with
    | none =>
        rw [act_none hi]
        exact ht.runs
    | some before =>
        obtain ⟨hm, has⟩ := ht.signs hj hi
        obtain ⟨ready, sleepers, drainers, hhanded, -⟩ := w₁.handed_cases i t before (f before).1
        have hruns : (w₁.handed i t before (f before).1).host.runs = w.host.runs := by
          rw [hhanded]
          exact ht.runs
        rw [act_some hi, Option.bind_some]
        cases ho : (f before).2 with
        | none => exact hruns
        | some o =>
            have hconclude := conclude_runs ((ht.sound hw).handed hi hm has) t o
            have hknown : (w₁.handed i t before (f before).1).known t o = w.known t o := by
              rw [hhanded]
              unfold known
              rw [ht.sequels ho]
            rw [hruns, hknown] at hconclude
            exact hconclude
  · rw [notice?, hr.outcome, hr.host]
    rfl

theorem notice_ready (w : World) (ready : List Job) (j : Job) :
    ({ w with ready } : World).notice? j = w.notice? j := by
  cases j with
  | begin t op => cases op <;> rfl
  | _ => rfl

theorem step_runs (hw : w.Sound) (h : Happening) :
    ∃ n?, w.news h = Option.toList n? ∧ Notice.Entered w.host.runs (w.step h).host n? := by
  cases h with
  | order o =>
      refine ⟨none, rfl, ?_⟩
      rcases w.order_cases o with ⟨e, -, he⟩ | ⟨op, -, he⟩ <;> rw [he] <;> rfl
  | work =>
      refine ⟨_, rfl, ?_⟩
      rcases w.work_cases with ⟨hready, he⟩ | ⟨j, rest, hready, he⟩
      · rw [he, hready]
        rfl
      · obtain ⟨hrest, hj⟩ := hw.work hready
        have hruns := perform_runs hrest hj
        rw [notice_ready] at hruns
        rw [he, hready]
        exact hruns
  | pass now =>
      obtain ⟨clock, he⟩ := w.pass_frame now
      exact ⟨none, rfl, by rw [he]; rfl⟩
  | rise n =>
      obtain ⟨ready, sleepers, he⟩ := w.rise_frame n
      exact ⟨none, rfl, by rw [he]; rfl⟩
  | draw => exact ⟨none, rfl, rfl⟩

theorem after_stands (hw : w.Sound) (hs : List Happening) {ns : List Notice}
    (h : ∀ id i, w.host.runs.lookup id = some i ↔ Notice.Stands (w.after hs).host.ids ns id i)
    (id : String) (i : Nat) : (w.after hs).host.runs.lookup id = some i ↔
      Notice.Stands (w.after hs).host.ids (ns ++ w.notices hs) id i := by
  induction hs generalizing w ns with
  | nil => rw [notices, List.append_nil]; exact h id i
  | cons m hs ih =>
      obtain ⟨n?, hnews, hentered⟩ := step_runs hw m
      rw [notices, ← List.append_assoc]
      refine ih (hw.step m) (fun id i => ?_)
      cases n? with
      | none =>
          have hruns : (w.step m).host.runs = w.host.runs := hentered
          rw [hruns, hnews, Option.toList_none, List.append_nil]
          exact h id i
      | some n =>
          obtain ⟨key, hkey, hruns⟩ := hentered
          rw [hruns, hnews]
          exact Notice.enter_stands h ((hw.step m).after_id hs hkey) id i

theorem conclude_failed {o : Except Fault Response} {t' : Nat} {e : Refusal}
    (h : (w.conclude t o).results = (t', .error e) :: w.results) :
    (w.conclude t o).host.runs = w.host.runs := by
  -- The caller is told of a failure, so the call has failed or the run was not listed any more.
  have hpart : ∀ (id : String) (i : Nat) (goOn : World → World),
      (∀ h, (goOn (w.setHost h)).results ≠ (t', .error e) :: w.results) →
      (w.part t id i goOn).results = (t', .error e) :: w.results →
      (w.part t id i goOn).host.runs = w.host.runs := by
    intro id i goOn hok hresults
    unfold part at hresults ⊢
    dsimp only at hresults ⊢
    split
    · exact w.host.close_runs i
    · rename_i hfind
      rw [hfind] at hresults
      exact absurd hresults (hok _)
  unfold conclude at h ⊢
  cases o with
  | error f => rfl
  | ok r =>
      cases hq : w.sequels.lookup t with
      | none => rfl
      | some q =>
          rw [hq] at h
          cases q with
          | register i => cases h
          | remove id i => exact hpart id i _ (fun _ h => by cases h) h
          | shutdown i id rest =>
              exact hpart id i _ (fun _ h => absurd h.symm (List.cons_ne_self _ _)) h

theorem act_failed {t' : Nat} {e : Refusal}
    (h : (w.act i t f).results = (t', .error e) :: w.results) :
    (w.act i t f).host.runs = w.host.runs := by
  cases hi : w.host.session? i with
  | none => rw [act_none hi]
  | some before =>
      obtain ⟨ready, sleepers, drainers, hhanded, -⟩ := w.handed_cases i t before (f before).1
      rw [act_some hi, hhanded] at h ⊢
      cases ho : (f before).2 with
      | none => rfl
      | some o =>
          rw [ho] at h
          exact conclude_failed h

theorem step_failed {m : Happening} {t' : Nat} {e : Refusal}
    (h : (w.step m).results = (t', .error e) :: w.results) :
    (w.step m).host.runs = w.host.runs := by
  cases m with
  | order o =>
      rcases w.order_cases o with ⟨e, -, he⟩ | ⟨op, -, he⟩ <;> rw [he] <;> rfl
  | work =>
      rcases w.work_cases with ⟨-, he⟩ | ⟨j, rest, -, he⟩
      · rw [he]
      · rw [he] at h ⊢
        rcases perform_cases j { w with ready := rest } with ⟨w₁, i, t, f, ht, hp⟩ | hr
        · rw [hp] at h ⊢
          have hresults : w₁.results = w.results := by cases ht <;> rfl
          rw [← hresults] at h
          exact (act_failed h).trans ht.runs
        · rw [hr.host]
  | pass now => obtain ⟨clock, he⟩ := w.pass_frame now; rw [he]
  | rise n => obtain ⟨ready, sleepers, he⟩ := w.rise_frame n; rw [he]
  | draw => rfl

theorem conclude_told {o : Except Fault Response} {t' : Nat} {r : Response} :
    (w.conclude t o).results = (t', .ok (some r)) :: w.results ∧
        w.sequels.lookup t' = some (.register i) ↔
      t' = t ∧ o = .ok r ∧ w.sequels.lookup t = some (.register i) := by
  have hpart : ∀ (id : String) (k : Nat) (goOn : World → World),
      (w.part t id k goOn).results = (t', .ok (some r)) :: w.results →
      ∃ h, (goOn (w.setHost h)).results = (t', .ok (some r)) :: w.results := by
    intro id k goOn hresults
    unfold part at hresults
    dsimp only at hresults
    split at hresults
    · cases hresults
    · exact ⟨_, hresults⟩
  constructor
  · rintro ⟨h, hregister⟩
    unfold conclude at h
    cases o with
    | error f => cases h
    | ok r' =>
        cases hq : w.sequels.lookup t with
        | none =>
            rw [hq] at h
            cases h
            rw [hq] at hregister
            cases hregister
        | some q =>
            rw [hq] at h
            cases q with
            | register k =>
                cases h
                exact ⟨rfl, rfl, hq.symm.trans hregister⟩
            | remove id k =>
                obtain ⟨_, hgo⟩ := hpart _ _ _ h
                cases hgo
                rw [hq] at hregister
                cases hregister
            | shutdown k id rest =>
                obtain ⟨_, hgo⟩ := hpart _ _ _ h
                exact absurd hgo.symm (List.cons_ne_self _ _)
  · rintro ⟨rfl, rfl, hregister⟩
    refine ⟨?_, hregister⟩
    unfold conclude
    rw [hregister]
    rfl

theorem known_started {o : Except Fault Response} : w.known t o = some (.started i) ↔
    ∃ r, o = .ok r ∧ w.sequels.lookup t = some (.register i) := by
  cases o with
  | error f => exact iff_of_false (by simp [known]) (by rintro ⟨_, h, -⟩; cases h)
  | ok r =>
      simp only [known, Option.map_eq_some_iff, Except.ok.injEq, exists_eq_left']
      constructor
      · rintro ⟨q, hq, hnotice⟩
        cases q <;> cases hnotice
        exact hq
      · exact fun h => ⟨_, h, rfl⟩

theorem perform_started : w.notice? j = some (.started i) ↔
    ∃ t r, (w.perform j).results = (t, .ok (some r)) :: w.results ∧
      w.sequels.lookup t = some (.register i) := by
  have hsame : ¬ ∃ t r, w.results = (t, .ok (some r)) :: w.results ∧
      w.sequels.lookup t = some (.register i) :=
    fun ⟨_, _, h, _⟩ => List.cons_ne_self _ _ h.symm
  rcases w.perform_cases j with ⟨w₁, k, t, f, ht, hp⟩ | hr
  · have hresults : w₁.results = w.results := by cases ht <;> rfl
    rw [hp, notice?, ht.outcome]
    cases hk : w₁.host.session? k with
    | none =>
        rw [act_none hk, hresults]
        exact iff_of_false (by simp) hsame
    | some before =>
        obtain ⟨ready, sleepers, drainers, hhanded, -⟩ := w₁.handed_cases k t before (f before).1
        rw [act_some hk, hhanded, Option.bind_some]
        cases ho : (f before).2 with
        | none =>
            change _ ↔ ∃ t r, w₁.results = _ ∧ _
            rw [hresults]
            exact iff_of_false (by simp) hsame
        | some o =>
            rw [← ht.sequels ho, ← hresults]
            change w.known t o = some (.started i) ↔ _
            rw [known_started, ← ht.sequels ho]
            constructor
            · rintro ⟨r, rfl, hq⟩
              exact ⟨t, r, conclude_told.mpr ⟨rfl, rfl, hq⟩⟩
            · rintro ⟨t', r, htold⟩
              obtain ⟨rfl, rfl, hq⟩ := conclude_told.mp htold
              exact ⟨r, rfl, hq⟩
  · have hnone : w.notice? j = none := by rw [notice?, hr.outcome]; rfl
    rw [hnone]
    refine iff_of_false (by simp) ?_
    rintro ⟨t, r, h, -⟩
    generalize w.perform j = w' at hr h
    cases hr with
    | sleep t delay => exact List.cons_ne_self _ _ ((later_results w delay _).symm.trans h).symm
    | arm i timer delay => exact List.cons_ne_self _ _ ((later_results w delay _).symm.trans h).symm
    | disarmed i timer => exact List.cons_ne_self _ _ h.symm
    | _ => cases h

/-- A run has been started when the caller who wanted it started gets the response. -/
theorem news_started {m : Happening} : .started i ∈ w.news m ↔
    ∃ t r, (w.step m).results = (t, .ok (some r)) :: w.results ∧
      w.sequels.lookup t = some (.register i) := by
  have hsame : ∀ {P : Nat → Prop}, ¬ ∃ t r, w.results = (t, .ok (some r)) :: w.results ∧ P t :=
    fun ⟨_, _, h, _⟩ => List.cons_ne_self _ _ h.symm
  cases m with
  | order o =>
      refine iff_of_false List.not_mem_nil ?_
      rcases w.order_cases o with ⟨e, -, he⟩ | ⟨op, -, he⟩
      · rw [he]
        rintro ⟨t, r, h, -⟩
        cases h
      · rw [he]
        exact hsame
  | work =>
      rw [news, Option.mem_toList, Option.bind_eq_some_iff]
      rcases w.work_cases with ⟨hready, he⟩ | ⟨j, rest, hready, he⟩
      · rw [he, hready]
        exact iff_of_false (by simp) hsame
      · have hstarted := perform_started (w := { w with ready := rest }) (j := j) (i := i)
        rw [notice_ready] at hstarted
        rw [he, hready]
        simpa using hstarted
  | pass now =>
      obtain ⟨clock, he⟩ := w.pass_frame now
      rw [he]
      exact iff_of_false List.not_mem_nil hsame
  | rise n =>
      obtain ⟨ready, sleepers, he⟩ := w.rise_frame n
      rw [he]
      exact iff_of_false List.not_mem_nil hsame
  | draw => exact iff_of_false List.not_mem_nil hsame

theorem active_ncard {h : Host} (hh : h.Sound) :
    h.active = {i | ∃ id s, h.find id = .ok i ∧ h.session? i = some s ∧
      s.run.completed = false}.ncard := by
  let going := h.runs.filter fun e => (h.session? e.2).any fun s => !s.run.completed
  have hapart : (going.map Prod.snd).Nodup := by
    refine List.Nodup.map_on ?_ ((hh.apart.of_map).filter _)
    intro e he e' he' hsession
    have hid := hh.listed e (List.mem_of_mem_filter he)
    have hid' := hh.listed e' (List.mem_of_mem_filter he')
    rw [hsession, hid'] at hid
    exact Prod.ext (Option.some.inj hid).symm hsession
  have hset : {i | ∃ id s, h.find id = .ok i ∧ h.session? i = some s ∧ s.run.completed = false} =
      ((going.map Prod.snd).toFinset : Set Nat) := by
    ext i
    simp only [going, Set.mem_ofPred_eq, hh.find_iff, List.coe_toFinset, List.mem_map, List.mem_filter,
      Option.any_eq_true]
    constructor
    · rintro ⟨id, s, hlisted, hs, hopen⟩
      exact ⟨(id, i), ⟨hlisted, s, hs, by simp [hopen]⟩, rfl⟩
    · rintro ⟨⟨id, _⟩, ⟨hlisted, s, hs, hopen⟩, rfl⟩
      exact ⟨id, s, hlisted, hs, by simpa using hopen⟩
  rw [hset, Set.ncard_coe_finset, List.toFinset_card_of_nodup hapart, List.length_map]
  rfl

/-- If no two runs have the same id, those that have been started and not been ended since are
listed. -/
theorem stands_distinct {ids : List String} (hids : ids.Nodup) {ns : List Notice} {id : String}
    {i : Nat} (hi : ids[i]? = some id) : Notice.Stands ids ns id i ↔
      ∃ before after, ns = before ++ .started i :: after ∧ .ended i ∉ after := by
  constructor
  · rintro ⟨before, after, hns, -, hafter⟩
    exact ⟨before, after, hns, fun hended => hafter _ hended hi⟩
  · rintro ⟨before, after, rfl, hended⟩
    -- From the last notice of the start on, no other can be about the run.
    obtain ⟨as, bs, hsplit, has⟩ :=
      List.eq_append_cons_of_mem (List.mem_reverse.mpr (List.mem_cons_self (a := .started i) (l := after)))
    rw [List.reverse_eq_iff, List.reverse_append, List.reverse_cons, List.append_assoc,
      List.singleton_append] at hsplit
    refine ⟨before ++ bs.reverse, as.reverse, by rw [hsplit, List.append_assoc], hi, ?_⟩
    intro n hn hid
    have hlt : i < ids.length := (List.getElem?_eq_some_iff.mp hi).1
    have hsession : i = n.session := (List.getElem?_inj hlt hids).mp (hi.trans hid.symm)
    have hmem : n ∈ Notice.started i :: after := by
      rw [hsplit]
      exact List.mem_append_right _ (List.mem_cons_of_mem _ hn)
    cases n with
    | started k =>
        obtain rfl : i = k := hsession
        exact has (List.mem_reverse.mp hn)
    | ended k =>
        obtain rfl : i = k := hsession
        exact hended ((List.mem_cons.mp hmem).resolve_left (by simp))

/-- The table of the runs is what the callers get to know. A run is found under its id exactly if it was
started and since then no run with the id has been started or ended; as many runs are active as are
listed and not completed; and whatever fails changes no entry. If no two runs have the same id, every run
that has been started and has not been ended is listed. -/
theorem after_runs (u : Setup) (catalog : Option Catalog) (hs : List Happening) :
    let w₀ : World := { host := { setup := u, catalog } }
    let w := w₀.after hs
    (∀ id i, w.host.find id = .ok i ↔ Notice.Stands w.host.ids (w₀.notices hs) id i) ∧
    (w.host.runIds.Nodup ∧ ∀ id, id ∈ w.host.runIds ↔ ∃ i, w.host.find id = .ok i) ∧
    w.host.active = {i | ∃ id s, w.host.find id = .ok i ∧ w.host.session? i = some s ∧
      s.run.completed = false}.ncard ∧
    (∀ (v : World) m i, .started i ∈ v.news m ↔ ∃ t r,
      (v.step m).results = (t, .ok (some r)) :: v.results ∧ v.sequels.lookup t = some (.register i)) ∧
    (∀ (v : World) m t e, (v.step m).results = (t, .error e) :: v.results →
      (v.step m).host.runs = v.host.runs) ∧
    (w.host.ids.Nodup → ∀ i id, w.host.ids[i]? = some id → (w.host.find id = .ok i ↔
      ∃ before after, w₀.notices hs = before ++ .started i :: after ∧ .ended i ∉ after)) := by
  intro w₀ w
  have hw : w.Sound := (Sound.fresh u catalog).after hs
  have hstands : ∀ id i, w.host.find id = .ok i ↔
      Notice.Stands w.host.ids (w₀.notices hs) id i := by
    intro id i
    have hempty : ∀ id i, w₀.host.runs.lookup id = some i ↔ Notice.Stands w.host.ids [] id i :=
      fun id i => iff_of_false (by simp [w₀]) (by rintro ⟨_ | _, _, hns, -⟩ <;> cases hns)
    rw [Host.find_ok]
    exact after_stands (Sound.fresh u catalog) hs hempty id i
  refine ⟨hstands, ⟨hw.host.apart, fun id => ?_⟩, active_ncard hw.host,
    fun v m i => news_started, fun v m t e h => step_failed h, fun hids i id hi => ?_⟩
  · simp only [hw.host.find_iff, Host.runIds, List.mem_map, Prod.exists, exists_and_right,
      exists_eq_right]
  · rw [hstands, stands_distinct hids hi]

end World

-- Tours that are started side by side.
namespace Tour

def sideBySide : List Happening := [
  .order (launch "first"), .work, .work, .order (launch "second"), .work, .work,
  .order (.finish "first" .null), .work, .work]

def sameId : List Happening := [
  .order (launch "tour"), .work, .work, .order (launch "tour"), .work, .work]

end Tour

theorem World.after_runs_tour :
    let w₀ : World := { host := { setup := {} } }
    let w := w₀.after Tour.sideBySide
    w.host.ids.Nodup ∧ w.host.find "second" = .ok 1 ∧
    (w₀.step (.order (.launchNamed .null [] "third"))).results = [(0, .error .noCatalog)] ∧
    (w₀.step (.order (.launchNamed .null [] "third"))).host.runs = [] := by
  intro w₀ w
  obtain ⟨-, -, -, -, hfailed, hdistinct⟩ := World.after_runs {} none Tour.sideBySide
  have hids : w.host.ids = ["first", "second"] := by
    simp only [w, Tour.sideBySide, World.after, Tour.step_launch]
    decide +kernel
  have hnotices : w₀.notices Tour.sideBySide = [.started 0, .started 1, .ended 0] := by
    simp only [Tour.sideBySide, World.notices, Tour.step_launch]
    decide +kernel
  have hnodup : w.host.ids.Nodup := by
    rw [hids]
    decide
  refine ⟨hnodup, ?_, rfl, hfailed w₀ _ 0 _ rfl⟩
  exact (hdistinct hnodup 1 "second" (by rw [hids]; rfl)).mpr
    ⟨[.started 0], [.ended 0], hnotices, by simp⟩

/-- Of two runs that are started under one id, the first one is dropped from the table without having
been ended. -/
theorem World.run_dropped :
    let w₀ : World := { host := { setup := {} } }
    w₀.notices Tour.sameId = [.started 0, .started 1] ∧
    (w₀.after Tour.sameId).host.ids = ["tour", "tour"] ∧
    (w₀.after Tour.sameId).host.find "tour" = .ok 1 ∧ (w₀.after Tour.sameId).host.active = 1 := by
  simp only [Tour.sameId, World.notices, World.after, Tour.step_launch]
  exact ⟨rfl, rfl, rfl, rfl⟩

end GuidedJourney
