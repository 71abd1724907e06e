import GuidedJourney.Proofs.Course
import GuidedJourney.Proofs.SessionPlay
import Mathlib.Data.List.Forall2

namespace GuidedJourney

def Work.Ends {α : Type} : Work α → Except Fault α → Prop
  | .done _ a, o => o = .ok a
  | .failed _ f, o => o = .error f
  | .waiting _ _ k, o => ∃ r, (k r).Ends o

theorem Work.ended_ends {α : Type} (t : Turn) (o : Except Fault α) : (Work.ended t o).Ends o := by
  cases o <;> rfl

theorem Work.Reaches.ends {α : Type} {w w' : Work α} (h : w.Reaches w') {o : Except Fault α}
    (ho : w'.Ends o) : w.Ends o := by
  induction h with
  | refl => exact ho
  | resume t c k r _ ih => exact ⟨r, ih ho⟩

namespace Session

variable {ε : Type} (u : Setup)

/-- The responses to the requests that have been processed and did not fail. -/
def responses (s : Session ε) : List Response := s.finished.filterMap (·.2.toOption)

/-- Answers the calls of the request that is being processed, as far as there are replies. -/
def answerAll (s : Session ε) : List ServiceReply → Session ε × List ServiceReply
  | [] => (s, [])
  | r :: rs => if s.isBusy then (s.reply u r).answerAll rs else (s, r :: rs)

/-- Hands in requests strictly one after another: each only when nothing is being processed. -/
def oneByOne : List (Queued ε) → List ServiceReply → Session ε → Session ε
  | [], rs, s => (s.answerAll u rs).1
  | q :: qs, rs, s =>
    let (s, rs) := s.answerAll u rs
    if s.isBusy then s else oneByOne qs rs (s.submit u q.caller q.request)

/-- The result is one of the request that was taken up, and its caller gets it. -/
def Own (e : ε × Except Fault Response) (t : Queued ε × Run) : Prop :=
  e.1 = t.1.caller ∧ (t.1.request.process u.rules { run := t.2 }).Ends e.2

theorem responses_finish (caller : ε) (o : Except Fault Response) (s : Session ε) :
    (s.finish u caller o).responses = s.responses ++ o.toOption.toList := by
  cases o <;> simp [responses, finish, notify, Except.toOption]

theorem follow_cases (caller : ε) (w : Work Response) (s : Session ε) :
    (∃ t ts cs o, w.Reaches (.ended t o) ∧
      s.follow u caller w = { s with run := t.run, timers := ts, calls := cs }.finish u caller o) ∨
    ∃ t ts cs c k, w.Reaches (.waiting t c k) ∧
      s.follow u caller w =
        { s with run := t.run, timers := ts, calls := cs, suspended := some ⟨caller, c, k⟩ } := by
  induction w generalizing s with
  | done t a => exact .inl ⟨t, _, _, .ok a, .refl _, rfl⟩
  | failed t f => exact .inl ⟨t, _, _, .error f, .refl _, rfl⟩
  | waiting t c k ih =>
      rw [follow]
      cases hi : u.instant? c with
      | none => exact .inr ⟨t, _, _, c, k, .refl _, rfl⟩
      | some x =>
          rcases ih x { s.settle t with calls := s.calls ++ [c] } with
            ⟨t', ts, cs, o, ho, he⟩ | ⟨t', ts, cs, c', k', hk, he⟩
          · exact .inl ⟨t', ts, cs, o, .resume t c k x ho, he⟩
          · exact .inr ⟨t', ts, cs, c', k', .resume t c k x hk, he⟩

/-- What a session has come to: all requests taken up have their results but those in `opened`, and
all listeners have heard the same. -/
structure Progress (ls : List Listener) (opened : List (Queued ε × Run)) (s : Session ε) : Prop where
  results : ∃ done, s.taken = done ++ opened ∧ List.Forall₂ (Own u) s.finished done
  heard : s.heard = s.responses
  listeners : s.listeners = ls.map fun l => { l with heard := l.heard ++ s.responses }

theorem Progress.finish {ls : List Listener} {t : Queued ε × Run} {s : Session ε}
    (h : Progress u ls [t] s) {o : Except Fault Response}
    (ho : (t.1.request.process u.rules { run := t.2 }).Ends o) :
    Progress u ls [] (s.finish u t.1.caller o) := by
  obtain ⟨done, ht, hf⟩ := h.results
  have hr := responses_finish u t.1.caller o s
  refine ⟨⟨done ++ [t], ?_, ?_⟩, ?_, ?_⟩
  · cases o <;> simp [Session.finish, notify, ht]
  · have hown : List.Forall₂ (Own u) [(t.1.caller, o)] [t] := .cons ⟨rfl, ho⟩ .nil
    cases o <;> exact List.rel_append hf hown
  · rw [hr]
    cases o <;> simp [Session.finish, notify, h.heard, Except.toOption]
  · rw [hr]
    cases o <;> simp [Session.finish, notify, h.listeners, Except.toOption, Listener.tellAll,
      Listener.tell]

theorem Progress.callers {ls : List Listener} {opened : List (Queued ε × Run)} {s : Session ε}
    (h : Progress u ls opened s) :
    s.finished.map Prod.fst ++ opened.map (·.1.caller) = s.taken.map (·.1.caller) ∧
      List.Forall₂ (Own u) s.finished (s.taken.take s.finished.length) := by
  obtain ⟨done, ht, hf⟩ := h.results
  have hm : s.finished.map Prod.fst = done.map (·.1.caller) := by
    clear ht
    generalize s.finished = es at hf
    induction hf with
    | nil => rfl
    | cons ho _ ih => rw [List.map_cons, List.map_cons, ih, ho.1]
  refine ⟨by rw [hm, ht, List.map_append], ?_⟩
  rw [ht, hf.length_eq, List.take_left]
  exact hf

def Suspension.Of (w : Suspension ε) (t : Queued ε × Run) : Prop :=
  w.caller = t.1.caller ∧
    ∀ x o, (w.resume x).Ends o → (t.1.request.process u.rules { run := t.2 }).Ends o

/-- A session as it is between inputs: idle with nothing left to do, or waiting for a service with one
request that has been taken up and not processed. -/
inductive InOrder (ls : List Listener) (s : Session ε) : Prop
  | idle (progress : Progress u ls [] s) (suspended : s.suspended = none) (queue : s.queue = [])
      (draining : s.draining = false)
  | waiting (w : Suspension ε) (t : Queued ε × Run) (progress : Progress u ls [t] s)
      (suspended : s.suspended = some w) (own : Suspension.Of u w t) (draining : s.draining = true)

theorem InOrder.fresh (r : Run) (ls : List Listener) :
    InOrder u ls ({ run := r, listeners := ls } : Session ε) :=
  .idle ⟨⟨[], rfl, .nil⟩, rfl, by simp [responses]⟩ rfl rfl rfl

theorem InOrder.callers {ls : List Listener} {s : Session ε} (h : InOrder u ls s) :
    s.finished.map Prod.fst ++ s.suspended.toList.map Suspension.caller =
        s.taken.map (·.1.caller) ∧
      List.Forall₂ (Own u) s.finished (s.taken.take s.finished.length) := by
  cases h with
  | idle hp hs hq hd => simpa [hs] using hp.callers
  | waiting w t hp hs hof hd => simpa [hs, hof.1] using hp.callers

theorem InOrder.own {ls : List Listener} {s : Session ε} (h : InOrder u ls s) {place : Nat}
    {e : ε × Except Fault Response} (he : s.finished[place]? = some e) :
    ∃ t, s.taken[place]? = some t ∧ Own u e t := by
  obtain ⟨hlt, he⟩ := List.getElem?_eq_some_iff.mp he
  have hown := h.callers.2
  have hlen : place < (s.taken.take s.finished.length).length := hown.length_eq ▸ hlt
  refine ⟨(s.taken.take s.finished.length)[place], ?_, ?_⟩
  · rw [List.getElem_take, List.getElem?_eq_getElem]
  · rw [← he]
    exact hown.get hlt hlen

theorem InOrder.told {ls : List Listener} {s : Session ε} (h : InOrder u ls s) :
    s.heard = s.responses ∧
      s.listeners = ls.map fun l => { l with heard := l.heard ++ s.responses } := by
  cases h with
  | idle hp => exact ⟨hp.heard, hp.listeners⟩
  | waiting w t hp => exact ⟨hp.heard, hp.listeners⟩

theorem InOrder.busy {ls : List Listener} {s : Session ε} (h : InOrder u ls s) :
    s.isBusy = s.isWaiting ∧ (s.isBusy || s.queue.isEmpty) = true := by
  cases h with
  | idle hp hs hq hd => simp [isBusy, isWaiting, hs, hd, hq]
  | waiting w t hp hs hof hd => simp [isBusy, isWaiting, hs, hd]

theorem follow_frame (caller : ε) (w : Work Response) (s : Session ε) :
    (s.follow u caller w).queue = s.queue ∧ (s.follow u caller w).taken = s.taken ∧
      (s.follow u caller w).draining = s.draining := by
  rcases follow_cases u caller w s with ⟨t, ts, cs, o, -, he⟩ | ⟨t, ts, cs, c, k, -, he⟩
  · cases o <;> exact he ▸ ⟨rfl, rfl, rfl⟩
  · exact he ▸ ⟨rfl, rfl, rfl⟩

theorem follow_armed (caller : ε) (w : Work Response) (s : Session ε) :
    (s.follow u caller w).armed = s.armed := by
  rcases follow_cases u caller w s with ⟨t, ts, cs, o, -, he⟩ | ⟨t, ts, cs, c, k, -, he⟩
  · cases o <;> exact he ▸ rfl
  · exact he ▸ rfl

theorem follow_progress {ls : List Listener} {t : Queued ε × Run} (w : Work Response)
    {s : Session ε} (h : Progress u ls [t] s) (hs : s.suspended = none)
    (hw : ∀ o, w.Ends o → (t.1.request.process u.rules { run := t.2 }).Ends o) :
    ((s.follow u t.1.caller w).suspended = none ∧ Progress u ls [] (s.follow u t.1.caller w)) ∨
    ∃ w', (s.follow u t.1.caller w).suspended = some w' ∧ Suspension.Of u w' t ∧
      Progress u ls [t] (s.follow u t.1.caller w) := by
  rcases follow_cases u t.1.caller w s with ⟨t', ts, cs, o, ho, he⟩ | ⟨t', ts, cs, c, k, hk, he⟩
  · refine .inl ⟨?_, ?_⟩
    · rw [he]; cases o <;> exact hs
    · rw [he]
      exact Progress.finish u (s := { s with run := t'.run, timers := ts, calls := cs })
        ⟨h.results, h.heard, h.listeners⟩ (hw o (ho.ends (Work.ended_ends t' o)))
  · refine .inr ⟨_, by rw [he], ⟨rfl, fun x o hx => hw o (hk.ends ⟨x, hx⟩)⟩, ?_⟩
    rw [he]
    exact ⟨h.results, h.heard, h.listeners⟩

theorem resumed_frame (w : Suspension ε) (r : ServiceReply) (s : Session ε) :
    (s.resumed u w r).queue = s.queue ∧ (s.resumed u w r).taken = s.taken ∧
      (s.resumed u w r).draining = s.draining :=
  follow_frame u w.caller (w.resume r) { s with suspended := none }

theorem resumed_progress {ls : List Listener} {t : Queued ε × Run} {w : Suspension ε}
    {s : Session ε} (h : Progress u ls [t] s) (hw : Suspension.Of u w t) (r : ServiceReply) :
    ((s.resumed u w r).suspended = none ∧ Progress u ls [] (s.resumed u w r)) ∨
    ∃ w', (s.resumed u w r).suspended = some w' ∧ Suspension.Of u w' t ∧
      Progress u ls [t] (s.resumed u w r) := by
  have hf := follow_progress u (w.resume r) (s := { s with suspended := none })
    ⟨h.results, h.heard, h.listeners⟩ rfl (hw.2 r)
  rw [← hw.1] at hf
  exact hf

theorem take_frame (q : Queued ε) (s : Session ε) :
    (s.take u q).taken = s.taken ++ [(q, s.run)] ∧ (s.take u q).draining = true := by
  obtain ⟨-, ht, hd⟩ := follow_frame u q.caller (q.request.process u.rules { run := s.run })
    { s with draining := true, taken := s.taken ++ [(q, s.run)] }
  exact ⟨ht, hd⟩

theorem drain_taken {place : Nat} {e : Queued ε × Run} (queue : List (Queued ε)) {s : Session ε}
    (h : s.taken[place]? = some e) : (s.drain u queue).taken[place]? = some e := by
  induction queue generalizing s with
  | nil => exact h
  | cons q rest ih =>
      have htake : (s.take u q).taken[place]? = some e := by
        rw [(take_frame u q s).1, List.getElem?_append_left (List.getElem?_eq_some_iff.mp h).1]
        exact h
      rw [drain_cons]
      split
      · exact htake
      · exact ih htake

theorem reply_taken {place : Nat} {e : Queued ε × Run} (x : ServiceReply) {s : Session ε}
    (h : s.taken[place]? = some e) : (s.reply u x).taken[place]? = some e := by
  cases hw : s.suspended with
  | none =>
      rw [reply_idle u hw]
      exact h
  | some w =>
      rw [← (resumed_frame u w x s).2.1] at h
      rw [reply_waiting u hw]
      split
      · exact h
      · exact drain_taken u _ h

theorem submit_taken {place : Nat} {e : Queued ε × Run} (caller : ε) (q : Request) {s : Session ε}
    (h : s.taken[place]? = some e) : (s.submit u caller q).taken[place]? = some e := by
  cases hd : s.isBusy with
  | false =>
      rw [submit_idle u hd]
      exact drain_taken u _ h
  | true =>
      rw [submit_busy u hd]
      exact h

theorem apply_taken {place : Nat} {e : Queued ε × Run} (i : Input ε) {s : Session ε}
    (h : s.taken[place]? = some e) : (s.apply u i).taken[place]? = some e := by
  cases i with
  | submit caller q => exact submit_taken u caller q.direct h
  | reply r => exact reply_taken u r h
  | fire caller timer =>
      rcases fire_cases u caller timer s with ⟨-, ts, -, he⟩ | ⟨t, q, -, -, -, -, he⟩
      · rw [Session.apply, he]
        exact h
      · rw [Session.apply, he]
        exact submit_taken u (s := { s with timers := _ }) caller q h
  | schedule event element context delay =>
      rcases schedule_cases event element context delay s with ⟨-, he⟩ | ⟨-, he⟩
      · rw [Session.apply, he]
        exact h
      · rw [Session.apply, he]
        exact h
  | close => exact h

theorem take_progress {ls : List Listener} (q : Queued ε) {s : Session ε} (h : Progress u ls [] s)
    (hs : s.suspended = none) :
    ((s.take u q).suspended = none ∧ Progress u ls [] (s.take u q)) ∨
    ∃ w, (s.take u q).suspended = some w ∧ Suspension.Of u w (q, s.run) ∧
      Progress u ls [(q, s.run)] (s.take u q) := by
  obtain ⟨done, ht, hf⟩ := h.results
  refine follow_progress u (t := (q, s.run)) _
    (s := { s with draining := true, taken := s.taken ++ [(q, s.run)] }) ⟨⟨done, ?_, hf⟩, h.heard,
      h.listeners⟩ hs (fun o ho => ho)
  simp [ht]

/-- Draining takes up requests in the order of the queue, and leaves those behind one that waits. -/
theorem drain_inOrder {ls : List Listener} (queue : List (Queued ε)) {s : Session ε}
    (h : Progress u ls [] s) (hs : s.suspended = none) :
    InOrder u ls (s.drain u queue) ∧
      (s.drain u queue).taken.map Prod.fst ++ (s.drain u queue).queue =
        s.taken.map Prod.fst ++ queue := by
  induction queue generalizing s with
  | nil => exact ⟨.idle ⟨h.results, h.heard, h.listeners⟩ hs rfl rfl, rfl⟩
  | cons q rest ih =>
      obtain ⟨ht, hd⟩ := take_frame u q s
      rw [drain_cons]
      rcases take_progress u q h hs with ⟨hn, hp⟩ | ⟨w, hw, hof, hp⟩
      · rw [if_neg (by simp [isWaiting, hn])]
        obtain ⟨ho, he⟩ := ih hp hn
        exact ⟨ho, by simp [he, ht]⟩
      · rw [if_pos (by simp [isWaiting, hw])]
        exact ⟨.waiting w _ ⟨hp.results, hp.heard, hp.listeners⟩ hw hof hd, by simp [ht]⟩

theorem InOrder.submit {ls : List Listener} {s : Session ε} (h : InOrder u ls s) (caller : ε)
    (q : Request) :
    InOrder u ls (s.submit u caller q) ∧
      (s.submit u caller q).taken.map Prod.fst ++ (s.submit u caller q).queue =
        s.taken.map Prod.fst ++ s.queue ++ [⟨caller, q⟩] := by
  cases h with
  | idle hp hs hq hd =>
      rw [submit_idle u hd, List.append_assoc]
      exact drain_inOrder u _ hp hs
  | waiting w t hp hs hof hd =>
      rw [submit_busy u hd, List.append_assoc]
      exact ⟨.waiting w t ⟨hp.results, hp.heard, hp.listeners⟩ hs hof hd, rfl⟩

theorem InOrder.reply {ls : List Listener} {s : Session ε} (h : InOrder u ls s) (r : ServiceReply) :
    InOrder u ls (s.reply u r) ∧
      (s.reply u r).taken.map Prod.fst ++ (s.reply u r).queue = s.taken.map Prod.fst ++ s.queue := by
  cases h with
  | idle hp hs hq hd => rw [reply_idle u hs]; exact ⟨.idle hp hs hq hd, rfl⟩
  | waiting w t hp hs hof hd =>
      obtain ⟨hqueue, htaken, hdraining⟩ := resumed_frame u w r s
      rw [reply_waiting u hs]
      rcases resumed_progress u hp hof r with ⟨hn, hp'⟩ | ⟨w', hw', hof', hp'⟩
      · rw [if_neg (by simp [isWaiting, hn])]
        obtain ⟨ho, he⟩ := drain_inOrder u (s.resumed u w r).queue hp' hn
        exact ⟨ho, by rw [he, hqueue, htaken]⟩
      · rw [if_pos (by simp [isWaiting, hw'])]
        exact ⟨.waiting w' t hp' hw' hof' (hdraining.trans hd), by rw [hqueue, htaken]⟩

theorem InOrder.timers {ls : List Listener} {s : Session ε} (h : InOrder u ls s)
    (timers armed : List Timer) : InOrder u ls { s with timers := timers, armed := armed } := by
  cases h with
  | idle hp hs hq hd => exact .idle ⟨hp.results, hp.heard, hp.listeners⟩ hs hq hd
  | waiting w t hp hs hof hd => exact .waiting w t ⟨hp.results, hp.heard, hp.listeners⟩ hs hof hd

theorem InOrder.apply {ls : List Listener} {s : Session ε} (h : InOrder u ls s) (i : Input ε) :
    InOrder u ls (s.apply u i) ∧
      (s.apply u i).taken.map Prod.fst ++ (s.apply u i).queue =
        s.taken.map Prod.fst ++ s.queue ++ (s.arrival? i).toList := by
  cases i with
  | submit caller q => exact h.submit u caller q.direct
  | reply r =>
      obtain ⟨ho, he⟩ := h.reply u r
      exact ⟨ho, by simpa [Session.apply, arrival?] using he⟩
  | fire caller timer =>
      rcases fire_cases u caller timer s with ⟨ha, ts, -, he⟩ | ⟨t, q, -, -, -, ha, he⟩
      · rw [Session.apply, he, ha]
        exact ⟨h.timers u ts s.armed, by simp⟩
      · rw [Session.apply, he, ha]
        exact (h.timers u _ s.armed).submit u caller q
  | schedule event element context delay =>
      rcases schedule_cases event element context delay s with ⟨-, he⟩ | ⟨-, he⟩
      · rw [Session.apply, he]
        exact ⟨h, by simp [arrival?]⟩
      · rw [Session.apply, he]
        exact ⟨h.timers u _ _, by simp [arrival?]⟩
  | close => exact ⟨h.timers u [] s.armed, by simp [Session.apply, arrival?, close]⟩

theorem InOrder.play {ls : List Listener} {s : Session ε} (h : InOrder u ls s)
    (is : List (Input ε)) :
    InOrder u ls (s.play u is) ∧
      (s.play u is).taken.map Prod.fst ++ (s.play u is).queue =
        s.taken.map Prod.fst ++ s.queue ++ s.arrivals u is := by
  induction is generalizing s with
  | nil => exact ⟨h, by simp [Session.play, arrivals]⟩
  | cons i is ih =>
      obtain ⟨ho, he⟩ := h.apply u i
      obtain ⟨hp, hf⟩ := ih ho
      exact ⟨hp, by rw [Session.play, hf, he, arrivals, List.append_assoc _ _ (arrivals u _ is)]⟩

theorem follow_bare (caller : ε) (w : Work Response) (s : Session ε) :
    (s.follow u caller w).bare = s.bare.follow u caller w := by
  have hset (t : Turn) (s : Session ε) : (s.settle t).bare = s.bare.settle t := by
    simp [bare, settle]
  induction w generalizing s with
  | done t a => rw [follow, follow, ← hset]; rfl
  | failed t f => rw [follow, follow, ← hset]; rfl
  | waiting t c k ih =>
      rw [follow, follow]
      cases hi : u.instant? c with
      | none =>
          change { (s.settle t).bare with calls := s.calls ++ [c], suspended := some ⟨caller, c, k⟩ } = _
          rw [hset]; rfl
      | some x =>
          have h := ih x { s.settle t with calls := s.calls ++ [c] }
          change _ = Session.follow u caller (k x) { (s.settle t).bare with calls := s.calls ++ [c] } at h
          rw [hset] at h
          exact h

theorem take_bare (q : Queued ε) (s : Session ε) : (s.take u q).bare = s.bare.take u q :=
  follow_bare u _ _ _

theorem queue_eta {s : Session ε} (h : s.queue = []) : { s with queue := [] } = s := by
  cases s
  cases h
  rfl

theorem drain_one (q : Queued ε) {s : Session ε} (h : s.queue = []) :
    s.drain u [q] = if (s.take u q).isWaiting then s.take u q else (s.take u q).drain u [] := by
  have hq : (s.take u q).queue = [] := (follow_frame u _ _ _).1.trans h
  rw [drain_cons, queue_eta hq]

/-- Someone who hands in a request when all before it are done finds the session as the one does who
takes up the request right after them. -/
theorem drain_nil_submit (q : Queued ε) (s : Session ε) :
    (s.drain u []).bare.submit u q.caller q.request =
      if (s.take u q).isWaiting then (s.take u q).bare else ((s.take u q).drain u []).bare := by
  have ht : (s.drain u []).bare.take u q = (s.take u q).bare := (take_bare u q s).symm
  rw [submit_idle u rfl]
  change Session.drain u [q] (s.drain u []).bare = _
  rw [drain_one u q rfl, ht, bare_isWaiting]
  split <;> rfl

theorem submit_bare {s : Session ε} (hq : s.queue = []) (hd : s.draining = false) (caller : ε)
    (q : Request) :
    (s.submit u caller q).queue = [] ∧ (s.submit u caller q).bare = s.bare.submit u caller q := by
  have hs : s.drain u [] = s := by
    cases s
    cases hq
    cases hd
    rfl
  have hb := drain_nil_submit u ⟨caller, q⟩ s
  rw [hs] at hb
  rw [hb, submit_idle u hd, hq, List.nil_append, drain_one u _ hq]
  split
  · exact ⟨(follow_frame u _ _ _).1.trans hq, rfl⟩
  · exact ⟨rfl, rfl⟩

theorem answerAll_idle {s : Session ε} (h : s.isBusy = false) (rs : List ServiceReply) :
    s.answerAll u rs = (s, rs) := by
  cases rs <;> simp [answerAll, h]

theorem oneByOne_idle {s : Session ε} (h : s.isBusy = false) (q : Queued ε) (qs : List (Queued ε))
    (rs : List ServiceReply) :
    s.oneByOne u (q :: qs) rs = (s.submit u q.caller q.request).oneByOne u qs rs := by
  simp [oneByOne, answerAll_idle u h, h]

theorem oneByOne_reply {s : Session ε} (h : s.isBusy = true) (r : ServiceReply)
    (qs : List (Queued ε)) (rs : List ServiceReply) :
    s.oneByOne u qs (r :: rs) = (s.reply u r).oneByOne u qs rs := by
  cases qs <;> simp [oneByOne, answerAll, h]

theorem oneByOne_busy {s : Session ε} (h : s.isBusy = true) (qs : List (Queued ε)) :
    s.oneByOne u qs [] = s := by
  cases qs <;> simp [oneByOne, answerAll, h]

/-- Draining the queue comes to the same as handing in its requests when their turn has come. -/
theorem oneByOne_drain (queue qs : List (Queued ε)) (rs : List ServiceReply) (s : Session ε) :
    (s.drain u []).bare.oneByOne u (queue ++ qs) rs =
      (s.drain u queue).bare.oneByOne u ((s.drain u queue).queue ++ qs) rs := by
  induction queue generalizing s with
  | nil => rfl
  | cons q rest ih =>
      rw [List.cons_append, oneByOne_idle u rfl, drain_nil_submit, drain_cons]
      split
      · rfl
      · exact ih _

theorem oneByOne_submit {ls : List Listener} {s : Session ε} (h : InOrder u ls s) (caller : ε)
    (q : Request) (qs : List (Queued ε)) (rs : List ServiceReply) :
    s.bare.oneByOne u (s.queue ++ ⟨caller, q⟩ :: qs) rs =
      (s.submit u caller q).bare.oneByOne u ((s.submit u caller q).queue ++ qs) rs := by
  cases h with
  | idle hp hs hq hd =>
      obtain ⟨hqueue, hbare⟩ := submit_bare u hq hd caller q
      rw [hqueue, hbare, hq]
      exact oneByOne_idle u (s := s.bare) hd _ qs rs
  | waiting w t hp hs hof hd =>
      rw [submit_busy u hd, List.append_assoc]
      rfl

theorem oneByOne_waiting {ls : List Listener} {s : Session ε} {w : Suspension ε}
    (h : InOrder u ls s) (hs : s.suspended = some w) (r : ServiceReply) (qs : List (Queued ε))
    (rs : List ServiceReply) :
    s.bare.oneByOne u (s.queue ++ qs) (r :: rs) =
      (s.reply u r).bare.oneByOne u ((s.reply u r).queue ++ qs) rs := by
  cases h with
  | idle hp hn hq hd => rw [hn] at hs; cases hs
  | waiting w' t hp hw hof hd =>
      have hqueue := (resumed_frame u w r s).1
      have hbare : s.bare.resumed u w r = (s.resumed u w r).bare :=
        (follow_bare u w.caller (w.resume r) { s with suspended := none }).symm
      rw [oneByOne_reply u (s := s.bare) hd, reply_waiting u hs, reply_waiting u (s := s.bare) hs, hbare,
        bare_isWaiting]
      split
      · rw [hqueue]
      · rw [← hqueue]
        exact oneByOne_drain u _ qs rs _

theorem oneByOne_apply {ls : List Listener} {s : Session ε} (h : InOrder u ls s) (i : Input ε)
    (qs : List (Queued ε)) (rs : List ServiceReply) :
    s.bare.oneByOne u (s.queue ++ ((s.arrival? i).toList ++ qs)) ((s.reply? i).toList ++ rs) =
      (s.apply u i).bare.oneByOne u ((s.apply u i).queue ++ qs) rs := by
  cases i with
  | submit caller q => exact oneByOne_submit u h caller q.direct qs rs
  | reply r =>
      cases hs : s.suspended with
      | none => simp [Session.apply, arrival?, reply?, isWaiting, hs, reply_idle]
      | some w =>
          simpa [Session.apply, arrival?, reply?, isWaiting, hs] using oneByOne_waiting u h hs r qs rs
  | fire caller timer =>
      rcases fire_cases u caller timer s with ⟨ha, ts, -, he⟩ | ⟨t, q, -, -, -, ha, he⟩
      · rw [Session.apply, he, ha]
        rfl
      · rw [Session.apply, he, ha]
        exact oneByOne_submit u (h.timers u (s.timers.filter (·.id != timer)) s.armed) caller q qs rs
  | schedule event element context delay =>
      rcases schedule_cases event element context delay s with ⟨-, he⟩ | ⟨-, he⟩
      · rw [Session.apply, he]
        rfl
      · rw [Session.apply, he]
        rfl
  | close => rfl

theorem oneByOne_play {ls : List Listener} {s : Session ε} (h : InOrder u ls s)
    (is : List (Input ε)) :
    s.bare.oneByOne u (s.queue ++ s.arrivals u is) (s.replies u is) = (s.play u is).bare := by
  induction is generalizing s with
  | nil =>
      rw [arrivals, replies, List.append_nil]
      cases h with
      | idle hp hs hq hd => rw [hq]; rfl
      | waiting w t hp hs hof hd => exact oneByOne_busy u (s := s.bare) hd _
  | cons i is ih => rw [arrivals, replies, oneByOne_apply u h, ih (h.apply u i).1, Session.play]

/-- Whatever comes in while requests wait for services: requests are taken up in the order of their
arrival, each once and only when the one before has its result; a caller gets the result of the own
request; every listener hears of each response once and in that order, whether or not listeners fail;
a session is busy just as long as a request waits, and then only has a queue; and the run, the results
and all that has come out of the session are as if the same requests had been handed in strictly one
after another, with the same replies of services. -/
theorem play_serial (r : Run) (ls : List Listener) (is : List (Input ε)) :
    let s₀ : Session ε := { run := r, listeners := ls }
    let s := s₀.play u is
    s.taken.map Prod.fst ++ s.queue = s₀.arrivals u is ∧
    s.finished.map Prod.fst ++ s.suspended.toList.map Suspension.caller =
      s.taken.map (·.1.caller) ∧
    List.Forall₂ (Own u) s.finished (s.taken.take s.finished.length) ∧
    s.heard = s.responses ∧
    s.listeners = ls.map (fun l => { l with heard := l.heard ++ s.responses }) ∧
    s.isBusy = s.isWaiting ∧ (s.isBusy || s.queue.isEmpty) ∧
    s.bare = s₀.oneByOne u (s₀.arrivals u is) (s₀.replies u is) := by
  intro s₀ s
  have h₀ : InOrder u ls s₀ := .fresh u r ls
  obtain ⟨h, harrived⟩ := h₀.play u is
  exact ⟨harrived, h.callers.1, h.callers.2, h.told.1, h.told.2, h.busy.1, h.busy.2,
    (oneByOne_play u h₀ is).symm⟩

end Session

end GuidedJourney
