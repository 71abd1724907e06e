import GuidedJourney.Proofs.AnswerForwarding

namespace GuidedJourney

namespace Session

variable {ε : Type} (u : Setup)

/-- After finitely many replies, whatever they are, no request waits any more. -/
inductive Clears : Session ε → Prop
  | idle {s : Session ε} (h : s.suspended = none) : Clears s
  | reply {s : Session ε} (h : ∀ x, Clears (s.reply u x)) : Clears s

theorem follow_suspended (caller : ε) (w : Work Response) (s : Session ε) :
    (s.follow u caller w).suspended = s.suspended ∨ ∃ t c k, w.Reaches (.waiting t c k) ∧
      (s.follow u caller w).suspended = some ⟨caller, c, k⟩ := by
  rcases follow_cases u caller w s with ⟨t, ts, cs, o, -, he⟩ | ⟨t, ts, cs, c, k, hk, he⟩
  · rw [he]
    cases o <;> exact .inl rfl
  · rw [he]
    exact .inr ⟨t, c, k, hk, rfl⟩

theorem waits_clears {queue : List (Queued ε)}
    (hqueue : ∀ s : Session ε, s.suspended = none → Clears u (s.drain u queue)) (caller : ε)
    (w : Work Response) {t : Turn} {c : ServiceCall} {k : ServiceReply → Work Response}
    (hw : w.Reaches (.waiting t c k)) {s : Session ε} (hs : s.suspended = some ⟨caller, c, k⟩)
    (hq : s.queue = queue) : Clears u s := by
  induction w generalizing t c k s with
  | done t₀ a => cases hw
  | failed t₀ f => cases hw
  | waiting t₀ c₀ k₀ ih =>
      cases hw with
      | refl =>
          refine .reply fun x => ?_
          have hqueue' := (resumed_frame u ⟨caller, c₀, k₀⟩ x s).1.trans hq
          rw [reply_waiting u hs]
          rcases follow_suspended u caller (k₀ x) { s with suspended := none } with
            hnone | ⟨t', c', k', hk, hsome⟩
          · change (s.resumed u ⟨caller, c₀, k₀⟩ x).suspended = none at hnone
            rw [if_neg (by simp [isWaiting, hnone]), hqueue']
            exact hqueue _ hnone
          · change (s.resumed u ⟨caller, c₀, k₀⟩ x).suspended = _ at hsome
            rw [if_pos (by simp [isWaiting, hsome])]
            exact ih x hk hsome hqueue'
      | resume _ _ _ x h => exact ih x h hs hq

theorem drain_clears (queue : List (Queued ε)) {s : Session ε} (hs : s.suspended = none) :
    Clears u (s.drain u queue) := by
  induction queue generalizing s with
  | nil => exact .idle hs
  | cons q rest ih =>
      rw [drain_cons]
      rcases follow_suspended u q.caller (q.request.process u.rules { run := s.run })
        { s with draining := true, taken := s.taken ++ [(q, s.run)] } with
        hnone | ⟨t, c, k, hk, hsome⟩
      · replace hnone : (s.take u q).suspended = none := hnone.trans hs
        rw [if_neg (by simp [isWaiting, hnone])]
        exact ih hnone
      · change (s.take u q).suspended = _ at hsome
        rw [if_pos (by simp [isWaiting, hsome])]
        exact waits_clears u (fun _ => ih) q.caller _ hk hsome rfl

/-- Work comes to its end with finitely many replies, and so does the work of the requests behind it. -/
theorem clears (s : Session ε) : Clears u s := by
  cases hs : s.suspended with
  | none => exact .idle hs
  | some w =>
      exact waits_clears u (fun _ => drain_clears u s.queue) w.caller
        (.waiting { run := s.run } w.call w.resume) (.refl _) hs rfl

/-- The request at a place has been processed, in the run as it found it, and has come to `o`. -/
structure Processed (s : Session ε) (place : Nat) (q : Queued ε) (o : Except Fault Response) :
    Prop where
  taken : s.taken[place]? = some (q, s.runAt place)
  finished : s.finished[place]? = some (q.caller, o)
  work : ∃ t, (q.request.process u.rules { run := s.runAt place }).Reaches (.ended t o) ∧
    t.run = s.runAt (place + 1)

theorem Traced.processed {ls : List Listener} {r₀ : Run} {s : Session ε} (h : Traced u r₀ s)
    (ho : InOrder u ls s) {place : Nat} {c : ε} {o : Except Fault Response}
    (hf : s.finished[place]? = some (c, o)) : ∃ q, s.Processed u place q o ∧ q.caller = c := by
  obtain ⟨⟨q, r⟩, htaken, hcaller, -⟩ := ho.own u hf
  obtain rfl : s.runAt place = r := runAt_taken htaken
  rcases h.at u htaken with ⟨t, o', hf', hw, hr⟩ | ⟨t, c', k, hf', -, -⟩
  · obtain rfl : o' = o := congrArg Prod.snd (Option.some.inj (hf'.symm.trans hf))
    exact ⟨q, ⟨htaken, hf', t, hw, hr⟩, hcaller.symm⟩
  · simp [hf'] at hf

theorem Processed.request {s : Session ε} {place : Nat} {q : Queued ε} {o : Except Fault Response}
    (h : s.Processed u place q o) : s.requests[place]? = some q := by
  have hlt := (List.getElem?_eq_some_iff.mp h.taken).1
  rw [requests, List.getElem?_append_left (by simpa using hlt), List.getElem?_map, h.taken]
  rfl

theorem resume_error (c : Caller) (f : Fault) (s : Session Caller) :
    s.resume u c (.error f) = ended (.error f) s := by
  rcases c with ⟨ticket, errand⟩
  cases errand <;> rfl

end Session

namespace Desk

variable (u : Setup)

/-- After finitely many replies, whatever they are, the caller has the result of the request at a place
and has not gone on. -/
inductive Gets (place : Nat) : Desk → Prop
  | now {d : Desk} (h : (d.waiting? place).isSome) : Gets place d
  | reply {d : Desk} (h : ∀ x, Gets place (d.step u (.reply x))) : Gets place d

/-- However a call goes on whose caller waits for the request at a place, or which has come to its
outcome: it comes to its end, and `Q` holds then. The caller gets the result once the services have
replied, whatever has been done meanwhile, and goes on with it at any time. -/
inductive Settles (Q : Desk → Except Fault Response → Prop) :
    Desk → Nat → Option (Except Fault Response) → Prop
  | settled {d : Desk} {place : Nat} {out : Except Fault Response} (h : Q d out) :
      Settles Q d place (some out)
  | goOn {d : Desk} {place : Nat} (hgets : ∀ ms, .goOn place ∉ ms → Gets u place (d.play u ms))
      (h : ∀ ms c o, (d.play u ms).waiting? place = some (c, o) →
        Settles Q ((d.play u ms).step u (.goOn place)) (d.play u ms).session.requests.length
          ((d.play u ms).session.resume u c o).2) : Settles Q d place none

theorem Settles.goesOn {Q : Desk → Except Fault Response → Prop} {d : Desk} {place : Nat}
    (h : Settles u Q d place none) (ms : List Deed) {c : Caller} {o : Except Fault Response}
    (hw : (d.play u ms).waiting? place = some (c, o)) :
    Settles u Q ((d.play u ms).step u (.goOn place)) (d.play u ms).session.requests.length
      ((d.play u ms).session.resume u c o).2 := by
  cases h with
  | goOn hgets h => exact h ms c o hw

theorem Settles.outcome {Q : Desk → Except Fault Response → Prop} {d : Desk} {place : Nat}
    {out : Except Fault Response} (h : Settles u Q d place (some out)) : Q d out := by
  cases h with
  | settled h => exact h

/-- However the call goes on, it comes to its end, and `Q` holds then. -/
def Handles (d : Desk) (ticket : Nat) (c : Call) (Q : Desk → Except Fault Response → Prop) : Prop :=
  Settles u Q (d.step u (.call ticket c)) d.session.requests.length
    (d.session.begin u ticket c.direct).2

theorem Handles.ended {d : Desk} {ticket : Nat} {c : Call} {Q : Desk → Except Fault Response → Prop}
    (h : d.Handles u ticket c Q) {out : Except Fault Response} {s : Session Caller}
    (hbegin : d.session.begin u ticket c.direct = Session.ended out s) :
    ∃ d', d'.session = s ∧ Q d' out := by
  rw [Handles, hbegin] at h
  exact ⟨_, congrArg Prod.fst hbegin, h.outcome⟩

theorem handles_ended {d : Desk} {ticket : Nat} {c : Call} {Q : Desk → Except Fault Response → Prop}
    {out : Except Fault Response} {s : Session Caller}
    (hbegin : d.session.begin u ticket c.direct = Session.ended out s)
    (hQ : ∀ d' : Desk, d'.session = s → Q d' out) : d.Handles u ticket c Q := by
  rw [Handles, hbegin]
  exact .settled (hQ _ (congrArg Prod.fst hbegin))

def From (r : Run) (ls : List Listener) (d : Desk) : Prop := ∃ ms, d = (fresh r ls).play u ms

namespace From

variable {u} {r : Run} {ls : List Listener} {d : Desk}

theorem play (h : From u r ls d) (ms : List Deed) : From u r ls (d.play u ms) := by
  obtain ⟨before, rfl⟩ := h
  exact ⟨before ++ ms, (play_append u _ before ms).symm⟩

theorem step (h : From u r ls d) (m : Deed) : From u r ls (d.step u m) := h.play [m]

theorem attended (h : From u r ls d) : Session.Attended u ls d.session := by
  obtain ⟨ms, rfl⟩ := h
  exact play_attended u _ ms (.fresh u r ls)

theorem traced (h : From u r ls d) : Session.Traced u r d.session := by
  obtain ⟨ms, rfl⟩ := h
  exact play_traced u r ls ms

theorem gone (h : From u r ls d) {place : Nat} (hle : d.session.finished.length ≤ place) :
    place ∉ d.gone := by
  obtain ⟨ms, rfl⟩ := h
  exact fun hgone =>
    Nat.not_lt_of_ge hle ((Written.play u (.fresh u r ls) ms).gone place hgone)

theorem requests (h : From u r ls d) (ms : List Deed) {place : Nat} {q : Queued Caller}
    (hq : d.session.requests[place]? = some q) : (d.play u ms).session.requests[place]? = some q := by
  obtain ⟨new, hnew, -⟩ := play_suits u h.attended ms
  rw [hnew, List.getElem?_append_left (List.getElem?_eq_some_iff.mp hq).1, hq]

theorem finished_le (h : From u r ls d) : d.session.finished.length ≤ d.session.requests.length := by
  have hlength := congrArg List.length h.attended.inOrder.callers.1
  simp only [List.length_append, List.length_map, Session.requests] at hlength ⊢
  omega

theorem gets (h : From u r ls d) {place : Nat} {q : Queued Caller}
    (hq : d.session.requests[place]? = some q) (hgone : place ∉ d.gone) : Gets u place d := by
  generalize hs : d.session = s
  have hclears := s.clears u
  induction hclears generalizing d with
  | @idle s hnone =>
      subst hs
      refine .now ?_
      have hlt := (List.getElem?_eq_some_iff.mp hq).1
      cases h.attended.inOrder with
      | waiting w t _ hsome => simp [hnone] at hsome
      | idle hp _ hqueue _ =>
          have hlength := congrArg List.length h.attended.inOrder.callers.1
          simp only [Session.requests, hqueue, List.length_append, List.length_map, hnone,
            Option.toList_none, List.map_nil, List.length_nil, Nat.add_zero] at hlength hlt
          simp [waiting?, hgone, hlength, hlt]
  | @reply s hreply ih =>
      subst hs
      refine .reply fun x => ih x (h.step (.reply x)) (h.requests [.reply x] hq) ?_ rfl
      rw [mem_step_gone]
      simp [hgone]

end From

theorem play_gone {d : Desk} {place : Nat} (hgone : place ∉ d.gone) {ms : List Deed}
    (hms : .goOn place ∉ ms) : place ∉ (d.play u ms).gone := by
  induction ms generalizing d with
  | nil => exact hgone
  | cons m ms ih =>
      rw [List.mem_cons, not_or] at hms
      refine ih ?_ hms.2
      rw [mem_step_gone]
      rintro (h | ⟨rfl, -⟩)
      · exact hgone h
      · exact hms.1 rfl

theorem play_finished {d : Desk} {place : Nat} {e : Caller × Except Fault Response}
    (h : d.session.finished[place]? = some e) (ms : List Deed) :
    (d.play u ms).session.finished[place]? = some e := by
  induction ms generalizing d with
  | nil => exact h
  | cons m ms ih =>
      obtain ⟨new, hfinished, -⟩ := d.step_adds u m
      change (d.step u m).session.finished = d.session.finished ++ new at hfinished
      refine ih ?_
      rw [hfinished, List.getElem?_append_left (List.getElem?_eq_some_iff.mp h).1, h]

/-- A call that waits for a request settles if it does so with whatever the request comes to. -/
theorem From.settles {r : Run} {ls : List Listener} {d : Desk} (h : From u r ls d) {place : Nat}
    {q : Queued Caller} (hq : d.session.requests[place]? = some q) (hgone : place ∉ d.gone)
    {Q : Desk → Except Fault Response → Prop}
    (hrest : ∀ ms o, (d.play u ms).session.Processed u place q o →
      (d.play u ms).waiting? place = some (q.caller, o) →
      Settles u Q ((d.play u ms).step u (.goOn place)) (d.play u ms).session.requests.length
        ((d.play u ms).session.resume u q.caller o).2) :
    Settles u Q d place none := by
  refine .goOn (fun ms hms => (h.play ms).gets (h.requests ms hq) (play_gone u hgone hms)) ?_
  intro ms c o hw
  have h' := h.play ms
  obtain ⟨q', hprocessed, hcaller⟩ :=
    h'.traced.processed u h'.attended.inOrder (waiting?_eq_some hw)
  obtain rfl : q = q' := Option.some.inj ((h.requests ms hq).symm.trans (hprocessed.request u))
  subst hcaller
  exact hrest ms o hprocessed hw

theorem step_goOn {d : Desk} {place : Nat} {c : Caller} {o : Except Fault Response}
    (hw : d.waiting? place = some (c, o)) :
    (d.step u (.goOn place)).session = (d.session.resume u c o).1 := by
  simp only [step, hw]
  rfl

theorem From.settles_asked {r : Run} {ls : List Listener} {d : Desk} (h : From u r ls d) {m : Deed}
    {caller : Caller} {q : Request} (hm : (d.step u m).session = d.session.submit u caller q)
    {Q : Desk → Except Fault Response → Prop}
    (hrest : ∀ ms o, let d' := d.play u (m :: ms)
      let place := d.session.requests.length
      d'.session.Processed u place ⟨caller, q⟩ o → d'.waiting? place = some (caller, o) →
      Settles u Q (d'.step u (.goOn place)) d'.session.requests.length
        (d'.session.resume u caller o).2) :
    Settles u Q (d.step u m) d.session.requests.length none := by
  have hrequests : (d.session.submit u caller q).requests = d.session.requests ++ [⟨caller, q⟩] :=
    (h.attended.inOrder.submit u caller q).2
  refine (h.step m).settles u (q := ⟨caller, q⟩) ?_ ?_ hrest
  · rw [hm, hrequests, List.getElem?_concat_length]
  · rw [mem_step_gone]
    rintro (hgone | ⟨-, e, hw⟩)
    · exact h.gone h.finished_le hgone
    · exact absurd (waiting?_lt hw) (Nat.not_lt_of_ge h.finished_le)

theorem From.handles_asked {r : Run} {ls : List Listener} {d : Desk} (h : From u r ls d) {ticket : Nat}
    {c : Call} {errand : Errand} {q : Request}
    (hbegin : d.session.begin u ticket c.direct = d.session.ask u ticket errand q)
    {Q : Desk → Except Fault Response → Prop}
    (hrest : ∀ ms o, let d' := d.play u (.call ticket c :: ms)
      let place := d.session.requests.length
      d'.session.Processed u place ⟨⟨ticket, errand⟩, q⟩ o →
      d'.waiting? place = some (⟨ticket, errand⟩, o) →
      Settles u Q (d'.step u (.goOn place)) d'.session.requests.length
        (d'.session.resume u ⟨ticket, errand⟩ o).2) :
    d.Handles u ticket c Q := by
  have hm : (d.step u (.call ticket c)).session = d.session.submit u ⟨ticket, errand⟩ q :=
    congrArg Prod.fst hbegin
  rw [Handles, hbegin]
  exact h.settles_asked u hm hrest

end Desk

end GuidedJourney
