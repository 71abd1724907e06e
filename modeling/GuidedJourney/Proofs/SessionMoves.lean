import GuidedJourney.Proofs.AnswerOrder
import GuidedJourney.Proofs.RequestEnd

namespace GuidedJourney

theorem Work.Ends.reached {α : Type} {w : Work α} {a : α} (h : w.Ends (.ok a)) :
    ∃ t, w.Reaches (.done t a) := by
  induction w with
  | done t a' =>
      obtain rfl := Except.ok.inj h
      exact ⟨t, .refl _⟩
  | failed t f => cases h
  | waiting t c k ih =>
      obtain ⟨r, hr⟩ := h
      obtain ⟨t', ht'⟩ := ih r hr
      exact ⟨t', .resume t c k r ht'⟩

theorem Turn.Change.id {t t' : Turn} (h : t.Change t') : t'.run.id = t.run.id := by
  rcases h with h | h <;> cases h <;> rfl

theorem Run.Becomes.id {r r' : Run} (h : r.Becomes r') : r'.id = r.id := by
  induction h with
  | refl => rfl
  | tail _ hc ih =>
      obtain ⟨t, t', hc, rfl, rfl⟩ := hc
      exact hc.id.trans ih

theorem Request.runId (rules : Rules) {q : Request} {r : Run} {o : Response}
    (h : (q.process rules { run := r }).Ends (.ok o)) : o.runId = r.id := by
  obtain ⟨t, ht⟩ := h.reached
  obtain ⟨_, _, _, _, htells⟩ := Request.tells rules ht
  have hid : (Work.done t o).turn.run.id = r.id :=
    (process_changes rules q { run := r }).turn (fun _ _ h hc => Turn.Change.id hc |>.trans h)
      (fun _ h => h) rfl ht
  rw [htells]
  exact hid

theorem Answer.ofResponse_runId {settings : BridgeSettings} {r : Response} {a : Answer}
    (ha : a ∈ Answer.ofResponse settings r) : a.runId = r.runId := by
  unfold ofResponse at ha
  split at ha
  · cases ha
  · obtain ⟨x, -, rfl⟩ := List.mem_map.mp ha
    rfl

theorem Setup.forwards_runId {u : Setup} {r : Response} {a : Answer} (ha : a ∈ u.forwards (.ok r)) :
    a.runId = r.runId := by
  change a ∈ if u.recording then Answer.ofResponse u.bridge r else [] at ha
  split at ha
  · exact Answer.ofResponse_runId ha
  · cases ha

theorem Desk.own_runId {u : Setup} {c : Caller} {o : Except Fault Response} {a : Answer}
    (ha : a ∈ own u c o) : ∃ r, o = .ok r ∧ a.runId = r.runId := by
  unfold own at ha
  split at ha
  · split at ha
    · obtain rfl := List.mem_singleton.mp ha
      exact ⟨_, rfl, rfl⟩
    · cases ha
  · cases ha

def Input.By (ticket : Nat) : Input Caller → Prop
  | .submit caller _ | .fire caller _ => caller.ticket = ticket
  | _ => True

namespace Session

variable {u : Setup} {ticket : Nat} {as : List Answer} {ls : List Listener} {s s' : Session Caller}

/-- The session has recorded answers, and then taken inputs that one ticket accounts for. -/
def Moves (u : Setup) (ticket : Nat) (as : List Answer) (s s' : Session Caller) : Prop :=
  ∃ is, s' = (s.noted as).play u is ∧ ∀ i ∈ is, i.Fits ∧ i.By ticket

theorem Takes.moves {tally : Option String} {x : CallStep}
    (h : Takes u (Queued.Asked u ticket tally) (s.noted as) x) : Moves u ticket as s x.1 := by
  cases h with
  | ended o => exact ⟨[], rfl, by simp⟩
  | scheduled event element context delay o =>
      exact ⟨[.schedule event element context delay], rfl, by simp [Input.Fits, Input.By]⟩
  | @asked t errand q h =>
      have hdirect : q.direct = q := h.direct
      have hticket : t = ticket := h.ticket
      exact ⟨[.submit ⟨t, errand⟩ q], by simp [play, apply, ask, hdirect],
        by simpa [Input.Fits, Input.By, hdirect, hticket] using h.suits.fits⟩

theorem Moves.input {i : Input Caller} (hfits : i.Fits) (hby : i.By ticket) :
    Moves u ticket [] s (s.apply u i) :=
  ⟨[i], by rw [noted_nil]; rfl, by simpa using ⟨hfits, hby⟩⟩

theorem Moves.keeps {P : Session Caller → Prop} (h : Moves u ticket as s s')
    (happly : ∀ s i, i.Fits → i.By ticket → P s → P (s.apply u i)) (hs : P (s.noted as)) : P s' := by
  obtain ⟨is, rfl, his⟩ := h
  generalize s.noted as = s at hs
  induction is generalizing s with
  | nil => exact hs
  | cons i is ih =>
      rw [List.forall_mem_cons] at his
      exact ih his.2 _ (happly s i his.1.1 his.1.2 hs)

theorem Moves.attended (h : Moves u ticket as s s') (hs : s.Attended u ls) : s'.Attended u ls :=
  h.keeps (fun _ _ hi _ h => h.apply u hi) (hs.noted u as)

theorem id_lasting (id : String) : Lasting fun r _ => r.id = id where
  stable _ _ _ hc h := hc.id.trans h
  arm _ _ _ h _ _ _ := h
  drop _ _ _ _ h := h

theorem Moves.runId (h : Moves u ticket as s s') (hs : s.Attended u ls) :
    s'.run.id = s.run.id :=
  (h.keeps (P := Holds (fun r _ => r.id = s.run.id) s.taken)
    (fun _ i _ _ h => h.apply u (id_lasting s.run.id) i) ((hs.holds.rebase rfl).noted as)).now

theorem Moves.requests (h : Moves u ticket as s s') (hs : s.Attended u ls) :
    ∃ new, s'.requests = s.requests ++ new ∧ ∀ q ∈ new, q.caller.ticket = ticket := by
  refine (h.keeps (P := fun s' => s'.InOrder u ls ∧
    ∃ new, s'.requests = s.requests ++ new ∧ ∀ q ∈ new, q.caller.ticket = ticket) ?_
    ⟨hs.inOrder.noted u as, [], (List.append_nil _).symm, by simp⟩).2
  rintro s' i - hby ⟨ho, new, hnew, htickets⟩
  obtain ⟨ho', hrequests⟩ := ho.apply u i
  refine ⟨ho', new ++ (s'.arrival? i).toList, hrequests.trans ?_, ?_⟩
  · change s'.requests ++ _ = _
    rw [hnew, List.append_assoc]
  · intro q hq
    rcases List.mem_append.mp hq with hq | hq
    · exact htickets q hq
    · cases i with
      | submit caller q' =>
          obtain rfl : q = ⟨caller, q'.direct⟩ := by simpa [arrival?] using hq
          exact hby
      | fire caller timer =>
          obtain ⟨t, -, hq⟩ := Option.bind_eq_some_iff.mp (Option.mem_toList.mp hq)
          obtain ⟨q', -, rfl⟩ := Option.map_eq_some_iff.mp hq
          exact hby
      | reply r => simp [arrival?] at hq
      | schedule event element context delay => simp [arrival?] at hq
      | close => simp [arrival?] at hq

theorem Attended.runId (hs : s.Attended u ls) {e : Caller × Except Fault Response}
    (he : e ∈ s.finished) {r : Response} (hr : e.2 = .ok r) : r.runId = s.run.id := by
  obtain ⟨place, hplace⟩ := List.mem_iff_getElem?.mp he
  obtain ⟨q, hq, -, hends⟩ := hs.inOrder.own u hplace
  rw [hr] at hends
  exact (Request.runId u.rules hends).trans (hs.holds.onward q (List.mem_of_getElem? hq)).id.symm

/-- What is recorded with a move, other than by the caller, tells that it is of the session's run. -/
theorem Moves.answers (h : Moves u ticket as s s') (hs : s.Attended u ls) :
    ∃ more, s'.answers = s.answers ++ as ++ more ∧ ∀ a ∈ more, a.runId = s'.run.id := by
  have hs' := h.attended hs
  obtain ⟨is, rfl, -⟩ := h
  obtain ⟨new, hfinished, hanswers⟩ := play_adds u is (s.noted as)
  refine ⟨_, hanswers, fun a ha => ?_⟩
  obtain ⟨⟨c, o⟩, he, ha⟩ := List.mem_flatMap.mp ha
  have hmem : (c, o) ∈ ((s.noted as).play u is).finished := by
    rw [hfinished]
    exact List.mem_append_right _ he
  cases o with
  | error f => cases ha
  | ok r =>
      rw [← hs'.runId hmem rfl]
      exact Setup.forwards_runId ha

end Session

end GuidedJourney
