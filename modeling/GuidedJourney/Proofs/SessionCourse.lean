import GuidedJourney.Proofs.SessionInvariant

namespace GuidedJourney.Session

variable {ε : Type} (u : Setup)

/-- A property that stays when a request is taken up and when the one that waits goes on, and that does
not look at timers and at requests to come. -/
structure Followed (P : Session ε → Prop) : Prop where
  take : ∀ s q, P s → s.suspended = none → P (s.take u q)
  resumed : ∀ s w x, P s → s.suspended = some w → P (s.resumed u w x)
  arranged : ∀ s timers armed queue draining, P s → P { s with timers, armed, queue, draining }

namespace Followed

variable {u} {P : Session ε → Prop} {ls : List Listener} {s : Session ε}

theorem drain (h : Followed u P) (queue : List (Queued ε)) (hs : P s) (hnone : s.suspended = none) :
    P (s.drain u queue) := by
  induction queue generalizing s with
  | nil => exact h.arranged s s.timers s.armed [] false hs
  | cons q rest ih =>
      have ht := h.take s q hs hnone
      rw [drain_cons]
      split
      · exact h.arranged _ _ _ rest _ ht
      · rename_i hw
        exact ih ht (by simpa [isWaiting] using hw)

theorem submit (h : Followed u P) (hs : P s) (ho : InOrder u ls s) (caller : ε) (q : Request) :
    P (s.submit u caller q) := by
  cases ho with
  | idle _ hnone _ hd =>
      rw [submit_idle u hd]
      exact h.drain _ hs hnone
  | waiting w t _ _ _ hd =>
      rw [submit_busy u hd]
      exact h.arranged s s.timers s.armed _ s.draining hs

theorem reply (h : Followed u P) (hs : P s) (x : ServiceReply) : P (s.reply u x) := by
  cases hw : s.suspended with
  | none =>
      rw [reply_idle u hw]
      exact hs
  | some w =>
      have hr := h.resumed s w x hs hw
      rw [reply_waiting u hw]
      split
      · exact hr
      · rename_i hnone
        exact h.drain _ hr (by simpa [isWaiting] using hnone)

theorem apply (h : Followed u P) (hs : P s) (ho : InOrder u ls s) (i : Input ε) :
    P (s.apply u i) := by
  have harranged : ∀ ts as, P { s with timers := ts, armed := as } :=
    fun ts as => h.arranged s ts as s.queue s.draining hs
  cases i with
  | submit caller q => exact h.submit hs ho caller q.direct
  | reply x => exact h.reply hs x
  | fire caller timer =>
      rcases fire_cases u caller timer s with ⟨-, ts, -, he⟩ | ⟨t, q, -, -, -, -, he⟩
      · rw [Session.apply, he]
        exact harranged ts s.armed
      · rw [Session.apply, he]
        exact h.submit (harranged _ s.armed) (ho.timers u _ s.armed) caller q
  | schedule event element context delay =>
      rcases schedule_cases event element context delay s with ⟨-, he⟩ | ⟨-, he⟩
      · rw [Session.apply, he]
        exact hs
      · rw [Session.apply, he]
        exact harranged _ _
  | close => exact harranged [] s.armed

end Followed

/-- The run as the request at a place of the order found it; past the last one, the run as it is. -/
def runAt (s : Session ε) (place : Nat) : Run := (s.taken[place]?.map Prod.snd).getD s.run

/-- The requests have been processed one after another, from the run `r₀` on to the run `r`. -/
inductive Course (r₀ : Run) :
    List (Queued ε × Run) → List (ε × Except Fault Response) → Run → Prop
  | nil : Course r₀ [] [] r₀
  | snoc {ps : List (Queued ε × Run)} {es : List (ε × Except Fault Response)} {q : Queued ε}
      {r : Run} {t : Turn} {o : Except Fault Response} (h : Course r₀ ps es r)
      (ho : (q.request.process u.rules { run := r }).Reaches (.ended t o)) :
      Course r₀ (ps ++ [(q, r)]) (es ++ [(q.caller, o)]) t.run

/-- How a session that began with the run `r₀` has come to where it is. -/
inductive Traced (r₀ : Run) (s : Session ε) : Prop
  | through (course : Course u r₀ s.taken s.finished s.run) (suspended : s.suspended = none)
  | waiting (ps : List (Queued ε × Run)) (q : Queued ε) (r : Run) (t : Turn) (c : ServiceCall)
      (k : ServiceReply → Work Response) (course : Course u r₀ ps s.finished r)
      (taken : s.taken = ps ++ [(q, r)])
      (work : (q.request.process u.rules { run := r }).Reaches (.waiting t c k))
      (run : s.run = t.run) (suspended : s.suspended = some ⟨q.caller, c, k⟩)

variable {r₀ : Run} {s : Session ε}

theorem Traced.follow {ps : List (Queued ε × Run)} {q : Queued ε} {r : Run} {w : Work Response}
    (h : Course u r₀ ps s.finished r) (ht : s.taken = ps ++ [(q, r)]) (hs : s.suspended = none)
    (hw : (q.request.process u.rules { run := r }).Reaches w) :
    Traced u r₀ (s.follow u q.caller w) := by
  rcases follow_cases u q.caller w s with ⟨t, ts, cs, o, ho, he⟩ | ⟨t, ts, cs, c, k, hk, he⟩
  · have hc := h.snoc (hw.trans ho)
    rw [← ht] at hc
    rw [he]
    cases o with
    | ok a => exact .through hc hs
    | error f => exact .through hc hs
  · rw [he]
    exact .waiting ps q r t c k h ht (hw.trans hk) rfl rfl

theorem Traced.take (h : Traced u r₀ s) (hs : s.suspended = none) (q : Queued ε) :
    Traced u r₀ (s.take u q) := by
  cases h with
  | through hc _ => exact Traced.follow u hc rfl hs (.refl _)
  | waiting ps q r t c k hc ht hw hr hsome =>
      rw [hs] at hsome
      cases hsome

theorem Traced.resumed (h : Traced u r₀ s) {w : Suspension ε} (hs : s.suspended = some w)
    (x : ServiceReply) : Traced u r₀ (s.resumed u w x) := by
  cases h with
  | through _ hnone =>
      rw [hs] at hnone
      cases hnone
  | waiting ps q r t c k hc ht hw hr hsome =>
      obtain rfl := Option.some.inj (hs.symm.trans hsome)
      have hgoes : (q.request.process u.rules { run := r }).Reaches (k x) :=
        hw.trans (.resume t c k x (.refl _))
      exact Traced.follow (s := { s with suspended := none }) u hc ht rfl hgoes

theorem Traced.arranged (h : Traced u r₀ s) (timers armed : List Timer) (queue : List (Queued ε))
    (draining : Bool) : Traced u r₀ { s with timers, armed, queue, draining } := by
  cases h with
  | through hc hs => exact .through hc hs
  | waiting ps q r t c k hc ht hw hr hs => exact .waiting ps q r t c k hc ht hw hr hs

theorem traced_followed (r₀ : Run) : Followed u (Traced (ε := ε) u r₀) where
  take _ q h hs := h.take u hs q
  resumed _ _ x h hs := h.resumed u hs x
  arranged _ timers armed queue draining h := h.arranged u timers armed queue draining

theorem Traced.apply {ls : List Listener} (h : Traced u r₀ s) (ho : InOrder u ls s) (i : Input ε) :
    Traced u r₀ (s.apply u i) :=
  (traced_followed u r₀).apply h ho i

/-- Whatever comes in, the course of the session is the processing of its requests. -/
theorem Traced.play {ls : List Listener} (h : Traced u r₀ s) (ho : InOrder u ls s)
    (is : List (Input ε)) : Traced u r₀ (s.play u is) :=
  (play_induction u (P := fun s => Traced u r₀ s ∧ InOrder u ls s)
    (fun _ i h => ⟨h.1.apply u h.2 i, (h.2.apply u i).1⟩) s is ⟨h, ho⟩).1

theorem Traced.fresh (r : Run) (ls : List Listener) :
    Traced u r ({ run := r, listeners := ls } : Session ε) :=
  .through .nil rfl

theorem Course.length {ps : List (Queued ε × Run)} {es : List (ε × Except Fault Response)} {r : Run}
    (h : Course u r₀ ps es r) : es.length = ps.length := by
  induction h with
  | nil => rfl
  | snoc _ _ ih => simp [ih]

theorem Course.first {ps : List (Queued ε × Run)} {es : List (ε × Except Fault Response)} {r : Run}
    (h : Course u r₀ ps es r) : (ps[0]?.map Prod.snd).getD r = r₀ := by
  induction h with
  | nil => rfl
  | @snoc ps es q r t o _ _ ih =>
      cases ps with
      | nil => exact ih
      | cons p ps => exact ih

theorem concat_at {α : Type} {ps : List α} {p p' : α} {place : Nat}
    (h : (ps ++ [p])[place]? = some p') :
    ps[place]? = some p' ∧ place < ps.length ∨ p' = p ∧ place = ps.length := by
  rcases Nat.lt_trichotomy place ps.length with hlt | rfl | hlt
  · rw [List.getElem?_append_left hlt] at h
    exact .inl ⟨h, hlt⟩
  · rw [List.getElem?_concat_length] at h
    exact .inr ⟨(Option.some.inj h).symm, rfl⟩
  · rw [List.getElem?_eq_none (by simpa using Nat.succ_le_of_lt hlt)] at h
    cases h

theorem concat_next {ps : List (Queued ε × Run)} {place : Nat} (h : place < ps.length) (q : Queued ε)
    (r r' : Run) : ((ps ++ [(q, r)])[place + 1]?.map Prod.snd).getD r' =
      (ps[place + 1]?.map Prod.snd).getD r := by
  rcases Nat.lt_or_eq_of_le (Nat.succ_le_of_lt h) with hlt | heq
  · rw [List.getElem?_append_left hlt, List.getElem?_eq_getElem hlt]
    rfl
  · rw [Nat.add_one, heq, List.getElem?_concat_length, List.getElem?_eq_none (Nat.le_refl _)]
    rfl

theorem Course.at {ps : List (Queued ε × Run)} {es : List (ε × Except Fault Response)} {r : Run}
    (h : Course u r₀ ps es r) {place : Nat} {p : Queued ε × Run} (hp : ps[place]? = some p) :
    ∃ t o, es[place]? = some (p.1.caller, o) ∧
      (p.1.request.process u.rules { run := p.2 }).Reaches (.ended t o) ∧
      t.run = (ps[place + 1]?.map Prod.snd).getD r := by
  induction h with
  | nil => cases hp
  | @snoc ps es q r t o h ho ih =>
      -- The run `r` was the one left over, and is now the one that the new request has found.
      have hlength := h.length
      rcases concat_at hp with ⟨hp, hlt⟩ | ⟨rfl, rfl⟩
      · obtain ⟨t', o', he, hw, hr⟩ := ih hp
        refine ⟨t', o', ?_, hw, hr.trans (concat_next hlt q r t.run).symm⟩
        rw [List.getElem?_append_left (by omega)]
        exact he
      · refine ⟨t, o, ?_, ho, ?_⟩
        · rw [← hlength, List.getElem?_concat_length]
        · rw [List.getElem?_eq_none (by simp)]
          rfl

theorem runAt_taken {place : Nat} {p : Queued ε × Run} (hp : s.taken[place]? = some p) :
    s.runAt place = p.2 := by
  rw [runAt, hp]
  rfl

theorem runAt_end {place : Nat} (hp : s.taken.length ≤ place) : s.runAt place = s.run := by
  rw [runAt, List.getElem?_eq_none hp]
  rfl

theorem Traced.runAt_zero (h : Traced u r₀ s) : s.runAt 0 = r₀ := by
  cases h with
  | through hc _ => exact hc.first
  | waiting ps q r t c k hc ht hw hr hs =>
      rw [← hc.first, runAt, ht]
      cases ps with
      | nil => rfl
      | cons p ps => rfl

theorem Traced.at (h : Traced u r₀ s) {place : Nat} {p : Queued ε × Run}
    (hp : s.taken[place]? = some p) :
    (∃ t o, s.finished[place]? = some (p.1.caller, o) ∧
      (p.1.request.process u.rules { run := p.2 }).Reaches (.ended t o) ∧
      t.run = s.runAt (place + 1)) ∨
    ∃ t c k, s.finished[place]? = none ∧
      (p.1.request.process u.rules { run := p.2 }).Reaches (.waiting t c k) ∧
      t.run = s.runAt (place + 1) := by
  cases h with
  | through hc _ => exact .inl (hc.at u hp)
  | waiting ps q r t c k hc ht hw hr hs =>
      have hlength := hc.length
      rw [ht] at hp
      rcases concat_at hp with ⟨hp, hlt⟩ | ⟨rfl, rfl⟩
      · obtain ⟨t', o, he, hw', hr'⟩ := hc.at u hp
        refine .inl ⟨t', o, he, hw', ?_⟩
        rw [hr', runAt, ht, concat_next hlt]
      · refine .inr ⟨t, c, k, List.getElem?_eq_none (by omega), hw, ?_⟩
        rw [runAt_end (by simp [ht])]
        exact hr.symm

theorem Traced.reached (h : Traced u r₀ s) {place : Nat} {p : Queued ε × Run}
    (hp : s.taken[place]? = some p) :
    ∃ w, (p.1.request.process u.rules { run := p.2 }).Reaches w ∧ w.turn.run = s.runAt (place + 1) ∧
      ∀ caller o, s.finished[place]? = some (caller, .ok o) → ∃ t, w = .done t o := by
  rcases h.at u hp with ⟨t, o, hf, hw, hr⟩ | ⟨t, c, k, hf, hw, hr⟩
  · refine ⟨.ended t o, hw, ?_, fun caller o' hf' => ?_⟩
    · rw [← hr]
      cases o <;> rfl
    · cases hf.symm.trans hf'
      exact ⟨t, rfl⟩
  · exact ⟨.waiting t c k, hw, hr, fun caller o hf' => nomatch hf.symm.trans hf'⟩

theorem Holds.runAt {I : Run → List Timer → Prop} {first : List (Queued ε × Run)}
    (h : Holds I first s) {place : Nat} (hle : first.length ≤ place) : ∃ ts, I (s.runAt place) ts := by
  obtain ⟨rest, htaken, hrest⟩ := h.taken
  cases hp : s.taken[place]? with
  | none => exact ⟨_, runAt_end (List.getElem?_eq_none_iff.mp hp) ▸ h.now⟩
  | some p =>
      rw [runAt_taken hp]
      rw [htaken, List.getElem?_append_right hle] at hp
      exact hrest p (List.mem_of_getElem? hp)

theorem runAt_becomes (r : Run) (ls : List Listener) (is : List (Input ε)) (place : Nat) :
    r.Becomes ((({ run := r, listeners := ls } : Session ε).play u is).runAt place) := by
  have hh := (Holds.fresh (I := fun r' _ => r.Becomes r') r ls .refl).play u (becomes_lasting r) is
  obtain ⟨_, hb⟩ := hh.runAt (Nat.zero_le place)
  exact hb

end GuidedJourney.Session
