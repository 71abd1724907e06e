import GuidedJourney.Proofs.Desk
import GuidedJourney.Proofs.Refusals

namespace GuidedJourney

def Input.isFire {ε : Type} : Input ε → Bool
  | .fire .. => true
  | _ => false

namespace Act

variable (rules : Rules) {t t' : Turn} {o : Outcome}

theorem applyEvent_ended {c : EventCall} {e : Event} {transient : Fields}
    (h : (applyEvent rules c e transient t).Reaches (.done t' o)) :
    o = .applied ∨ o = .conditionsNotMet := by
  rcases applyEvent_cases rules c e transient t with ⟨f, he⟩ | he | hholds
  · rw [he] at h
    cases h
  · rw [he] at h
    cases h
    exact .inr rfl
  · rw [applyEvent_holds rules c hholds] at h
    obtain ⟨_, _, -, h⟩ := h.bind_done
    obtain ⟨_, _, -, h⟩ := h.bind_done
    cases h
    exact .inl rfl

theorem eventOutcome_ignored {c : EventCall} (h : (eventOutcome rules c t).Reaches (.done t' o)) :
    o = .ignored ↔ t.run.completed = true := by
  cases hover : t.run.completed with
  | true =>
      rw [eventOutcome_apply, if_pos hover] at h
      cases h
      simp
  | false =>
      have hrest : o ≠ .ignored := by
        cases harmed : c.armed.any (·.visit != t.run.visit) with
        | true =>
            rw [eventOutcome_apply, hover, harmed] at h
            obtain ⟨_, _, -, h⟩ := Work.Reaches.bind_done h
            cases h
            simp
        | false =>
            cases hs : t.run.screen? with
            | none =>
                rw [eventOutcome_apply, hover, harmed, hs] at h
                cases h
                simp
            | some s =>
                rw [eventOutcome_open rules hover harmed hs] at h
                obtain ⟨t₁, transient, -, h⟩ := h.bind_done
                unfold applyOffered at h
                cases he : s.offers? c.id c.element with
                | none =>
                    rw [he] at h
                    cases h
                    simp
                | some e =>
                    rw [he] at h
                    rcases applyEvent_ended rules h with rfl | rfl
                    · simp
                    · simp
      simpa using hrest

end Act

theorem Demand.process_undelayed (rules : Rules) {d : Demand} {t t' : Turn} {o : Response}
    (hd : ∀ c, d ≠ .event c) (h : (d.process rules t).Reaches (.done t' o)) : o.delayed = false := by
  cases hover : t.run.completed with
  | false =>
      cases Demand.ends rules hover h with
      | event c => exact absurd rfl (hd c)
      | _ => rfl
  | true =>
      cases d with
      | start =>
          have happly := Request.process_apply rules ⟨.start, none⟩ t
          rcases Request.start_over rules (q := ⟨.start, none⟩) rfl hover with
            ⟨-, he⟩ | ⟨_, _, -, -, he⟩
          all_goals
            have hdone : Demand.start.process rules t = _ := happly.symm.trans he
            rw [hdone] at h
            cases h
            rfl
      | event c => exact absurd rfl (hd c)
      | back | handoff id | write label ws | terminate reason flowCompleted =>
          change ((if t.run.completed = true then _ else _ : Act Response) t).Reaches _ at h
          rw [if_pos hover] at h
          cases h
          rfl

namespace Request

/-- A response says that its event had been put off just if a timer has made the request, and the run
was not over when it was taken up. -/
theorem process_delayed (rules : Rules) {q : Request} {r : Run} {t : Turn} {o : Response}
    (h : (q.process rules { run := r }).Reaches (.done t o)) :
    (o.delayed = true ↔ q.timer?.isSome = true ∧ o.outcome ≠ .ignored) ∧
      (q.timer?.isSome = true → (o.outcome = .ignored ↔ r.completed = true)) := by
  obtain ⟨store, hcounted⟩ := r.counted_eq q.tally
  rw [q.process_apply, hcounted] at h
  rcases q with ⟨d, tally⟩
  by_cases hd : ∃ c, d = .event c
  · obtain ⟨c, rfl⟩ := hd
    change (Act.processEvent rules c _).Reaches _ at h
    rw [Act.processEvent_apply] at h
    obtain ⟨t₁, outcome, houtcome, hdone⟩ := h.bind_done
    cases hdone
    have hignored : outcome = .ignored ↔ r.completed = true :=
      Act.eventOutcome_ignored rules houtcome
    have hdelayed : (c.armed.isSome && outcome != .ignored) = true ↔
        c.armed.isSome = true ∧ outcome ≠ .ignored := by simp
    exact ⟨hdelayed, fun _ => hignored⟩
  · have hnone : timer? ⟨d, tally⟩ = none := by
      cases d with
      | event c => exact absurd ⟨c, rfl⟩ hd
      | _ => rfl
    have hundelayed := Demand.process_undelayed rules (fun c hc => hd ⟨c, hc⟩) h
    simp [hundelayed, hnone]

end Request

namespace Session

variable {ε : Type} (u : Setup)

/-- The input `i` brings in the request `q`, as the one at a place in the order of arrival. -/
def Brings (s : Session ε) (is : List (Input ε)) (place : Nat) (i : Input ε) (q : Queued ε) : Prop :=
  ∃ before after, is = before ++ i :: after ∧ (s.arrivals u before).length = place ∧
    (s.play u before).arrival? i = some q

variable {s : Session ε} {is : List (Input ε)} {place : Nat} {i : Input ε} {q : Queued ε}

theorem Brings.cons {j : Input ε} (h : (s.apply u j).Brings u is place i q) :
    s.Brings u (j :: is) ((s.arrival? j).toList.length + place) i q := by
  obtain ⟨before, after, rfl, hplace, hi⟩ := h
  refine ⟨j :: before, after, rfl, ?_, hi⟩
  rw [arrivals, List.length_append, hplace]

theorem arrival_brought (h : (s.arrivals u is)[place]? = some q) : ∃ i, s.Brings u is place i q := by
  induction is generalizing s place with
  | nil => cases h
  | cons j is ih =>
      rw [arrivals] at h
      have hcons : ∀ {n i}, (s.apply u j).Brings u is n i q → _ := fun h => h.cons u
      cases hj : s.arrival? j with
      | none =>
          rw [hj] at h hcons
          obtain ⟨i, hi⟩ := ih h
          exact ⟨i, by simpa using hcons hi⟩
      | some p =>
          rw [hj] at h hcons
          cases place with
          | zero =>
              cases h
              exact ⟨j, [], is, rfl, rfl, hj⟩
          | succ place =>
              obtain ⟨i, hi⟩ := ih h
              exact ⟨i, by simpa [Nat.add_comm] using hcons hi⟩

theorem Brings.arrives (h : s.Brings u is place i q) : (s.arrivals u is)[place]? = some q := by
  obtain ⟨before, after, rfl, rfl, hi⟩ := h
  induction before generalizing s with
  | nil =>
      change s.arrival? i = some q at hi
      change ((s.arrival? i).toList ++ _)[0]? = some q
      rw [hi]
      rfl
  | cons j before ih =>
      rw [List.cons_append, arrivals, arrivals, List.length_append,
        List.getElem?_append_right (Nat.le_add_right _ _), Nat.add_sub_cancel_left]
      exact ih hi

theorem arrival?_timer? (h : s.arrival? i = some q) : q.request.timer?.isSome = i.isFire := by
  cases i with
  | submit caller q' =>
      cases h
      simp [Input.isFire]
  | fire caller timer =>
      obtain ⟨t, -, hq⟩ := Option.bind_eq_some_iff.mp h
      obtain ⟨q', hq', rfl⟩ := Option.map_eq_some_iff.mp hq
      rw [Timer.request?_timer? hq']
      rfl
  | reply r => cases h
  | schedule event element context delay => cases h
  | close => cases h

/-- Every response that listeners are told of is one to a request that an input has brought in. It says
that its event had been put off just if the input was a timer that went off and the request was not
ignored; and the request of a timer is ignored just if the run was over when it was taken up. -/
theorem play_marked (r : Run) (ls : List Listener) (is : List (Input ε)) :
    let s₀ : Session ε := { run := r, listeners := ls }
    let s := s₀.play u is
    s.listeners = ls.map (fun l => { l with heard := l.heard ++ s.responses }) ∧
    (∀ place caller o, s.finished[place]? = some (caller, .ok o) →
      ∃ i q, s₀.Brings u is place i q ∧ q.caller = caller ∧
        s.taken[place]? = some (q, s.runAt place)) ∧
    ∀ place caller o i q, s.finished[place]? = some (caller, .ok o) → s₀.Brings u is place i q →
      (o.delayed = true ↔ i.isFire = true ∧ o.outcome ≠ .ignored) ∧
      (i.isFire = true → (o.outcome = .ignored ↔ (s.runAt place).completed = true)) := by
  intro s₀ s
  have hfresh : InOrder u ls s₀ := .fresh u r ls
  obtain ⟨horder, hrequests⟩ := hfresh.play u is
  have htraced : Traced u r s := (Traced.fresh u r ls).play u hfresh is
  have harrivals : s.taken.map Prod.fst ++ s.queue = s₀.arrivals u is := hrequests
  -- The request that is finished at a place is the one that has come in there.
  have hfound : ∀ {place caller o}, s.finished[place]? = some (caller, .ok o) →
      ∃ q, s.taken[place]? = some (q, s.runAt place) ∧ q.caller = caller ∧
        (s₀.arrivals u is)[place]? = some q := by
    intro place caller o hf
    obtain ⟨⟨q, r'⟩, htaken, hcaller, -⟩ := horder.own u hf
    have hlt := (List.getElem?_eq_some_iff.mp htaken).1
    refine ⟨q, by rw [runAt_taken htaken, htaken], hcaller.symm, ?_⟩
    rw [← harrivals, List.getElem?_append_left (by simpa using hlt), List.getElem?_map, htaken]
    rfl
  refine ⟨horder.told.2, fun place caller o hf => ?_, fun place caller o i q hf hi => ?_⟩
  · obtain ⟨q, htaken, hcaller, hq⟩ := hfound hf
    obtain ⟨i, hi⟩ := arrival_brought u hq
    exact ⟨i, q, hi, hcaller, htaken⟩
  · obtain ⟨q', htaken, -, hq'⟩ := hfound hf
    obtain rfl := Option.some.inj (hq'.symm.trans (hi.arrives u))
    obtain ⟨_, _, -, -, harrival⟩ := hi
    obtain ⟨w, hw, -, hdone⟩ := htraced.reached u htaken
    obtain ⟨t, rfl⟩ := hdone caller o hf
    rw [← arrival?_timer? harrival]
    exact Request.process_delayed u.rules hw

theorem brings_of_isSome (s : Session ε) (is : List (Input ε)) {n : Nat} (hi : is[n]? = some i)
    (hplace : (s.arrivals u (is.take n)).length = place)
    (h : ((s.play u (is.take n)).arrival? i).isSome = true) : ∃ q, s.Brings u is place i q := by
  obtain ⟨q, hq⟩ := Option.isSome_iff_exists.mp h
  obtain ⟨hlt, hi⟩ := List.getElem?_eq_some_iff.mp hi
  refine ⟨q, is.take n, is.drop (n + 1), ?_, hplace, hq⟩
  rw [← hi, List.getElem_cons_drop, List.take_append_drop]

theorem exists_finished (s : Session ε) (place : Nat) {p : Response → Bool}
    (h : (s.finished[place]?.bind (·.2.toOption)).any p = true) :
    ∃ caller o, s.finished[place]? = some (caller, .ok o) ∧ p o = true := by
  obtain ⟨o, ho, hp⟩ := (Option.any_eq_true _ _).mp h
  obtain ⟨⟨caller, _ | _⟩, hf, hok⟩ := Option.bind_eq_some_iff.mp ho
  · cases hok
  · cases hok
    exact ⟨caller, o, hf, hp⟩

end Session

def Tour.curfew : List (Input Unit) := [
  .submit () ⟨.start, none⟩,
  .schedule (.str "hurry") .null .null none,
  .schedule (.str "hurry") .null .null none,
  .submit () ⟨.event { id := .str "ask" }, none⟩,
  .fire () 0,
  .submit () ⟨.terminate (.str "closing time") false, none⟩,
  .fire () 1,
  .reply (.success .null)]

namespace Session

theorem play_marked_tour :
    let s := ({ run := Tour.run } : Session Unit).play Tour.setup Tour.curfew
    ∃ o o', s.finished[2]? = some ((), .ok o) ∧ o.outcome = .applied ∧ o.delayed = true ∧
      s.finished[4]? = some ((), .ok o') ∧ o'.outcome = .ignored := by
  intro s
  have hmarked := (play_marked Tour.setup Tour.run [] Tour.curfew).2.2
  obtain ⟨_, hfirst⟩ := brings_of_isSome Tour.setup { run := Tour.run } Tour.curfew (n := 4) rfl rfl
    (by decide +kernel)
  obtain ⟨_, hsecond⟩ := brings_of_isSome Tour.setup { run := Tour.run } Tour.curfew (n := 6) rfl rfl
    (by decide +kernel)
  obtain ⟨_, o, ho, happlied⟩ := exists_finished s 2 (p := fun o => o.outcome == .applied)
    (by decide +kernel)
  obtain ⟨_, o', ho', -⟩ := exists_finished s 4 (p := fun _ => true) (by decide +kernel)
  have happlied : o.outcome = .applied := by simpa using happlied
  refine ⟨o, o', ho, happlied, ?_, ho', ?_⟩
  · exact (hmarked 2 () o _ _ ho hfirst).1.mpr ⟨rfl, by simp [happlied]⟩
  · exact ((hmarked 4 () o' _ _ ho' hsecond).2 rfl).mpr (by decide +kernel)

/-- The response to the second timer does not say that its event had been put off. -/
theorem ignored_unmarked : ¬ ∀ (u : Setup) (r : Run) (ls : List Listener) (is : List (Input Unit)),
    let s₀ : Session Unit := { run := r, listeners := ls }
    let s := s₀.play u is
    ∀ place caller o i q, s.finished[place]? = some (caller, .ok o) → s₀.Brings u is place i q →
      (o.delayed = true ↔ i.isFire = true) := by
  intro h
  obtain ⟨_, hsecond⟩ := brings_of_isSome Tour.setup { run := Tour.run } Tour.curfew (n := 6) rfl rfl
    (by decide +kernel)
  obtain ⟨_, o, ho, hmarked⟩ := exists_finished
    (({ run := Tour.run } : Session Unit).play Tour.setup Tour.curfew) 4 (p := fun o => !o.delayed)
    (by decide +kernel)
  rw [(h Tour.setup Tour.run [] Tour.curfew 4 () o _ _ ho hsecond).mpr rfl] at hmarked
  cases hmarked

end Session

end GuidedJourney
