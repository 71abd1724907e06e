import GuidedJourney.Proofs.Desk
import GuidedJourney.Proofs.TimerVisits

namespace GuidedJourney

def Request.IsWrite (q : Request) : Prop := ∃ label writes, q.demand = .write label writes

namespace Act

variable {α β : Type} {t : Turn}

def Prompt (x : Act α) (t : Turn) : Prop :=
  ∃ t', t'.run.visit = t.run.visit ∧ ((∃ a, x t = .done t' a) ∨ ∃ f, x t = .failed t' f)

theorem Prompt.bind {x : Act α} {f : α → Act β} (hx : x.Prompt t) (hf : ∀ a t', (f a).Prompt t') :
    (x >>= f).Prompt t := by
  obtain ⟨t₁, hv₁, ⟨a, hx⟩ | ⟨fault, hx⟩⟩ := hx
  · obtain ⟨t₂, hv₂, hended⟩ := hf a t₁
    have hbind : (x >>= f) t = f a t₁ := congrArg (Work.bind · fun t a => f a t) hx
    rw [← hbind] at hended
    exact ⟨t₂, hv₂.trans hv₁, hended⟩
  · exact ⟨t₁, hv₁, .inr ⟨fault, congrArg (Work.bind · fun t a => f a t) hx⟩⟩

theorem pure_prompt (a : α) : (pure a : Act α).Prompt t := ⟨t, rfl, .inl ⟨a, rfl⟩⟩

theorem respond_prompt (before : Run) (outcome : Outcome) : (respond before outcome).Prompt t :=
  ⟨t, rfl, .inl ⟨_, rfl⟩⟩

theorem write_prompt (w : StateWrite) : (write w).Prompt t := by
  have hwritten : ∀ w' : StateWrite, (t.write w').run.visit = t.run.visit := by
    intro w'
    unfold Turn.write
    split
    · rfl
    · rfl
  cases hw : w.copies with
  | false => exact ⟨_, hwritten _, .inr ⟨_, write_lost hw t⟩⟩
  | true => exact ⟨_, hwritten _, .inl ⟨_, write_copies hw t⟩⟩

theorem writeAll_prompt (ws : List StateWrite) : (writeAll ws).Prompt t := by
  induction ws generalizing t with
  | nil => exact pure_prompt ()
  | cons w ws ih => exact (write_prompt w).bind fun _ _ => ih

theorem processWrite_prompt (label : Value) (ws : List StateWrite) :
    (processWrite label ws).Prompt t := by
  have hrun : run.Prompt t := ⟨t, rfl, .inl ⟨t.run, rfl⟩⟩
  refine hrun.bind fun before t₁ => ?_
  split
  · exact (respond_prompt _ _).bind fun _ _ => pure_prompt _
  · refine (writeAll_prompt ws).bind fun _ t₂ => ?_
    exact (respond_prompt _ _).bind fun _ _ => pure_prompt _

theorem count_prompt (tally : Option String) : (count tally).Prompt t := by
  refine ⟨_, ?_, .inl ⟨(), rfl⟩⟩
  cases tally with
  | none => rfl
  | some tool =>
      change (if t.run.completed = true then t.run else _ : Run).visit = _
      split <;> rfl

end Act

theorem Request.IsWrite.prompt {q : Request} (hq : q.IsWrite) (rules : Rules) (t : Turn) :
    (q.process rules).Prompt t := by
  obtain ⟨label, writes, hq⟩ := hq
  refine (Act.count_prompt q.tally).bind fun _ t₁ => ?_
  rw [hq]
  exact Act.processWrite_prompt label writes

namespace Session

variable {ε : Type} (u : Setup)

def Settled (s : Session ε) : Prop :=
  ∀ e, s.taken.getLast? = some e → e.1.request.IsWrite →
    s.suspended = none ∧ s.run.visit = e.2.visit

theorem take_settled (q : Queued ε) {s : Session ε} (hs : s.suspended = none) :
    Settled (s.take u q) := by
  intro e he hw
  obtain ⟨ht, -⟩ := take_frame u q s
  obtain rfl : (q, s.run) = e := by simpa [ht] using he
  obtain ⟨t, hv, ⟨r, hp⟩ | ⟨f, hp⟩⟩ := hw.prompt u.rules { run := s.run }
  · rw [take, hp]
    exact ⟨hs, hv⟩
  · rw [take, hp]
    exact ⟨hs, hv⟩

theorem settled_followed : Followed u (Settled (ε := ε)) where
  take _ q _ hs := take_settled u q hs
  resumed s w r h hs := by
    -- What waits for a service is no write.
    intro e he hw
    rw [(resumed_frame u w r s).2.1] at he
    cases (h e he hw).1.symm.trans hs
  arranged _ _ _ _ _ h := h

theorem schedule_new (event element context : Value) (delay : Option Binary64)
    (s : Session ε) {t : Timer}
    (ht : t ∈ (s.schedule event element context delay).1.armed.drop s.armed.length) :
    t = s.nextTimer event element context delay := by
  rcases schedule_cases event element context delay s with ⟨-, he⟩ | ⟨-, he⟩
  · simp [he] at ht
  · simpa [he] using ht

theorem recorded_new (input : RecordedInput) (r : Response) (s : Session Caller) {t : Timer}
    (ht : t ∈ (s.recorded u input r).1.armed.drop s.armed.length) :
    ∃ event element context delay, t = s.nextTimer event element context delay := by
  unfold recorded at ht
  split at ht
  · simp [ended] at ht
  · rw [recordAnswer_noted] at ht
    dsimp only at ht
    split at ht
    · split at ht
      · simp [ended, noted] at ht
      · simp [ended, noted] at ht
      · exact ⟨_, _, _, _, schedule_new _ _ _ _ (s.noted _) ht⟩
    · simp [ended, noted] at ht

theorem resume_new (c : Caller) (o : Except Fault Response) (s : Session Caller) {t : Timer}
    (ht : t ∈ (s.resume u c o).1.armed.drop s.armed.length) :
    (∀ q, c.errand.Fits q → q.IsWrite) ∧ ∃ event element context delay,
      t = s.nextTimer event element context delay := by
  have hsame : ∀ x : CallStep, x.1.armed = s.armed → t ∉ x.1.armed.drop s.armed.length :=
    fun x hx hm => by simp [hx] at hm
  rcases c with ⟨ticket, errand⟩
  cases o with
  | error f =>
      have he : s.resume u ⟨ticket, errand⟩ (.error f) = ended (.error f) s := by
        cases errand <;> rfl
      exact absurd (he ▸ ht) (hsame _ rfl)
  | ok r =>
      cases errand with
      | none => exact absurd ht (hsame (ended (.ok r) s) rfl)
      | nameless => exact absurd ht (hsame (ended (.ok (complain "" r)) s) rfl)
      | hungUp feedback => exact absurd ht (hsame (ended (.ok (hungUp feedback r)) s) rfl)
      | hangUp reason => exact absurd ht (hsame (s.ask u ticket _ _) (submit_armed u _ _ s))
      | arm event delay context => exact ⟨fun _ hq => hq, _, _, _, _, schedule_new _ _ _ _ s ht⟩
      | record input =>
          exact ⟨fun _ hq => hq, recorded_new u input r s ht⟩

end Session

namespace Tour

def reminder : List Deed := [
  .call 0 (.demand .start),
  record [("nextEventId", .str "hurry")] 1]

def detour : List Deed := [
  .call 0 (.demand .start),
  ask "ask" 1,
  record [("nextEventId", .str "look")] 2,
  ask "walk" 3,
  .reply (.success .null)]

end Tour

namespace Desk

variable (u : Setup)

theorem play_settled (r : Run) (ls : List Listener) (ms : List Deed) :
    Session.Settled ((fresh r ls).play u ms).session :=
  (play_keeps u (P := fun s => Session.Attended u ls s ∧ Session.Settled s)
    (fun _ as h => ⟨h.1.noted u as, h.2⟩)
    (fun _ i hi h => ⟨h.1.apply u hi, (Session.settled_followed u).apply h.2 h.1.inOrder i⟩)
    (fresh r ls) ms ⟨.fresh u r ls, by simp [Session.Settled, fresh]⟩).2

/-- A timer that a caller arms when going on after a write belongs to the visit on which the caller
goes on. So its event is carried out on the visit of the write just if the run has remained there
until then, as it has if no other request was taken up meanwhile. -/
theorem play_write_visit (r : Run) (ls : List Listener) (before : List Deed) (place : Nat)
    (after : List Deed) :
    let d₁ := (fresh r ls).play u before
    let d₂ := d₁.step u (.goOn place)
    let d := d₂.play u after
    ∀ t ∈ d₂.session.armed.drop d₁.session.armed.length, ∃ w o,
      d₁.waiting? place = some (w.1.caller, o) ∧ d₁.session.taken[place]? = some w ∧
      w.1.request.IsWrite ∧
      (d₁.session.taken.length = place + 1 → w.2.Remains d₁.session.run) ∧
      ∀ e ∈ d.session.taken, e.1.request.timer? = some t →
        (d₁.session.run.Remains e.2 ∧ (w.2.Remains e.2 ↔ w.2.Remains d₁.session.run)) ∨
        e.1.request.Idle u.rules e.2 := by
  intro d₁ d₂ d t ht
  have hd₁ : Session.Attended u ls d₁.session := play_attended u _ before (.fresh u r ls)
  have hd : Session.Attended u ls d.session :=
    play_attended u d₁ (.goOn place :: after) hd₁
  have hsettled : Session.Settled d₁.session := play_settled u r ls before
  cases hw : d₁.waiting? place with
  | none =>
      have hsame : d₂ = d₁ := by simp only [d₂, step, hw]
      simp [hsame] at ht
  | some e =>
      obtain ⟨c, o⟩ := e
      have hresume : d₂.session = (d₁.session.resume u c o).1 := by
        simp only [d₂, step, hw]
        rfl
      rw [hresume] at ht
      obtain ⟨hwrite, event, element, context, delay, htimer⟩ := Session.resume_new u c o _ ht
      obtain ⟨w, htaken, hcaller, -⟩ := hd₁.inOrder.own u (waiting?_eq_some hw)
      have hmem := List.mem_of_getElem? htaken
      have hisWrite : w.1.request.IsWrite := by
        refine hwrite _ ?_
        have hfits := hd₁.fits w.1 (List.mem_append_left _ (List.mem_map_of_mem hmem))
        rw [← hcaller] at hfits
        exact hfits
      have hbecomes := hd₁.holds.onward w hmem
      have hlater := play_holds u (Session.becomes_lasting _) d₁ (.goOn place :: after)
        (hd₁.holds.rebase .refl)
      have hid : t.id = d₁.session.armed.length := by rw [htimer]; rfl
      have hvisit : t.visit = d₁.session.run.visit := by rw [htimer]; rfl
      refine ⟨w, o, by rw [← hcaller], htaken, hisWrite, fun hlast => ?_, fun e he hasked => ?_⟩
      · refine hbecomes.remains (hsettled w ?_ hisWrite).2
        rw [List.getLast?_eq_getElem?, hlast]
        exact htaken
      · refine (hd₁.numbered.carried_out hd.numbered hlater hid hvisit he hasked u.rules).imp_left
          fun hremains => ⟨hremains, fun hw' => ?_, fun hw' => hw'.trans hremains⟩
        exact hbecomes.remains (by rw [← hremains.visit, hw'.visit])

theorem play_write_visit_tour :
    let d₁ := (fresh Tour.run []).play Tour.setup Tour.reminder
    let d₂ := d₁.step Tour.setup (.goOn 1)
    let d := d₂.play Tour.setup [.fire 2 0]
    (d₂.session.armed.drop d₁.session.armed.length).length = 1 ∧ d.session.finished.length = 3 ∧
      ∀ t ∈ d₂.session.armed.drop d₁.session.armed.length, ∃ w o,
        d₁.waiting? 1 = some (w.1.caller, o) ∧ d₁.session.taken[1]? = some w ∧
        w.1.request.IsWrite ∧ (d₁.session.taken.length = 2 → w.2.Remains d₁.session.run) ∧
        ∀ e ∈ d.session.taken, e.1.request.timer? = some t →
          (d₁.session.run.Remains e.2 ∧ (w.2.Remains e.2 ↔ w.2.Remains d₁.session.run)) ∨
          e.1.request.Idle Tour.setup.rules e.2 :=
  ⟨by decide +kernel, by decide +kernel,
    play_write_visit Tour.setup Tour.run [] Tour.reminder 1 [.fire 2 0]⟩

def strayed : Desk := (fresh Tour.run []).play Tour.setup Tour.detour

def looked : Desk := (strayed.step Tour.setup (.goOn 2)).play Tour.setup [.fire 4 0]

/-- An event need not belong to the visit of the write: the write is processed in the hall, and the
walk to the garden comes before the caller goes on. -/
theorem write_visit_left : ¬ ∀ (u : Setup) (r : Run) (ls : List Listener) (before : List Deed)
    (place : Nat) (after : List Deed),
    let d₁ := (fresh r ls).play u before
    let d₂ := d₁.step u (.goOn place)
    let d := d₂.play u after
    ∀ t ∈ d₂.session.armed.drop d₁.session.armed.length,
      ∀ (w e : Queued Caller × Run) (i : Nat) (c : Caller) (o : Response),
      d₁.session.taken[place]? = some w → d.session.taken[i]? = some e →
      d.session.finished[i]? = some (c, .ok o) → e.1.request.timer? = some t →
      o.isNoop = false → w.2.visit = e.2.visit := by
  intro h
  have hattended : Session.Attended Tour.setup [] looked.session :=
    play_attended Tour.setup _ _ (play_attended Tour.setup _ [.goOn 2]
      (play_attended Tour.setup _ _ (.fresh Tour.setup Tour.run [])))
  have hwrite : (strayed.session.taken[2]?).map (·.2.visit) = some 1 := by decide +kernel
  have hlook : (looked.session.taken[4]?).map (·.2.visit) = some 2 := by decide +kernel
  have htimer : ((looked.session.taken[4]?).bind (·.1.request.timer?)).isSome = true := by
    decide +kernel
  have hdone : ((looked.session.finished[4]?).bind (·.2.toOption)).map Response.isNoop = some false := by
    decide +kernel
  have hnone : strayed.session.armed.length = 0 := by decide +kernel
  obtain ⟨w, hw, hwvisit⟩ := Option.map_eq_some_iff.mp hwrite
  obtain ⟨e, he, hevisit⟩ := Option.map_eq_some_iff.mp hlook
  rw [he, Option.bind_some] at htimer
  obtain ⟨t, ht⟩ := Option.isSome_iff_exists.mp htimer
  obtain ⟨o, ho, hnoop⟩ := Option.map_eq_some_iff.mp hdone
  obtain ⟨⟨c, outcome⟩, hfinished, ho⟩ := Option.bind_eq_some_iff.mp ho
  cases outcome with
  | error f => cases ho
  | ok response =>
      cases ho
      -- The timer is one of those that the caller has armed, since to go off arms none.
      have harmed : looked.session.armed = (strayed.step Tour.setup (.goOn 2)).session.armed := by
        rcases Session.apply_armed Tour.setup (strayed.step Tour.setup (.goOn 2)).session
          (.fire ⟨4, .none⟩ 0) with he | ⟨_, _, _, _, hi, -⟩
        · exact he
        · cases hi
      have hnew : t ∈ (strayed.step Tour.setup (.goOn 2)).session.armed.drop
          strayed.session.armed.length := by
        rw [hnone, ← harmed]
        exact (hattended.numbered.own e.1 (List.mem_append_left _
          (List.mem_map_of_mem (List.mem_of_getElem? he))) t ht).2
      have hsame := h Tour.setup Tour.run [] Tour.detour 2 [.fire 4 0] t hnew w e 4 c o hw he
        hfinished ht hnoop
      rw [hwvisit, hevisit] at hsame
      cases hsame

end Desk

end GuidedJourney
