import GuidedJourney.Proofs.Desk
import GuidedJourney.Proofs.EntryUpdate
import Mathlib.Data.List.Induction

namespace GuidedJourney

namespace Answer

/-- The answer is one to the question that a key stands for. -/
def Under (k : Key) (a : Answer) : Prop := ∃ k', Key.ofValue a.key = .ok k' ∧ k'.same k = true

theorem latest_append {answers : List Answer} {entries : Entries} (h : latest answers = .ok entries)
    {a : Answer} {k : Key} (hk : Key.ofValue a.key = .ok k) :
    latest (answers ++ [a]) = .ok (Entries.put k a.value entries) := by
  unfold latest at h ⊢
  rw [List.mapM_append, List.mapM_cons, List.mapM_nil, hk]
  cases hm : answers.mapM fun a => do return (← Key.ofValue a.key, a.value) with
  | error f =>
      rw [hm] at h
      cases h
  | ok pairs =>
      rw [hm] at h
      obtain rfl := Except.ok.inj h
      exact congrArg Except.ok List.foldl_append

/-- If the records are in the order of the requests, the latest value of a key is that of the last
request that has recorded the key. -/
theorem latest_last (records : List (Nat × Answer)) (hordered : records.Pairwise (·.1 ≤ ·.1))
    (hkeys : ∀ e ∈ records, ∃ k, Key.ofValue e.2.key = .ok k) :
    ∃ entries, latest (records.map Prod.snd) = .ok entries ∧
      ∀ k, ∀ e ∈ records, e.2.Under k → ∃ l ∈ records, l.2.Under k ∧
        Entries.find? entries k = some l.2.value ∧ ∀ e' ∈ records, e'.2.Under k → e'.1 ≤ l.1 := by
  induction records using List.reverseRecOn with
  | nil => exact ⟨[], rfl, by simp⟩
  | append_singleton records l ih =>
      obtain ⟨hordered, -, hle⟩ := List.pairwise_append.mp hordered
      have hle : ∀ e ∈ records, e.1 ≤ l.1 := fun e he => hle e he l List.mem_cons_self
      obtain ⟨entries, hentries, hlast⟩ :=
        ih hordered fun e he => hkeys e (List.mem_append_left _ he)
      have hmem : l ∈ records ++ [l] := List.mem_append_right _ List.mem_cons_self
      obtain ⟨key, hkey⟩ := hkeys l hmem
      refine ⟨Entries.put key l.2.value entries, ?_, fun k e he hk => ?_⟩
      · rw [List.map_append]
        exact latest_append hentries hkey
      · rw [Entries.find?_put]
        cases hsame : key.same k with
        | true =>
            refine ⟨l, hmem, ⟨key, hkey, hsame⟩, rfl, fun e' he' _ => ?_⟩
            rcases List.mem_append.mp he' with he' | he'
            · exact hle e' he'
            · exact Nat.le_of_eq (congrArg Prod.fst (List.mem_singleton.mp he'))
        | false =>
            -- The last record is not about this key.
            have hold : ∀ e' ∈ records ++ [l], e'.2.Under k → e' ∈ records := by
              rintro e' he' ⟨k', hk', hsame'⟩
              rcases List.mem_append.mp he' with he' | he'
              · exact he'
              · rw [List.mem_singleton.mp he', hkey] at hk'
                rw [Except.ok.inj hk', hsame'] at hsame
                cases hsame
            obtain ⟨l', hl', hunder, hvalue, hmost⟩ := hlast k e (hold e he hk) hk
            exact ⟨l', List.mem_append_left _ hl', hunder, hvalue,
              fun e' he' hk' => hmost e' (hold e' he' hk') hk'⟩

end Answer

namespace Session

variable {ε : Type} (u : Setup)

def Adds (s s' : Session ε) : Prop :=
  ∃ new, s'.finished = s.finished ++ new ∧
    s'.answers = s.answers ++ new.flatMap fun e => u.forwards e.2

theorem Adds.none {s s' : Session ε} (hf : s'.finished = s.finished) (ha : s'.answers = s.answers) :
    Adds u s s' :=
  ⟨[], by simp [hf], by simp [ha]⟩

theorem Adds.trans {s₁ s₂ s₃ : Session ε} (h : Adds u s₁ s₂) (h' : Adds u s₂ s₃) : Adds u s₁ s₃ := by
  obtain ⟨new, hf, ha⟩ := h
  obtain ⟨new', hf', ha'⟩ := h'
  exact ⟨new ++ new', by rw [hf', hf, List.append_assoc],
    by rw [ha', ha, List.append_assoc, List.flatMap_append]⟩

theorem finish_adds (caller : ε) (o : Except Fault Response) (s : Session ε) :
    Adds u s (s.finish u caller o) := by
  refine ⟨[(caller, o)], ?_, ?_⟩
  · cases o <;> rfl
  · cases o <;> simp [finish, notify, Setup.forwards]

theorem follow_adds (caller : ε) (w : Work Response) (s : Session ε) :
    Adds u s (s.follow u caller w) := by
  rcases follow_cases u caller w s with ⟨t, ts, cs, o, -, he⟩ | ⟨t, ts, cs, c, k, -, he⟩
  · rw [he]
    exact finish_adds u caller o { s with run := t.run, timers := ts, calls := cs }
  · rw [he]
    exact .none u rfl rfl

theorem adds_carries : Carries u (Adds (ε := ε) u) where
  trans h h' := h.trans u h'
  follow s caller w := follow_adds u caller w s
  arrange _ _ _ _ _ := .none u rfl rfl

theorem apply_adds (i : Input ε) (s : Session ε) : Adds u s (s.apply u i) := by
  cases i with
  | submit caller q => exact (adds_carries u).submit caller q.direct s
  | reply r => exact (adds_carries u).reply r s
  | fire caller timer =>
      rcases fire_cases u caller timer s with ⟨-, ts, -, he⟩ | ⟨t, q, -, -, -, -, he⟩
      · rw [apply, he]
        exact .none u rfl rfl
      · rw [apply, he]
        exact Adds.trans u (.none u rfl rfl) ((adds_carries u).submit caller q
          { s with timers := s.timers.filter (·.id != timer) })
  | schedule event element context delay =>
      rcases schedule_cases event element context delay s with ⟨-, he⟩ | ⟨-, he⟩
      · rw [apply, he]
        exact .none u rfl rfl
      · rw [apply, he]
        exact .none u rfl rfl
  | close => exact .none u rfl rfl

theorem play_adds (is : List (Input ε)) (s : Session ε) : Adds u s (s.play u is) :=
  play_induction u (P := Adds u s) (fun s' i h => h.trans u (apply_adds u i s')) s is (.none u rfl rfl)

end Session

namespace Tour

def pace (value : String) : Fields := [("summary", .str value), ("storeKey", .str "answer_pace")]

def change : List Deed := [
  .call 0 (.demand .start),
  record (pace "slow") 1,
  .goOn 1,
  ask "hurry" 2]

def haste : List Deed := [
  .call 0 (.demand .start),
  ask "ask" 1,
  record (pace "slow") 2,
  ask "hurry" 3,
  .reply (.success .null),
  .goOn 2]

end Tour

namespace Desk

variable (u : Setup)

/-- The answers are recorded in the order in which their requests are processed. -/
def Ordered (d : Desk) : Prop := d.records.Pairwise (·.1 ≤ ·.1)

instance (d : Desk) : Decidable d.Ordered := inferInstanceAs (Decidable (List.Pairwise _ _))

def Recorded (d : Desk) (place : Nat) (a : Answer) : Prop :=
  ∃ c o, d.session.finished[place]? = some (c, o) ∧
    (a ∈ u.forwards o ∨ place ∈ d.gone ∧ a ∈ own u c o)

/-- The caller who waits for the result at a place still has an answer to record, though one of a
later request is recorded already. -/
def Late (d : Desk) (place : Nat) : Prop :=
  (∃ c o, d.waiting? place = some (c, o) ∧ own u c o ≠ []) ∧
    ∃ later a, place < later ∧ d.Recorded u later a

theorem waiting?_lt {d : Desk} {place : Nat} {e : Caller × Except Fault Response}
    (h : d.waiting? place = some e) : place < d.session.finished.length :=
  (List.getElem?_eq_some_iff.mp (waiting?_eq_some h)).1

theorem mem_forwarded (s : Session Caller) (n : Nat) (e : Nat × Answer) :
    e ∈ forwarded u s n ↔
      n ≤ e.1 ∧ ∃ c o, s.finished[e.1]? = some (c, o) ∧ e.2 ∈ u.forwards o := by
  have hdrop : ∀ x, x ∈ s.finished.zipIdx.drop n ↔ n ≤ x.2 ∧ s.finished[x.2]? = some x.1 := by
    intro x
    rw [List.mem_iff_getElem?]
    simp only [List.getElem?_drop, List.getElem?_zipIdx, Nat.zero_add]
    constructor
    · rintro ⟨i, hi⟩
      obtain ⟨y, hy, rfl⟩ := Option.map_eq_some_iff.mp hi
      exact ⟨Nat.le_add_right n i, hy⟩
    · rintro ⟨hn, hx⟩
      refine ⟨x.2 - n, ?_⟩
      rw [Nat.add_sub_cancel' hn, hx]
      rfl
  rw [forwarded, List.mem_flatMap]
  constructor
  · rintro ⟨⟨⟨c, o⟩, i⟩, hx, he⟩
    obtain ⟨a, ha, rfl⟩ := List.mem_map.mp he
    obtain ⟨hn, hx⟩ := (hdrop _).mp hx
    exact ⟨hn, c, o, hx, ha⟩
  · rintro ⟨hn, c, o, hx, ha⟩
    exact ⟨((c, o), e.1), (hdrop _).mpr ⟨hn, hx⟩, List.mem_map.mpr ⟨e.2, ha, rfl⟩⟩

theorem forwarded_ordered (s : Session Caller) (n : Nat) :
    (forwarded u s n).Pairwise (·.1 ≤ ·.1) := by
  have hplaces : (s.finished.zipIdx.drop n).Pairwise (·.2 < ·.2) := by
    refine List.Pairwise.sublist (List.drop_sublist n _) ?_
    rw [← List.pairwise_map, List.zipIdx_map_snd]
    exact List.pairwise_lt_range'
  refine List.pairwise_flatMap.mpr ⟨fun x _ => ?_, hplaces.imp fun hlt => ?_⟩
  · exact List.pairwise_map.mpr (List.pairwise_of_forall fun _ _ => Nat.le_refl _)
  · intro e he e' he'
    obtain ⟨_, -, rfl⟩ := List.mem_map.mp he
    obtain ⟨_, -, rfl⟩ := List.mem_map.mp he'
    exact Nat.le_of_lt hlt

theorem forwarded_answers (s : Session Caller) (new : List (Caller × Except Fault Response))
    (n : Nat) (h : s.finished.drop n = new) :
    (forwarded u s n).map Prod.snd = new.flatMap fun e => u.forwards e.2 := by
  have hfirst : (s.finished.zipIdx.drop n).map Prod.fst = new := by
    rw [List.map_drop, List.zipIdx_map_fst, h]
  rw [← hfirst, forwarded, List.map_flatMap, List.flatMap_map]
  simp [Function.comp_def]

theorem mem_said (d : Desk) (m : Deed) (e : Nat × Answer) :
    e ∈ d.said u m ↔
      m = .goOn e.1 ∧ ∃ c o, d.waiting? e.1 = some (c, o) ∧ e.2 ∈ own u c o := by
  cases m with
  | goOn place =>
      cases hw : d.waiting? place with
      | none =>
          simp only [said, hw, List.not_mem_nil, false_iff]
          rintro ⟨hm, c, o, he, -⟩
          obtain rfl := Deed.goOn.inj hm
          simp [hw] at he
      | some x =>
          simp only [said, hw, List.mem_map]
          constructor
          · rintro ⟨a, ha, rfl⟩
            exact ⟨rfl, x.1, x.2, hw, ha⟩
          · rintro ⟨hm, c, o, he, ha⟩
            obtain rfl := Deed.goOn.inj hm
            cases hw.symm.trans he
            exact ⟨e.2, ha, rfl⟩
  | _ => simp [said]

theorem step_records (d : Desk) (m : Deed) : (d.step u m).records =
    d.records ++ d.said u m ++ forwarded u (d.step u m).session d.session.finished.length := by
  cases m with
  | goOn place =>
      cases hw : d.waiting? place with
      | none =>
          have hnone : forwarded u d.session d.session.finished.length = [] := by
            simp [forwarded, List.drop_eq_nil_of_le]
          simp only [step, said, hw, hnone, List.append_nil]
      | some x => simp [step, said, hw, turnTo]
  | _ => rfl

theorem mem_step_gone (d : Desk) (m : Deed) (place : Nat) : place ∈ (d.step u m).gone ↔
    place ∈ d.gone ∨ m = .goOn place ∧ ∃ e, d.waiting? place = some e := by
  cases m with
  | goOn place' =>
      cases hw : d.waiting? place' with
      | none =>
          simp only [step, hw]
          refine ⟨.inl, ?_⟩
          rintro (h | ⟨hm, e, he⟩)
          · exact h
          · obtain rfl := Deed.goOn.inj hm
            simp [hw] at he
      | some x =>
          simp only [step, hw, List.mem_cons]
          constructor
          · rintro (rfl | h)
            · exact .inr ⟨rfl, x, hw⟩
            · exact .inl h
          · rintro (h | ⟨hm, -⟩)
            · exact .inr h
            · exact .inl (Deed.goOn.inj hm).symm
  | _ => simp [step, turnTo]

/-- What has been recorded is what the requests have led to. -/
structure Written (d : Desk) : Prop where
  answers : d.records.map Prod.snd = d.session.answers
  recorded : ∀ e, e ∈ d.records ↔ d.Recorded u e.1 e.2
  gone : ∀ place ∈ d.gone, place < d.session.finished.length

theorem Written.fresh (r : Run) (ls : List Listener) : Written u (fresh r ls) :=
  ⟨rfl, by simp [Desk.fresh, Recorded], by simp [Desk.fresh]⟩

theorem Written.place_lt {d : Desk} (h : Written u d) {e : Nat × Answer} (he : e ∈ d.records) :
    e.1 < d.session.finished.length := by
  obtain ⟨c, o, hf, -⟩ := (h.recorded e).mp he
  exact (List.getElem?_eq_some_iff.mp hf).1

theorem step_adds (d : Desk) (m : Deed) :
    Session.Adds u (d.session.noted ((d.said u m).map Prod.snd)) (d.step u m).session := by
  obtain ⟨is, he, -⟩ := d.step_play u m
  rw [he]
  exact Session.play_adds u is _

theorem step_recorded {d : Desk} (hgone : ∀ place ∈ d.gone, place < d.session.finished.length)
    {m : Deed} {new : List (Caller × Except Fault Response)}
    (hnew : (d.step u m).session.finished = d.session.finished ++ new) (e : Nat × Answer) :
    (d.step u m).Recorded u e.1 e.2 ↔ (d.Recorded u e.1 e.2 ∨ e ∈ d.said u m) ∨
      e ∈ forwarded u (d.step u m).session d.session.finished.length := by
  have hold : ∀ {x}, d.session.finished[e.1]? = some x →
      (d.step u m).session.finished[e.1]? = some x := by
    intro x hx
    rw [hnew, List.getElem?_append_left (List.getElem?_eq_some_iff.mp hx).1, hx]
  rw [mem_forwarded, mem_said]
  constructor
  · rintro ⟨c, o, hf, ha⟩
    by_cases hlt : e.1 < d.session.finished.length
    · rw [hnew, List.getElem?_append_left hlt] at hf
      refine .inl ?_
      rcases ha with ha | ⟨hplace, ha⟩
      · exact .inl ⟨c, o, hf, .inl ha⟩
      · rcases (mem_step_gone u d m _).mp hplace with hplace | ⟨hm, x, hw⟩
        · exact .inl ⟨c, o, hf, .inr ⟨hplace, ha⟩⟩
        · cases (waiting?_eq_some hw).symm.trans hf
          exact .inr ⟨hm, c, o, hw, ha⟩
    · rcases ha with ha | ⟨hplace, -⟩
      · exact .inr ⟨Nat.le_of_not_lt hlt, c, o, hf, ha⟩
      · -- Only callers whose requests were finished before have gone on.
        rcases (mem_step_gone u d m _).mp hplace with hplace | ⟨-, x, hw⟩
        · exact absurd (hgone _ hplace) hlt
        · exact absurd (waiting?_lt hw) hlt
  · rintro ((⟨c, o, hf, ha⟩ | ⟨hm, c, o, hw, ha⟩) | ⟨-, c, o, hf, ha⟩)
    · exact ⟨c, o, hold hf, ha.imp_right fun ha => ⟨(mem_step_gone u d m _).mpr (.inl ha.1), ha.2⟩⟩
    · exact ⟨c, o, hold (waiting?_eq_some hw),
        .inr ⟨(mem_step_gone u d m _).mpr (.inr ⟨hm, _, hw⟩), ha⟩⟩
    · exact ⟨c, o, hf, .inl ha⟩

theorem Written.step {d : Desk} (h : Written u d) (m : Deed) : Written u (d.step u m) := by
  obtain ⟨new, hfinished, hanswers⟩ := d.step_adds u m
  change (d.step u m).session.finished = d.session.finished ++ new at hfinished
  change (d.step u m).session.answers = d.session.answers ++ _ ++ _ at hanswers
  refine ⟨?_, fun e => ?_, fun place hplace => ?_⟩
  · have hdrop : (d.step u m).session.finished.drop d.session.finished.length = new := by
      rw [hfinished, List.drop_left]
    rw [step_records, List.map_append, List.map_append, h.answers,
      forwarded_answers u _ new _ hdrop, hanswers]
  · rw [step_recorded u h.gone hfinished, step_records, List.mem_append, List.mem_append, h.recorded]
  · have hlt : place < d.session.finished.length := by
      rcases (mem_step_gone u d m place).mp hplace with hplace | ⟨-, x, hw⟩
      · exact h.gone place hplace
      · exact waiting?_lt hw
    rw [hfinished, List.length_append]
    exact Nat.lt_add_right _ hlt

theorem Written.step_ordered {d : Desk} (h : Written u d) (m : Deed) :
    (d.step u m).Ordered ↔ d.Ordered ∧ ∀ place, m = .goOn place → ¬ d.Late u place := by
  have hforwarded : ∀ e ∈ d.records ++ d.said u m,
      ∀ e' ∈ forwarded u (d.step u m).session d.session.finished.length, e.1 ≤ e'.1 := by
    intro e he e' he'
    refine Nat.le_trans (Nat.le_of_lt ?_) ((mem_forwarded u _ _ e').mp he').1
    rcases List.mem_append.mp he with he | he
    · exact h.place_lt u he
    · obtain ⟨-, c, o, hw, -⟩ := (mem_said u d m e).mp he
      exact waiting?_lt hw
  have hsaid : (d.said u m).Pairwise (·.1 ≤ ·.1) := by
    refine List.Pairwise.imp_of_mem (R := fun _ _ => True) (fun he he' _ => ?_)
      (List.pairwise_of_forall fun _ _ => trivial)
    have hm := ((mem_said u d m _).mp he).1.symm.trans ((mem_said u d m _).mp he').1
    exact Nat.le_of_eq (Deed.goOn.inj hm)
  rw [Ordered, step_records, List.pairwise_append, List.pairwise_append]
  constructor
  · rintro ⟨⟨hordered, -, hle⟩, -, -⟩
    refine ⟨hordered, ?_⟩
    rintro place rfl ⟨⟨c, o, hw, hown⟩, later, a, hlt, hrecorded⟩
    obtain ⟨b, hb⟩ := List.exists_mem_of_ne_nil _ hown
    have hle := hle (later, a) ((h.recorded _).mpr hrecorded) (place, b)
      ((mem_said u d _ _).mpr ⟨rfl, c, o, hw, hb⟩)
    exact absurd hle (Nat.not_le_of_lt hlt)
  · rintro ⟨hordered, hlate⟩
    refine ⟨⟨hordered, hsaid, fun e he e' he' => ?_⟩, forwarded_ordered u _ _, hforwarded⟩
    obtain ⟨hm, c, o, hw, ha⟩ := (mem_said u d m e').mp he'
    refine Nat.le_of_not_lt fun hlt => hlate e'.1 hm ?_
    exact ⟨⟨c, o, hw, List.ne_nil_of_mem ha⟩, e.1, e.2, hlt, (h.recorded e).mp he⟩

theorem Written.play {d : Desk} (h : Written u d) (ms : List Deed) : Written u (d.play u ms) := by
  induction ms generalizing d with
  | nil => exact h
  | cons m ms ih => exact ih (h.step u m)

theorem Written.play_ordered {d : Desk} (h : Written u d) (ms : List Deed) :
    (d.play u ms).Ordered ↔ d.Ordered ∧ ∀ before place after,
      ms = before ++ .goOn place :: after → ¬ (d.play u before).Late u place := by
  induction ms generalizing d with
  | nil => simp [Desk.play]
  | cons m ms ih =>
      rw [Desk.play, ih (h.step u m), h.step_ordered u m]
      constructor
      · rintro ⟨⟨hordered, hfirst⟩, hrest⟩
        refine ⟨hordered, fun before place after he => ?_⟩
        cases before with
        | nil => exact hfirst place (List.cons.inj he).1
        | cons m' before =>
            obtain ⟨rfl, htail⟩ := List.cons.inj he
            exact hrest before place after htail
      · rintro ⟨hordered, hall⟩
        refine ⟨⟨hordered, fun place he => ?_⟩, fun before place after he => ?_⟩
        · exact hall [] place ms (he ▸ rfl)
        · exact hall (m :: before) place after (he ▸ rfl)

/-- The recorder has the answers of each request: those that are forwarded of it at once, and those of
its caller's own once the caller has gone on. They are in the order in which the requests were
processed just if no caller has recorded an answer after one of a later request had been recorded; and
then the latest value of a key is that of the last request that has recorded the key. -/
theorem play_records (r : Run) (ls : List Listener) (ms : List Deed) :
    let d := (fresh r ls).play u ms
    d.records.map Prod.snd = d.session.answers ∧
    (∀ e, e ∈ d.records ↔ ∃ w o, d.session.taken[e.1]? = some w ∧
      d.session.finished[e.1]? = some (w.1.caller, o) ∧
      (e.2 ∈ u.forwards o ∨ e.1 ∈ d.gone ∧ e.2 ∈ own u w.1.caller o)) ∧
    (d.Ordered ↔ ∀ before place after, ms = before ++ .goOn place :: after →
      ¬ ((fresh r ls).play u before).Late u place) ∧
    (d.Ordered → (∀ a ∈ d.session.answers, ∃ k, Key.ofValue a.key = .ok k) →
      ∃ entries, Answer.latest d.session.answers = .ok entries ∧
        ∀ k, ∀ e ∈ d.records, e.2.Under k → ∃ l ∈ d.records, l.2.Under k ∧
          Entries.find? entries k = some l.2.value ∧
          ∀ e' ∈ d.records, e'.2.Under k → e'.1 ≤ l.1) := by
  intro d
  have hfresh : Written u (fresh r ls) := .fresh u r ls
  have hd : Written u d := hfresh.play u ms
  have hattended : Session.Attended u ls d.session := play_attended u _ ms (.fresh u r ls)
  refine ⟨hd.answers, fun e => ?_, ?_, fun hordered hkeys => ?_⟩
  · rw [hd.recorded e]
    constructor
    · rintro ⟨c, o, hf, ha⟩
      obtain ⟨w, hw, rfl, -⟩ := hattended.inOrder.own u hf
      exact ⟨w, o, hw, hf, ha⟩
    · rintro ⟨w, o, -, hf, ha⟩
      exact ⟨w.1.caller, o, hf, ha⟩
  · rw [hfresh.play_ordered u ms]
    exact and_iff_right .nil
  · rw [← hd.answers] at hkeys ⊢
    exact Answer.latest_last d.records hordered fun e he => hkeys e.2 (List.mem_map_of_mem he)

theorem play_records_tour :
    let d := (fresh Tour.run []).play Tour.setup Tour.change
    d.Ordered ∧ d.records.map Prod.fst = [1, 2] ∧
      ∃ entries, Answer.latest d.session.answers = .ok entries ∧
        ∀ k, ∀ e ∈ d.records, e.2.Under k → ∃ l ∈ d.records, l.2.Under k ∧
          Entries.find? entries k = some l.2.value ∧
          ∀ e' ∈ d.records, e'.2.Under k → e'.1 ≤ l.1 := by
  intro d
  have hkeys : d.session.answers.map (·.key) = [.str "answer_pace", .str "answer_pace"] := by rfl
  refine ⟨by decide, by decide,
    (play_records Tour.setup Tour.run [] Tour.change).2.2.2 (by decide) fun a ha => ?_⟩
  have hkey : a.key ∈ d.session.answers.map (·.key) := List.mem_map_of_mem ha
  have hpace : a.key = .str "answer_pace" := by simpa [hkeys] using hkey
  exact ⟨.text "answer_pace", by rw [hpace]; rfl⟩

/-- Answers may be recorded out of order: here the input is processed before the event, and its caller
goes on when the answer of the event has been recorded. -/
theorem records_overtaken : ¬ ∀ (u : Setup) (r : Run) (ls : List Listener) (ms : List Deed),
    ((fresh r ls).play u ms).Ordered := by
  intro h
  have hordered := h Tour.setup Tour.run [] Tour.haste
  revert hordered
  decide

end Desk

end GuidedJourney
