import GuidedJourney.Proofs.AnswerPlaces
import GuidedJourney.Proofs.SessionCourse
import GuidedJourney.Proofs.ValidJourney

namespace GuidedJourney

namespace Run

section

variable {α : Type} (n : Nat)

theorem lastOf_length (xs : List α) : (lastOf n xs).length = min xs.length n := by
  rw [lastOf, List.length_drop]
  omega

theorem lastOf_getElem? (xs : List α) (i : Nat) : (lastOf n xs)[i]? = xs[xs.length - n + i]? :=
  List.getElem?_drop

/-- What is left out early would have been left out later anyway. -/
theorem lastOf_append (xs ys : List α) : lastOf n (lastOf n xs ++ ys) = lastOf n (xs ++ ys) := by
  have hfront : lastOf n xs ++ ys = (xs ++ ys).drop (xs.length - n) :=
    (List.drop_append_of_le_length (Nat.sub_le _ _)).symm
  have hrest : xs.length - n + ((xs ++ ys).length - (xs.length - n) - n) = (xs ++ ys).length - n := by
    rw [List.length_append]
    omega
  rw [hfront, lastOf, lastOf, List.length_drop, List.drop_drop, hrest]

end

def entry (r : Run) (event element : Value) : AppliedEvent := ⟨r.sequence + 1, event, r.screenId, element⟩

/-- Nothing has been put on record from one run to the other. -/
structure SameLog (r r' : Run) : Prop where
  sequence : r'.sequence = r.sequence
  log : r'.log = r.log
  logLimit : r'.logLimit = r.logLimit

/-- The run has put on record just the events of the history, in order. -/
structure Remembers (r : Run) (history : List AppliedEvent) : Prop where
  sequence : r.sequence = history.length
  log : r.log = lastOf r.logLimit history
  numbered : ∀ i e, history[i]? = some e → e.sequence = i + 1

/-- The run `r'` comes from `r` by changes of turns, which have put these events on record. -/
inductive Puts (r : Run) : List AppliedEvent → Run → Prop
  | refl : Puts r [] r
  | record {es : List AppliedEvent} {r₁ : Run} (h : Puts r es r₁) (event element : Value) :
      Puts r (es ++ [r₁.entry event element]) (r₁.record event element)
  | change {es : List AppliedEvent} {t t' : Turn} (h : Puts r es t.run) (hc : t.Change t')
      (hsame : t.run.SameLog t'.run) : Puts r es t'.run

namespace Remembers

variable {r r' : Run} {history : List AppliedEvent}

theorem same (h : r.Remembers history) (hsame : r.SameLog r') : r'.Remembers history :=
  ⟨hsame.sequence.trans h.sequence, by rw [hsame.log, hsame.logLimit, h.log], h.numbered⟩

theorem record (h : r.Remembers history) (event element : Value) :
    (r.record event element).Remembers (history ++ [r.entry event element]) where
  sequence := by
    rw [List.length_append, ← h.sequence]
    rfl
  log := by
    change lastOf r.logLimit (r.log ++ _) = _
    rw [h.log, lastOf_append]
    rfl
  numbered i e he := by
    rcases Session.concat_at he with ⟨he, -⟩ | ⟨rfl, rfl⟩
    · exact h.numbered i e he
    · rw [← h.sequence]
      rfl

theorem puts {es : List AppliedEvent} (h : r.Remembers history) (hputs : r.Puts es r') :
    r'.Remembers (history ++ es) := by
  induction hputs with
  | refl =>
      rw [List.append_nil]
      exact h
  | record _ event element ih =>
      rw [← List.append_assoc]
      exact ih.record event element
  | change _ _ hsame ih => exact ih.same hsame

theorem length (h : r.Remembers history) : r.log.length = min r.sequence r.logLimit := by
  rw [h.log, lastOf_length, h.sequence]

theorem consecutive (h : r.Remembers history) {i : Nat} {e : AppliedEvent} (he : r.log[i]? = some e) :
    e.sequence + r.log.length = r.sequence + (i + 1) := by
  have hlength := h.length
  have hsequence := h.sequence
  rw [h.log, lastOf_getElem?] at he
  have hnumber := h.numbered _ e he
  omega

end Remembers

theorem Becomes.puts {r r' : Run} (h : r.Becomes r') : ∃ es, r.Puts es r' := by
  induction h with
  | refl => exact ⟨[], .refl⟩
  | tail _ hc ih =>
      obtain ⟨es, hputs⟩ := ih
      obtain ⟨t, t', hc, rfl, rfl⟩ := hc
      rcases (show t.Edit t' ∨ t.Move t' from hc) with hedit | hmove
      · cases hedit with
        | record event element hopen => exact ⟨_, hputs.record event element⟩
        | _ => exact ⟨es, hputs.change hc ⟨rfl, rfl, rfl⟩⟩
      · cases hmove <;> exact ⟨es, hputs.change hc ⟨rfl, rfl, rfl⟩⟩

theorem Puts.sequence {r r' : Run} {es : List AppliedEvent} (h : r.Puts es r') :
    r'.sequence = r.sequence + es.length := by
  induction h with
  | refl => rfl
  | record _ event element ih =>
      rw [List.length_append, ← Nat.add_assoc, ← ih]
      rfl
  | change _ _ hsame ih => rw [hsame.sequence, ih]

theorem Puts.logLimit {r r' : Run} {es : List AppliedEvent} (h : r.Puts es r') :
    r'.logLimit = r.logLimit := by
  induction h with
  | refl => rfl
  | record _ _ _ ih => exact ih
  | change _ _ hsame ih => exact hsame.logLimit.trans ih

theorem Becomes.sequence {r r' : Run} (h : r.Becomes r') : r.sequence ≤ r'.sequence := by
  obtain ⟨es, hputs⟩ := h.puts
  rw [hputs.sequence]
  exact Nat.le_add_right _ _

end Run

def Firing.entry (f : Firing) : AppliedEvent := f.run.entry f.event f.element

/-- An entry event of the screen that is current, whose conditions hold. -/
def Firing.IsEntry (rules : Rules) (f : Firing) : Prop :=
  ∃ (s : Screen) (e : Event), e ∈ s.events ∧ Act.isEntryEvent rules e = true ∧
    f.run.screenId = some s.id ∧ Condition.allHold e.conditions (f.run.context []) = .ok true ∧
    f.event = .str e.id ∧ f.element = .null

namespace Turn

variable {rules : Rules} {t t' : Turn} {fs : List Firing}
  {enters : Screen → Turn → List Firing → Turn → Prop}

def Notes (t : Turn) (fs : List Firing) (t' : Turn) : Prop :=
  ∀ history, t.run.Remembers history → t'.run.Remembers (history ++ fs.map Firing.entry)

theorem Notes.same (h : t.run.SameLog t'.run) : t.Notes [] t' := fun history hr => by
  rw [List.map_nil, List.append_nil]
  exact hr.same h

theorem Notes.given {element : Value} (h : t.Given element t') : t.Notes [] t' := by
  obtain ⟨interactions, warnings, -, rfl⟩ := h
  exact .same ⟨rfl, rfl, rfl⟩

theorem notes_composes : Composes Notes where
  refl _ := .same ⟨rfl, rfl, rfl⟩
  trans h h' history hr := by
    rw [List.map_append, ← List.append_assoc]
    exact h' _ (h history hr)
  warn _ _ := .same ⟨rfl, rfl, rfl⟩
  move _ _ := .same ⟨rfl, rfl, rfl⟩
  close _ _ := .same ⟨rfl, rfl, rfl⟩
  fire {f t t'} h history hr := by
    obtain ⟨store, hkept⟩ := h.kept
    rw [hkept, List.map_singleton, Firing.entry, h.found]
    exact (hr.record f.event f.element).same ⟨rfl, rfl, rfl⟩

theorem Concludes.entries {b : Batch} (h : t.Concludes enters b fs t')
    (henters : ∀ {s t fs t'}, enters s t fs t' → ∀ f ∈ fs, f.IsEntry rules) :
    ∀ f ∈ fs, f.IsEntry rules := by
  unfold Concludes at h
  split at h
  · obtain ⟨rfl, -⟩ := h
    exact List.forall_mem_nil _
  · obtain ⟨rfl, -⟩ := h
    exact List.forall_mem_nil _
  · split at h
    · exact henters h
    · obtain ⟨rfl, -⟩ := h
      exact List.forall_mem_nil _

theorem Fires.entries {s : Screen} {es : List Event} (h : Fires rules enters s es t fs t')
    (henters : ∀ {s t fs t'}, enters s t fs t' → ∀ f ∈ fs, f.IsEntry rules) (hes : es ⊆ s.events) :
    ∀ f ∈ fs, f.IsEntry rules := by
  induction h with
  | nil => exact List.forall_mem_nil _
  | left => exact List.forall_mem_nil _
  | other _ _ ih => exact ih (List.subset_of_cons_subset hes)
  | unmet _ _ _ _ _ ih => exact ih (List.subset_of_cons_subset hes)
  | fired he _ hon hmet h _ ih =>
      cases h with
      | mk _ _ hends =>
          intro f hf
          rcases List.mem_append.mp hf with hf | hf
          · rcases List.mem_cons.mp hf with rfl | hf
            · exact ⟨s, _, hes List.mem_cons_self, he, hon, hmet, rfl, rfl⟩
            · exact hends.entries henters f hf
          · exact ih (List.subset_of_cons_subset hes) f hf

theorem Visits.entries {n : Nat} {s : Screen} (h : Visits rules n s t fs t') :
    ∀ f ∈ fs, f.IsEntry rules := by
  induction n generalizing s t fs t' with
  | zero =>
      obtain ⟨rfl, -⟩ := h
      exact List.forall_mem_nil _
  | succ n ih => exact Fires.entries h ih (List.Subset.refl _)

end Turn

namespace Demand

variable {rules : Rules} {d : Demand} {t t' : Turn} {o : Response}

theorem Fires.notes {fs : List Firing} (h : d.Fires rules t fs t') : t.Notes fs t' := by
  have hcomposes := Turn.notes_composes
  cases h with
  | ignored => exact hcomposes.refl t
  | unstarted => exact hcomposes.refl t
  | started _ h => exact hcomposes.visits h
  | @refused c outcome _ _ h ho =>
      have hreaches : (Act.eventOutcome rules c.named t).Reaches (.done t' outcome) := h ▸ .refl _
      exact .given (Act.eventOutcome_refused rules hreaches ho).2
  | applied hoffered _ h =>
      have hcarries := hcomposes.carriesOut hcomposes.visits h
      exact hcomposes.trans (.given hoffered.given) hcarries
  | unreached _ _ message => exact hcomposes.warn message t
  | left => exact .same ⟨rfl, rfl, rfl⟩
  | @handed id a _ _ _ _ _ _ h =>
      have hhand : t.Notes [] (t.handTo a) := .same ⟨rfl, rfl, rfl⟩
      exact hcomposes.trans hhand (hcomposes.visits h)
  | quiet _ hd h =>
      cases h with
      | wrote label ws =>
          obtain ⟨store, hrun⟩ := (Turn.jots_kept (t.writeAll_jots ws)).1
          refine .same ?_
          rw [hrun]
          exact ⟨rfl, rfl, rfl⟩
      | stayed => exact .same ⟨rfl, rfl, rfl⟩
      | back => exact .same ⟨rfl, rfl, rfl⟩
      | terminated => exact .same ⟨rfl, rfl, rfl⟩
      | _ => cases hd

def isApplied (d : Demand) (o : Response) : Bool :=
  match d with
  | .event _ => o.outcome == .applied
  | _ => false

theorem process_fires (h : (d.process rules t).Reaches (.done t' o)) :
    ∃ own entries, d.Fires rules t (own ++ entries) t' ∧
      own.map (fun f => (f.event, f.element)) =
        (if d.isApplied o then [(o.eventId, o.elementId)] else []) ∧
      ∀ f ∈ entries, f.IsEntry rules := by
  by_cases hd : ∃ c, d = .event c
  · obtain ⟨c, rfl⟩ := hd
    change (Act.processEvent rules c t).Reaches _ at h
    rw [Act.processEvent_apply] at h
    obtain ⟨t₁, outcome, houtcome, h⟩ := h.bind_done
    cases h
    by_cases ho : outcome = .applied
    · subst ho
      obtain ⟨e, transient, t₁, fs, hoffered, hmet, hcarries⟩ :=
        Act.eventOutcome_applied rules (c := c.named) houtcome
      cases hcarries with
      | @mk _ _ _ ws fs hactions hwrites hends =>
          let own : Firing := ⟨⟨t₁.run, ws⟩, c.named.id, c.element⟩
          have hfires : (Demand.event c).Fires rules t ([own] ++ fs) t' :=
            .applied hoffered hmet (.mk hactions hwrites hends)
          exact ⟨[own], fs, hfires, (if_pos rfl).symm, hends.entries fun h => h.entries⟩
    · refine ⟨[], [], ?_, (if_neg (by simpa [isApplied, Turn.response] using ho)).symm, List.forall_mem_nil _⟩
      obtain ⟨he, -⟩ := Act.eventOutcome_refused rules (c := c.named) houtcome ho
      cases hover : t.run.completed with
      | false => exact .refused hover he ho
      | true =>
          rw [Act.eventOutcome_apply, if_pos hover] at he
          cases he
          exact .ignored (by simp) hover
  · obtain ⟨fs, hfires⟩ := Demand.fires rules h
    have hnone : d.isApplied o = false := by
      cases d with
      | event c => exact absurd ⟨c, rfl⟩ hd
      | _ => rfl
    refine ⟨[], fs, hfires, by rw [hnone]; rfl, ?_⟩
    cases hfires with
    | started _ h => exact h.entries
    | handed _ _ _ h => exact h.entries
    | applied => exact absurd ⟨_, rfl⟩ hd
    | _ => exact List.forall_mem_nil _

end Demand

namespace Session

variable {ε : Type} (u : Setup) {s : Session ε} {r₀ : Run} {place : Nat}

theorem Traced.next_becomes (h : Traced u r₀ s) (place : Nat) :
    (s.runAt place).Becomes (s.runAt (place + 1)) := by
  cases hp : s.taken[place]? with
  | none =>
      have hend := List.getElem?_eq_none_iff.mp hp
      rw [runAt_end hend, runAt_end (Nat.le_succ_of_le hend)]
      exact .refl
  | some p =>
      obtain ⟨w, hw, hrun, -⟩ := h.reached u hp
      rw [← hrun, runAt_taken hp]
      exact Request.process_becomes u.rules hw

theorem Traced.sequence_mono (h : Traced u r₀ s) {place place' : Nat} (hle : place ≤ place') :
    (s.runAt place).sequence ≤ (s.runAt place').sequence := by
  induction hle with
  | refl => exact Nat.le_refl _
  | step _ ih => exact Nat.le_trans ih (h.next_becomes u _).sequence

/-- The events that a request has made fire are what the run that it leaves behind has put on record
since. -/
theorem Traced.notes (h : Traced u r₀ s) {q : Queued ε} {o : Response}
    (hq : s.taken[place]? = some (q, s.runAt place))
    (ho : s.finished[place]? = some (q.caller, .ok o)) :
    ∃ own entries t, q.request.demand.Fires u.rules
        { run := (s.runAt place).counted q.request.tally } (own ++ entries) t ∧
      t.run = s.runAt (place + 1) ∧
      own.map (fun f => (f.event, f.element)) =
        (if q.request.demand.isApplied o then [(o.eventId, o.elementId)] else []) ∧
      (∀ f ∈ entries, f.IsEntry u.rules) ∧
      (∀ history, (s.runAt place).Remembers history →
        (s.runAt (place + 1)).Remembers (history ++ (own ++ entries).map Firing.entry)) ∧
      o.sequence = (s.runAt (place + 1)).sequence := by
  obtain ⟨w, hw, hrun, hdone⟩ := h.reached u hq
  obtain ⟨t, rfl⟩ := hdone q.caller o ho
  have hrun : t.run = s.runAt (place + 1) := hrun
  obtain ⟨_, _, _, _, htells⟩ := Request.tells u.rules hw
  rw [Request.process_apply] at hw
  obtain ⟨own, entries, hfires, hown, hentries⟩ := Demand.process_fires hw
  refine ⟨own, entries, t, hfires, hrun, hown, hentries, fun history hr => ?_, ?_⟩
  · obtain ⟨store, hcounted⟩ := (s.runAt place).counted_eq q.request.tally
    rw [← hrun]
    refine hfires.notes history ?_
    rw [hcounted]
    exact hr.same ⟨rfl, rfl, rfl⟩
  · rw [htells, ← hrun]
    rfl

/-- Whatever comes in, the log of a started run holds the last of the events that have fired so far, as
many as it may hold and no more, with consecutive numbers up to that of the run, and each with the screen
that was current when it fired; the number never goes down. A request that comes to a response raises it
by one for each entry event that it has made fire and, if it is for an event that was applied, by one for
that event, and the response tells the number. -/
theorem play_log (h : Host) (j : Journey) (globals : List Screen) (state : Fields) (id : String)
    {r : Run} (hr : h.newRun j globals state id = .ok r) (ls : List Listener) (first : ε)
    (is : List (Input ε)) :
    let limit := h.setup.interpreter.maxEventLog
    let s := (({ run := r, listeners := ls } : Session ε).submit h.setup first ⟨.start, none⟩).play
      h.setup is
    (∀ place, ∃ history, r.Puts history (s.runAt place) ∧
      (s.runAt place).log = Run.lastOf limit history ∧
      (s.runAt place).log.length = min (s.runAt place).sequence limit ∧
      ∀ i e, (s.runAt place).log[i]? = some e →
        e.sequence + (s.runAt place).log.length = (s.runAt place).sequence + (i + 1)) ∧
    (∀ place place', place ≤ place' → (s.runAt place).sequence ≤ (s.runAt place').sequence) ∧
    (∀ more, s.run.sequence ≤ (s.play h.setup more).run.sequence) ∧
    ∀ place q o, s.taken[place]? = some (q, s.runAt place) →
      s.finished[place]? = some (q.caller, .ok o) →
      ∃ own entries t, q.request.demand.Fires h.setup.rules
          { run := (s.runAt place).counted q.request.tally } (own ++ entries) t ∧
        t.run = s.runAt (place + 1) ∧
        own.map (fun f => (f.event, f.element)) =
          (if q.request.demand.isApplied o then [(o.eventId, o.elementId)] else []) ∧
        (∀ f ∈ entries, f.IsEntry h.setup.rules) ∧
        (s.runAt (place + 1)).log =
          Run.lastOf limit ((s.runAt place).log ++ (own ++ entries).map Firing.entry) ∧
        (s.runAt (place + 1)).sequence = (s.runAt place).sequence + (own.length + entries.length) ∧
        o.sequence = (s.runAt (place + 1)).sequence := by
  intro limit s
  obtain ⟨-, hnew⟩ := Host.newRun_ok hr
  have hfresh : InOrder h.setup ls ({ run := r, listeners := ls } : Session ε) := .fresh h.setup r ls
  have htraced : Traced h.setup r s :=
    (Traced.fresh h.setup r ls).play h.setup hfresh (.submit first ⟨.start, none⟩ :: is)
  have hempty : r.Remembers [] := by
    rw [hnew]
    exact ⟨rfl, List.drop_nil.symm, nofun⟩
  have hputs : ∀ place, ∃ history, r.Puts history (s.runAt place) ∧
      (s.runAt place).Remembers history ∧ (s.runAt place).logLimit = limit := by
    intro place
    have hbecomes : r.Becomes (s.runAt place) :=
      runAt_becomes h.setup r ls (.submit first ⟨.start, none⟩ :: is) place
    obtain ⟨history, hputs⟩ := hbecomes.puts
    refine ⟨history, hputs, hempty.puts hputs, ?_⟩
    rw [hputs.logLimit, hnew]
  refine ⟨fun place => ?_, fun place place' => htraced.sequence_mono h.setup, fun more => ?_,
    fun place q o hq ho => ?_⟩
  · obtain ⟨history, hputs, hremembers, hlimit⟩ := hputs place
    rw [← hlimit]
    exact ⟨history, hputs, hremembers.log, hremembers.length, fun _ _ he => hremembers.consecutive he⟩
  · have hholds : Holds (fun r' _ => r.Becomes r') [] s :=
      (Holds.fresh r ls .refl).play h.setup (becomes_lasting r) (.submit first ⟨.start, none⟩ :: is)
    exact ((hholds.rebase .refl).play h.setup (becomes_lasting s.run) more).now.sequence
  · obtain ⟨own, entries, t, hfires, hrun, hown, hentries, hnotes, ho⟩ := htraced.notes h.setup hq ho
    obtain ⟨history, -, hremembers, hlimit⟩ := hputs place
    obtain ⟨-, -, -, hlimit'⟩ := hputs (place + 1)
    have hnext := hnotes history hremembers
    refine ⟨own, entries, t, hfires, hrun, hown, hentries, ?_, ?_, ho⟩
    · rw [hnext.log, hremembers.log, hlimit, hlimit', Run.lastOf_append]
    · rw [hnext.sequence, hremembers.sequence, List.length_append, List.length_map, List.length_append]

end Session

-- The way into the garden, with a log that holds a single event.
namespace Outlook

def host : Host := { setup := { interpreter := { maxEventLog := 1 } } }

def briefRun : Run := { run with logLimit := 1 }

theorem newRun_briefRun : host.newRun run.journey [] [] "tour" = .ok briefRun := by
  have hname : run.journey.nameIssues = [] := by decide +kernel
  exact Host.newRun_valid _ (Journey.issues_clear rfl hname rfl (by decide)) [] [] "tour"

end Outlook

namespace Session

theorem play_log_outlook :
    let s := (({ run := Outlook.briefRun } : Session Unit).submit Outlook.host.setup () ⟨.start, none⟩).play
      Outlook.host.setup [.submit () ⟨Outlook.walk, none⟩]
    s.run.sequence = 2 ∧ s.run.log.length = 1 ∧ s.run.log.map AppliedEvent.screenId = [some "garden"] ∧
      ∃ o, s.finished[1]? = some ((), .ok o) ∧ o.sequence = 2 := by
  intro s
  obtain ⟨hlog, -, -, hprocessed⟩ := play_log Outlook.host Outlook.run.journey [] [] "tour"
    Outlook.newRun_briefRun [] () [.submit () ⟨Outlook.walk, none⟩]
  obtain ⟨_, -, -, hlength, -⟩ := hlog 2
  obtain ⟨_, _, _, -, -, -, -, -, -, ho⟩ := hprocessed 1 ⟨(), ⟨Outlook.walk, none⟩⟩ _ rfl rfl
  exact ⟨by decide +kernel, hlength, by decide +kernel, _, rfl, ho⟩

end Session

end GuidedJourney
