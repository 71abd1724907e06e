import GuidedJourney.Proofs.SessionCourse
import GuidedJourney.Proofs.ValidJourney

namespace GuidedJourney

open Relation

namespace Action

variable (canCall : Bool) (transient : Fields)

theorem perform_goesOn {a : Action} {b b' : Batch} {t t' : Turn}
    (h : (perform canCall transient a b t).Reaches (.done t' (b', true))) : b'.ending = b.ending := by
  cases a with
  | navigate _ deeplink =>
      rw [perform] at h
      obtain ⟨t₁, s?, -, h⟩ := Work.Reaches.bind_done h
      cases s? with
      | none => cases h; rfl
      | some s => cases h
  | update _ scope updates =>
      rw [perform] at h
      obtain ⟨t₁, _, -, h⟩ := Work.Reaches.bind_done h
      cases h
      rfl
  | call _ target onSuccess onError =>
      rw [perform] at h
      obtain ⟨t₁, reply, -, h⟩ := Work.Reaches.bind_done h
      cases reply with
      | success payload =>
          obtain ⟨t₂, _, -, h⟩ := Work.Reaches.bind_done h
          obtain ⟨t₃, b₃, -, h⟩ := Work.Reaches.bind_done h
          cases h
      | failure error payload =>
          obtain ⟨t₂, b₂, -, h⟩ := Work.Reaches.bind_done h
          cases h
  | close _ flowCompleted parameters =>
      rw [perform] at h
      obtain ⟨t₁, _, -, h⟩ := Work.Reaches.bind_done h
      cases h
  | tool _ name parameters =>
      rw [perform] at h
      obtain ⟨t₁, _, -, h⟩ := Work.Reaches.bind_done h
      cases h
      rfl
  | unknown _ tag _ =>
      rw [perform] at h
      obtain ⟨t₁, _, -, h⟩ := Work.Reaches.bind_done h
      cases h
      rfl

/-- Once a list of actions has ended in a navigation or a closing, nothing more of it is carried out,
whatever may follow. -/
theorem performAll_ended (as more : List Action) {b b' : Batch} {t t' : Turn}
    (hb : b.ending = .exhausted) (h : (performAll canCall transient as b t).Reaches (.done t' b'))
    (hb' : b'.ending ≠ .exhausted) :
    (performAll canCall transient (as ++ more) b t).Reaches (.done t' b') := by
  induction as generalizing b t with
  | nil =>
      rw [performAll] at h
      cases h
      exact absurd hb hb'
  | cons a as ih =>
      rw [performAll] at h
      rw [List.cons_append, performAll]
      obtain ⟨t₁, holds, hholds, h⟩ := Work.Reaches.bind_done h
      refine (hholds.bind _).trans ?_
      cases holds with
      | false => exact ih (b := { b with skipped := b.skipped + 1 }) hb h
      | true =>
          obtain ⟨t₂, ⟨b₂, goesOn⟩, hperform, h⟩ := Work.Reaches.bind_done h
          refine (hperform.bind _).trans ?_
          cases goesOn with
          | false => exact h
          | true => exact ih ((perform_goesOn canCall transient hperform).trans hb) h

end Action

namespace Run

def restarted (r : Run) : Run :=
  ((r.agent?.bind (·.screens.head?)).map fun s => r.arrive s (r.stack ++ [s.id])).getD r

theorem completed_iff {r : Run} : r.completed = false ↔ r.completion = none :=
  Option.isSome_eq_false_iff.trans Option.isNone_iff_eq_none

end Run

namespace Turn

/-- A change of a turn whose run is over neither before nor after it, or the settling of what was let
go while the turn waits. -/
inductive Onward (t : Turn) : Turn → Prop
  | change {t' : Turn} (hopen : t.Open) (h : t.Change t') (hopen' : t'.Open) : Onward t t'
  | settle (hopen : t.Open) : Onward t { t with released := [] }

/-- Steps and waits lead on with the run not over, until a closing ends them. -/
theorem onward_or_closed {cs : List Completion} {t t' : Turn} (hopen : t.Open)
    (h : ReflTransGen (fun t t' => t.Step cs t' ∨ t.Open ∧ t' = { t with released := [] }) t t') :
    t'.Open ∧ ReflTransGen Onward t t' ∨
      ∃ t₁, ∃ c ∈ cs, t₁.Open ∧ ReflTransGen Onward t t₁ ∧ t' = t₁.close c := by
  induction h with
  | refl => exact .inl ⟨hopen, .refl⟩
  | @tail t₁ t₂ _ hc ih =>
      have hopen₁ : t₁.Open := by
        rcases hc with hc | hc
        · exact hc.1
        · exact hc.1
      -- After a closing no step begins, since it would have to begin in a run that is not over.
      rcases ih with ⟨-, hpath⟩ | ⟨t₀, c, -, -, -, rfl⟩
      · rcases hc with ⟨-, hchange, hopen₂ | ⟨c, hmem, hclose⟩⟩ | ⟨-, rfl⟩
        · exact .inl ⟨hopen₂, hpath.tail (.change hopen₁ hchange hopen₂)⟩
        · exact .inr ⟨t₁, c, hmem, hopen₁, hpath, hclose⟩
        · exact .inl ⟨hopen₁, hpath.tail (.settle hopen₁)⟩
      · cases hopen₁

end Turn

namespace Request

variable (rules : Rules) {q : Request} {r : Run} {t : Turn}

/-- The request ends by completing the run in the way `c`: up to then its turn has gone on by changes of
a run that was not over, and the completion is the last of them. -/
def Closes (q : Request) (r : Run) (c : Completion) (o : Response) : Prop :=
  ∃ t : Turn, t.Open ∧ ReflTransGen Turn.Onward { run := r } t ∧
    (q.process rules { run := r }).Reaches (.done (t.close c) o) ∧ o.Of r (t.close c)

theorem over_done (q : Request) (hover : r.completed = true) :
    ∃ t o, q.process rules { run := r } = .done t o ∧ t.run.completion = r.completion := by
  by_cases hq : q.demand = .start
  · rcases start_over rules (t := { run := r }) hq hover with ⟨-, he⟩ | ⟨s, t, -, ht, he⟩
    · exact ⟨_, _, he, rfl⟩
    · refine ⟨_, _, he, ?_⟩
      rcases ht with rfl | ⟨message, rfl⟩
      · rfl
      · rfl
  · obtain ⟨o, he, -⟩ := process_over rules (t := { run := r }) hq hover
    exact ⟨_, _, he, rfl⟩

theorem ended_completion {o : Except Fault Response}
    (h : (q.process rules { run := r }).Reaches (.ended t o)) :
    t.run.completion = r.completion ∨
      r.completion = none ∧ ∃ c ∈ q.demand.closings r.screens, ∃ response,
        o = .ok response ∧ t.run.completion = some c ∧ q.Closes rules r c response := by
  cases hover : r.completed with
  | true =>
      obtain ⟨t', o', he, hkept⟩ := q.over_done rules hover
      rw [he] at h
      cases o with
      | error f => cases h
      | ok response =>
          cases h
          exact .inl hkept
  | false =>
      have hnone := Run.completed_iff.mp hover
      obtain ⟨w, hw⟩ := EntryWidth.exists rules r.screens
      have hmeets := q.process_open rules (t := { run := r }) hw hover
      obtain ⟨t₁, hpath, hended⟩ := Work.Meets.reaches (S := fun t t' =>
        t.Step (q.demand.closings r.screens) t' ∨ t.Open ∧ t' = { t with released := [] })
        h hmeets (fun _ _ h => .inl h) fun t h => .inr ⟨h, rfl⟩
      cases o with
      | error f => exact .inl ((Run.completed_iff.mp hended.2).trans hnone.symm)
      | ok response =>
          have hpath' := hpath.trans (ReflTransGen.mono (fun _ _ h => Or.inl h) _ _ hended.1)
          rcases Turn.onward_or_closed (t := { run := r }) hover hpath' with
            ⟨hopen, -⟩ | ⟨t₂, c, hc, hopen, hpath₂, rfl⟩
          · exact .inl ((Run.completed_iff.mp hopen).trans hnone.symm)
          · exact .inr ⟨hnone, c, hc, response, rfl, rfl, t₂, hopen, hpath₂, h, hended.2.tells⟩

theorem waiting_open {c : ServiceCall} {k : ServiceReply → Work Response}
    (h : (q.process rules { run := r }).Reaches (.waiting t c k)) :
    r.completed = false ∧ t.Open := by
  cases hover : r.completed with
  | false =>
      obtain ⟨w, hw⟩ := EntryWidth.exists rules r.screens
      exact ⟨rfl, Work.Meets.waits (q.process_open rules (t := { run := r }) hw hover) h⟩
  | true =>
      obtain ⟨t', o, he, -⟩ := q.over_done rules hover
      rw [he] at h
      cases h

end Request

namespace Session

variable {ε : Type} (u : Setup) {r₀ : Run} {s : Session ε}

/-- From one request to the next a run stays completed or not, but for a request that completes it. -/
theorem Traced.completion (h : Traced u r₀ s) (place : Nat) :
    (s.runAt (place + 1)).completion = (s.runAt place).completion ∨
    ∃ q o, s.taken[place]? = some (q, s.runAt place) ∧ s.finished[place]? = some (q.caller, .ok o) ∧
      (s.runAt place).completion = none ∧
      ∃ c ∈ q.request.demand.closings (s.runAt place).screens,
        (s.runAt (place + 1)).completion = some c ∧ q.request.Closes u.rules (s.runAt place) c o := by
  cases hp : s.taken[place]? with
  | none =>
      have hlength := List.getElem?_eq_none_iff.mp hp
      exact .inl (by rw [runAt_end hlength, runAt_end (Nat.le_succ_of_le hlength)])
  | some p =>
      obtain ⟨q, r⟩ := p
      obtain rfl : s.runAt place = r := runAt_taken hp
      rcases h.at u hp with ⟨t, o, he, hw, hr⟩ | ⟨t, c, k, -, hw, hr⟩
      · rw [← hr]
        rcases Request.ended_completion u.rules hw with hkept | ⟨hnone, c, hc, o, rfl, hclosed, hcloses⟩
        · exact .inl hkept
        · exact .inr ⟨q, o, rfl, he, hnone, c, hc, hclosed, hcloses⟩
      · obtain ⟨hopen, hopen'⟩ := Request.waiting_open u.rules hw
        rw [← hr]
        exact .inl ((Run.completed_iff.mp hopen').trans (Run.completed_iff.mp hopen).symm)

theorem Traced.completion_stays (h : Traced u r₀ s) {place : Nat} {c : Completion}
    (hc : (s.runAt place).completion = some c) {later : Nat} (hle : place ≤ later) :
    (s.runAt later).completion = some c := by
  obtain ⟨n, rfl⟩ := Nat.exists_eq_add_of_le hle
  clear hle
  induction n with
  | zero => exact hc
  | succ n ih =>
      rcases h.completion u (place + n) with he | ⟨q, o, -, -, hnone, -⟩
      · exact he.trans ih
      · rw [ih] at hnone
        cases hnone

theorem closed_lasting : Lasting fun r ts => r.completed = true → ts = [] where
  stable t t' ts hc h := by
    obtain ⟨more, hm⟩ := hc.released
    have hkept : t.run.completed = true → t'.released.foldl Release.apply ts = [] := by
      intro hover
      rw [hm, List.foldl_append, h hover, Release.foldl_nil]
    rcases hc with he | he
    · cases he with
      | complete reason flowCompleted hopen => exact fun _ => by rw [List.foldl_append]; rfl
      | _ => exact hkept
    · cases he <;> exact hkept
  arm r ts t h hopen _ _ hover := by
    rw [hopen] at hover
    cases hover
  drop r ts ts' hs h hover := by simpa [h hover] using hs

theorem completion_lasting (c : Completion) : Lasting fun r _ => r.completion = some c where
  stable t t' ts hc h := by
    have hover : t.run.completed ≠ false := by simp [Run.completed, h]
    rcases hc with he | he
    · cases he with
      | complete reason flowCompleted hopen => exact absurd hopen hover
      | _ => exact h
    · cases he <;> exact h
  arm _ _ _ h _ _ _ := h
  drop _ _ _ _ h := h

/-- Whatever comes in, a run is completed at most once, and for good. Once it is, it stays completed in
the same way, and no timer is pending any more. Either no request has changed whether and how the run
is completed, or one has completed it in one of the ways of its own, a closing of the screens or what
a termination gives: up to then the run is not completed, from then on it is in that way, and the
completion is the last change of that request's turn. For what ends a list of actions is the last of
them to be carried out, and no entry event fires in a run that is over. -/
theorem play_completion (r : Run) (ls : List Listener) (is : List (Input ε)) :
    let s := ({ run := r, listeners := ls } : Session ε).play u is
    (∀ c, s.run.completion = some c → ∀ js,
      (s.play u js).run.completion = some c ∧ (s.play u js).timers = []) ∧
    ((∀ place, (s.runAt place).completion = r.completion) ∨
      ∃ place q o, s.taken[place]? = some (q, s.runAt place) ∧
        s.finished[place]? = some (q.caller, .ok o) ∧
        ∃ c ∈ q.request.demand.closings r.screens, q.request.Closes u.rules (s.runAt place) c o ∧
          (∀ k ≤ place, (s.runAt k).completion = none) ∧
          ∀ k, place < k → (s.runAt k).completion = some c) ∧
    (∀ (transient : Fields) (as more : List Action) (b b' : Batch) (t t' : Turn),
      b.ending = .exhausted →
      (Action.performAll u.rules.canCall transient as b t).Reaches (.done t' b') →
      b'.ending ≠ .exhausted →
      (Action.performAll u.rules.canCall transient (as ++ more) b t).Reaches (.done t' b')) ∧
    ∀ (enter : Screen → Act Unit) (sc : Screen) (es : List Event) (t : Turn), t.run.completed →
      Act.fireEntryEvents u.rules enter sc es t = .done t () := by
  intro s
  have hfresh : InOrder u ls ({ run := r, listeners := ls } : Session ε) := .fresh u r ls
  have htraced : Traced u r s := (Traced.fresh u r ls).play u hfresh is
  refine ⟨fun c hc js => ?_, ?_, fun transient as more b b' t t' hb h hb' => ?_,
    fun enter sc es t hover => Act.fireEntryEvents_over u.rules enter sc es hover⟩
  · have hclosed : Holds _ [] s := (Holds.fresh r ls fun _ => rfl).play u closed_lasting is
    have hkept := ((hclosed.rebase (J := fun r _ => r.completion = some c) hc).play u
      (completion_lasting c) js).now
    have hover : (s.play u js).run.completed = true := by rw [Run.completed, hkept]; rfl
    exact ⟨hkept, (hclosed.play u closed_lasting js).now hover⟩
  · by_cases hsame : ∀ place, (s.runAt (place + 1)).completion = (s.runAt place).completion
    · left
      intro place
      induction place with
      | zero => rw [htraced.runAt_zero]
      | succ place ih => rw [hsame, ih]
    · right
      -- Where the completion changes, the request completes the run; it stays so after, so that the
      -- run cannot have been completed before.
      obtain ⟨place, hplace⟩ := not_forall.mp hsame
      rcases htraced.completion u place with he | ⟨q, o, htaken, hfinished, hnone, c, hc, hclosed, hcloses⟩
      · exact absurd he hplace
      · refine ⟨place, q, o, htaken, hfinished, c, ?_, hcloses, fun k hk => ?_, fun k hk => ?_⟩
        · rw [← (runAt_becomes u r ls is place).screens]
          exact hc
        · cases hk' : (s.runAt k).completion with
          | none => rfl
          | some c' =>
              rw [htraced.completion_stays u hk' hk] at hnone
              cases hnone
        · exact htraced.completion_stays u hclosed hk
  · exact Action.performAll_ended u.rules.canCall transient as more hb h hb'

end Session

def Tour.restart : List (Input Unit) :=
  [.submit () ⟨.start, none⟩, .submit () ⟨.terminate .null false, none⟩, .submit () ⟨.back, none⟩,
    .submit () ⟨.start, none⟩]

namespace Session

variable {ε : Type} (u : Setup) {r₀ : Run} {s : Session ε}

/-- The request that was taken up at a place is ignored, and leaves the run exactly as it was. -/
def Ignores (s : Session ε) (place : Nat) (q : Queued ε) : Prop :=
  ∃ o, s.finished[place]? = some (q.caller, .ok o) ∧ o.outcome = .ignored ∧
    s.runAt (place + 1) = s.runAt place

theorem Traced.waits_open (h : Traced u r₀ s) {w : Suspension ε} (hs : s.suspended = some w) :
    s.run.completed = false := by
  cases h with
  | through _ hnone =>
      rw [hs] at hnone
      cases hnone
  | waiting ps q r t c k _ _ hw hr _ =>
      rw [hr]
      exact (Request.waiting_open u.rules hw).2

theorem Traced.over_ended (h : Traced u r₀ s) {place : Nat} {q : Queued ε} {r : Run} {t : Turn}
    {o : Response} (hq : s.taken[place]? = some (q, r))
    (hw : q.request.process u.rules { run := r } = .done t o) :
    s.finished[place]? = some (q.caller, .ok o) ∧ s.runAt (place + 1) = t.run := by
  rcases h.at u hq with ⟨t', o', he, hw', hr⟩ | ⟨t', c, k, -, hw', -⟩
  · rw [hw] at hw'
    cases o' with
    | ok o' =>
        cases hw'
        exact ⟨he, hr.symm⟩
    | error f => cases hw'
  · rw [hw] at hw'
    cases hw'

theorem Traced.over_ignored (h : Traced u r₀ s) {place : Nat} {q : Queued ε}
    (hover : (s.runAt place).completed = true) (hq : s.taken[place]? = some (q, s.runAt place))
    (hstart : q.request.demand ≠ .start) : s.Ignores place q := by
  obtain ⟨o, he, ho, -⟩ :=
    Request.process_over u.rules (t := { run := s.runAt place }) hstart hover
  obtain ⟨hf, hr⟩ := h.over_ended u hq he
  exact ⟨o, hf, ho, hr⟩

theorem Traced.over_started (h : Traced u r₀ s) {place : Nat} {q : Queued ε}
    (hover : (s.runAt place).completed = true) (hq : s.taken[place]? = some (q, s.runAt place))
    (hstart : q.request.demand = .start) : ∃ o, s.finished[place]? = some (q.caller, .ok o) ∧
      o.outcome = .started ∧ s.runAt (place + 1) = (s.runAt place).restarted := by
  rcases Request.start_over u.rules (t := { run := s.runAt place }) hstart hover with
    ⟨hnone, he⟩ | ⟨sc, t, hs, ht, he⟩
  · obtain ⟨hf, hr⟩ := h.over_ended u hq he
    exact ⟨_, hf, rfl, by rw [hr, Run.restarted, hnone]; rfl⟩
  · obtain ⟨hf, hr⟩ := h.over_ended u hq he
    refine ⟨_, hf, rfl, ?_⟩
    rw [hr, Run.restarted, hs]
    rcases ht with rfl | ⟨message, rfl⟩
    · rfl
    · rfl

/-- Whatever comes in, once a run is over a request is ignored just if it is no start, whether it was
handed in before or after; a start goes to the first screen again. A run that is over holds no request
back, and arms no timer. -/
theorem play_over (r : Run) (ls : List Listener) (is : List (Input ε)) :
    let s := ({ run := r, listeners := ls } : Session ε).play u is
    (∀ k place q, (s.runAt k).completed → k ≤ place → s.taken[place]? = some (q, s.runAt place) →
      (s.Ignores place q ↔ q.request.demand ≠ .start) ∧
      (q.request.demand = .start → ∃ o, s.finished[place]? = some (q.caller, .ok o) ∧
        o.outcome = .started ∧ s.runAt (place + 1) = (s.runAt place).restarted)) ∧
    (s.run.completed → s.queue = [] ∧ ∀ event element context delay, ∃ o,
      s.schedule event element context delay = (s, o) ∧ o.outcome = .ignored) := by
  intro s
  have hfresh : InOrder u ls ({ run := r, listeners := ls } : Session ε) := .fresh u r ls
  have htraced : Traced u r s := (Traced.fresh u r ls).play u hfresh is
  refine ⟨fun k place q hk hle hq => ?_, fun hover => ⟨?_, fun event element context delay => ?_⟩⟩
  · have hover : (s.runAt place).completed = true := by
      obtain ⟨c, hc⟩ := Option.isSome_iff_exists.mp hk
      rw [Run.completed, htraced.completion_stays u hc hle]
      rfl
    refine ⟨⟨fun hignores hstart => ?_, htraced.over_ignored u hover hq⟩,
      htraced.over_started u hover hq⟩
    obtain ⟨o, hf, ho, -⟩ := hignores
    obtain ⟨o', hf', ho', -⟩ := htraced.over_started u hover hq hstart
    rw [hf] at hf'
    cases hf'
    rw [ho] at ho'
    cases ho'
  · cases (hfresh.play u is).1 with
    | idle _ _ hqueue _ => exact hqueue
    | waiting w t _ hs _ _ =>
        rw [htraced.waits_open u hs] at hover
        cases hover
  · rw [schedule, if_pos hover]
    exact ⟨_, rfl, rfl⟩

theorem play_over_tour :
    let s := ({ run := Tour.run } : Session Unit).play {} Tour.restart
    (s.runAt 2).completed ∧ s.Ignores 2 ⟨(), ⟨.back, none⟩⟩ ∧
      ∃ o, s.finished[3]? = some ((), .ok o) ∧ o.outcome = .started ∧
        s.runAt 4 = (s.runAt 3).restarted := by
  intro s
  have hover := (play_over {} Tour.run [] Tour.restart).1
  refine ⟨by decide, ?_, ?_⟩
  · exact (hover 2 2 ⟨(), ⟨.back, none⟩⟩ (by decide) (Nat.le_refl _) rfl).1.mpr nofun
  · exact (hover 2 3 _ (by decide) (by decide) rfl).2 rfl

/-- A run that is over may yet change: a start enters the first screen again. -/
theorem over_restarts : ¬ ∀ (u : Setup) (r : Run) (ls : List Listener) (is : List (Input Unit)),
    let s := ({ run := r, listeners := ls } : Session Unit).play u is
    ∀ place q, (s.runAt place).completed → s.taken[place]? = some (q, s.runAt place) →
      s.Ignores place q := by
  intro h
  obtain ⟨o, -, -, hr⟩ := h {} Tour.run [] Tour.restart 3 ⟨(), ⟨.start, none⟩⟩ (by decide) rfl
  have hstack := congrArg Run.stack hr
  revert hstack
  decide

end Session

end GuidedJourney
