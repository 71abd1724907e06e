import GuidedJourney.Proofs.RequestChange
import GuidedJourney.Proofs.SerialOrder

namespace GuidedJourney.Session

variable {ε : Type} (u : Setup)

/-- A property of a run and its timers that every change of a turn keeps, once the timers that the
turn lets go are gone. -/
def Stable (I : Run → List Timer → Prop) : Prop :=
  ∀ (t t' : Turn) (ts : List Timer), t.Change t' →
    I t.run (t.released.foldl Release.apply ts) →
    I t'.run (t'.released.foldl Release.apply ts)

/-- A property that is kept by whatever may happen to a session. -/
structure Lasting (I : Run → List Timer → Prop) : Prop where
  stable : Stable I
  arm : ∀ r ts t, I r ts → r.completed = false → t.owner = r.screenId → t.visit = r.visit →
    I r (ts ++ [t])
  drop : ∀ r ts ts', ts'.Sublist ts → I r ts → I r ts'

/-- The property holds of a session, and did whenever a request was taken up after those in `first`;
the run has come from all the runs at which requests were taken up, and a waiting request goes on by
changes of its turn. -/
structure Holds (I : Run → List Timer → Prop) (first : List (Queued ε × Run)) (s : Session ε) :
    Prop where
  now : I s.run s.timers
  taken : ∃ rest, s.taken = first ++ rest ∧ ∀ e ∈ rest, ∃ ts, I e.2 ts
  onward : ∀ e ∈ s.taken, e.2.Becomes s.run
  waiting : ∀ w, s.suspended = some w → ∃ t, t.run = s.run ∧ t.released = [] ∧
    ∀ r, (w.resume r).Goes Turn.Change (fun _ _ => True) t
  resting : s.draining = false → s.suspended = none

variable {I : Run → List Timer → Prop} {first : List (Queued ε × Run)} {s : Session ε}

theorem Stable.path (hI : Stable I) {t t' : Turn} {ts : List Timer}
    (h : Relation.ReflTransGen Turn.Change t t') (ht : I t.run (t.released.foldl Release.apply ts)) :
    I t'.run (t'.released.foldl Release.apply ts) := by
  induction h with
  | refl => exact ht
  | tail _ hc ih => exact hI _ _ _ hc ih

/-- Another property, from where the session is now. -/
theorem Holds.rebase (h : Holds I first s) {J : Run → List Timer → Prop} (hJ : J s.run s.timers) :
    Holds J s.taken s :=
  ⟨hJ, ⟨[], by simp⟩, h.onward, h.waiting, h.resting⟩

theorem Holds.follow (hI : Stable I) (caller : ε) {w : Work Response} {t : Turn}
    (hw : w.Goes Turn.Change (fun _ _ => True) t)
    (ht : I t.run (t.released.foldl Release.apply s.timers))
    (htaken : ∃ rest, s.taken = first ++ rest ∧ ∀ e ∈ rest, ∃ ts, I e.2 ts)
    (honward : ∀ e ∈ s.taken, e.2.Becomes t.run) (hs : s.suspended = none) (hd : s.draining = true) :
    Holds I first (s.follow u caller w) := by
  induction w generalizing s t with
  | done t' r =>
      refine ⟨hI.path hw.1 ht, htaken, fun e he => (honward e he).path hw.1, fun w' h => ?_,
        fun h => ?_⟩
      · cases hs.symm.trans h
      · cases hd.symm.trans h
  | failed t' f =>
      refine ⟨hI.path hw ht, htaken, fun e he => (honward e he).path hw, fun w' h => ?_,
        fun h => ?_⟩
      · cases hs.symm.trans h
      · cases hd.symm.trans h
  | waiting t' c k ih =>
      rw [Session.follow]
      have ht' := hI.path hw.1 ht
      have honward' := fun e he => (honward e he).path hw.1
      cases hi : u.instant? c with
      | some x => exact ih x (hw.2 x) ht' htaken honward' hs hd
      | none =>
          refine ⟨ht', htaken, honward', fun w' h => ?_, fun h => ?_⟩
          · cases h
            exact ⟨{ t' with released := [] }, rfl, rfl, hw.2⟩
          · cases hd.symm.trans h

theorem Holds.take (hI : Stable I) (h : Holds I first s) (hs : s.suspended = none) (q : Queued ε) :
    Holds I first (s.take u q) := by
  obtain ⟨rest, htaken, hrest⟩ := h.taken
  refine Holds.follow u hI q.caller (q.request.process_changes u.rules { run := s.run }) h.now
    ⟨rest ++ [(q, s.run)], ?_, ?_⟩ ?_ hs rfl
  · simp [htaken]
  · intro e he
    rcases List.mem_append.mp he with he | he
    · exact hrest e he
    · obtain rfl := List.mem_singleton.mp he
      exact ⟨_, h.now⟩
  · intro e he
    rcases List.mem_append.mp he with he | he
    · exact h.onward e he
    · obtain rfl := List.mem_singleton.mp he
      exact .refl

theorem Holds.drain (hI : Stable I) (queue : List (Queued ε)) (h : Holds I first s)
    (hs : s.suspended = none) : Holds I first (s.drain u queue) := by
  induction queue generalizing s with
  | nil => exact ⟨h.now, h.taken, h.onward, h.waiting, fun _ => hs⟩
  | cons q rest ih =>
      have ht := h.take u hI hs q
      rw [drain_cons]
      split
      · exact ⟨ht.now, ht.taken, ht.onward, ht.waiting, ht.resting⟩
      · rename_i hw
        exact ih ht (by simpa [isWaiting] using hw)

theorem Holds.submit (hI : Stable I) (h : Holds I first s) (caller : ε) (q : Request) :
    Holds I first (s.submit u caller q) := by
  cases hd : s.draining with
  | false => rw [submit_idle u hd]; exact h.drain u hI _ (h.resting hd)
  | true => rw [submit_busy u hd]; exact ⟨h.now, h.taken, h.onward, h.waiting, h.resting⟩

theorem Holds.reply (hI : Stable I) (h : Holds I first s) (r : ServiceReply) :
    Holds I first (s.reply u r) := by
  cases hs : s.suspended with
  | none => rw [reply_idle u hs]; exact h
  | some w =>
      obtain ⟨t, hrun, hreleased, hgoes⟩ := h.waiting w hs
      have hd : s.draining = true := by
        cases hd : s.draining with
        | true => rfl
        | false => cases (h.resting hd).symm.trans hs
      have hr : Holds I first (s.resumed u w r) := by
        refine Holds.follow u hI w.caller (hgoes r) ?_ h.taken ?_ rfl hd
        · rw [hrun, hreleased]
          exact h.now
        · rw [hrun]
          exact h.onward
      rw [reply_waiting u hs]
      split
      · exact hr
      · rename_i hw
        exact hr.drain u hI _ (by simpa [isWaiting] using hw)

theorem Holds.apply (hI : Lasting I) (h : Holds I first s) (i : Input ε) :
    Holds I first (s.apply u i) := by
  have hdrop : ∀ ts, ts.Sublist s.timers → Holds I first { s with timers := ts } :=
    fun ts hts => ⟨hI.drop _ _ _ hts h.now, h.taken, h.onward, h.waiting, h.resting⟩
  cases i with
  | submit caller q => exact h.submit u hI.stable caller q.direct
  | reply r => exact h.reply u hI.stable r
  | fire caller timer =>
      rcases fire_cases u caller timer s with ⟨-, ts, hts, he⟩ | ⟨t, q, -, -, -, -, he⟩
      · rw [Session.apply, he]
        exact hdrop ts hts
      · rw [Session.apply, he]
        exact (hdrop _ List.filter_sublist).submit u hI.stable caller q
  | schedule event element context delay =>
      rcases schedule_cases event element context delay s with ⟨-, he⟩ | ⟨hopen, he⟩
      · rw [Session.apply, he]
        exact h
      · rw [Session.apply, he]
        exact ⟨hI.arm _ _ _ h.now hopen rfl rfl, h.taken, h.onward, h.waiting, h.resting⟩
  | close => exact hdrop [] (List.nil_sublist _)

theorem Holds.start (hI : Stable I) (caller : ε) {r : Run} (ls : List Listener)
    (hnone : r.agent?.bind (·.screens.head?) = none → I r [])
    (hsome : ∀ s, r.agent?.bind (·.screens.head?) = some s →
      I (r.arrive s (r.stack ++ [s.id])) []) :
    Holds I [(⟨caller, ⟨.start, none⟩⟩, r)]
      (({ run := r, listeners := ls } : Session ε).submit u caller ⟨.start, none⟩) := by
  have htake : Holds I [(⟨caller, ⟨.start, none⟩⟩, r)]
      (({ run := r, listeners := ls } : Session ε).take u ⟨caller, ⟨.start, none⟩⟩) := by
    cases hs : r.agent?.bind (·.screens.head?) with
    | none =>
        exact Holds.follow u hI caller (Act.processStart_changes u.rules { run := r }) (hnone hs)
          ⟨[], rfl, by simp⟩ (by simpa using .refl) rfl rfl
    | some s =>
        have hmove : Turn.Change { run := r } (Turn.moveTo s { run := r }) := .inr (.start s hs)
        refine Holds.follow u hI caller (Act.processStart_moved u.rules (t := { run := r }) hs) ?_
          ⟨[], rfl, by simp⟩ (by simpa using .single ⟨_, _, hmove, rfl, rfl⟩) rfl rfl
        rw [Release.foldl_nil]
        exact hsome s hs
  rw [submit_idle u rfl]
  change Holds I _ (Session.drain u [_] _)
  rw [drain_cons]
  split
  · exact ⟨htake.now, htake.taken, htake.onward, htake.waiting, htake.resting⟩
  · rename_i hw
    exact htake.drain u hI [] (by simpa [isWaiting] using hw)

theorem Holds.fresh (r : Run) (ls : List Listener) (h : I r []) :
    Holds I [] ({ run := r, listeners := ls } : Session ε) :=
  ⟨h, ⟨[], rfl, by simp⟩, by simp, by simp, fun _ => rfl⟩

theorem Holds.play (hI : Lasting I) (h : Holds I first s) (is : List (Input ε)) :
    Holds I first (s.play u is) :=
  play_induction u (P := Holds I first) (fun _ i h => h.apply u hI i) s is h

theorem becomes_lasting (r₀ : Run) : Lasting fun r _ => r₀.Becomes r where
  stable t t' _ hc h := h.tail ⟨t, t', hc, rfl, rfl⟩
  arm _ _ _ h _ _ _ := h
  drop _ _ _ _ h := h

end GuidedJourney.Session
