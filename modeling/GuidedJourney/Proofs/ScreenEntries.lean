import GuidedJourney.Proofs.RequestChange
import GuidedJourney.Proofs.ValidJourney
import Mathlib.Algebra.Ring.GeomSum

namespace GuidedJourney

theorem further_sum (w n : Nat) : further w n + 1 = ∑ k ∈ Finset.range (n + 1), w ^ k := by
  induction n with
  | zero => simp [further]
  | succ n ih => rw [geom_sum_succ, ← ih, further]

theorem further_le {w : Nat} (hw : w ≤ 1) (n : Nat) : further w n ≤ n := by
  induction n with
  | zero => exact Nat.le_refl _
  | succ n ih =>
      have hmul := Nat.mul_le_mul_right (further w n + 1) hw
      rw [further]
      omega

namespace Request

variable (rules : Rules)

theorem entered_further {q : Request} {r : Run} {w : Nat} (hw : EntryWidth rules r.screens w)
    {t : Turn} {o : Response} (h : (q.process rules { run := r }).Reaches (.done t o)) :
    o.entered.length ≤ further w rules.interpreter.maxChainedEntries + 1 := by
  cases hover : r.completed with
  | false =>
      have hanswered := Work.Meets.ended (q.process_open rules (t := { run := r }) hw hover) h
      have hentered := hanswered.entered
      rw [hanswered.tells.entered]
      simpa using hentered
  | true =>
      by_cases hq : q.demand = .start
      · rcases start_over rules (t := { run := r }) hq hover with ⟨-, he⟩ | ⟨s, t', -, ht, he⟩
        · rw [he] at h
          cases h
          exact Nat.zero_le _
        · rw [he] at h
          cases h
          rcases ht with rfl | ⟨message, rfl⟩
          · exact Nat.succ_le_succ (Nat.zero_le _)
          · exact Nat.succ_le_succ (Nat.zero_le _)
      · obtain ⟨o', he, -, htells⟩ := process_over rules (t := { run := r }) hq hover
        rw [he] at h
        cases h
        rw [htells.entered]
        exact Nat.zero_le _

/-- If no screen has more than `w` entry events, a request enters no more screens than a tree of that
width and of the depth that chains of entries are limited to has nodes. Only where no screen has more
than one entry event, that is one more than the limit. -/
theorem entered_le (q : Request) (r : Run) (w : Nat)
    (hw : ∀ s ∈ r.screens, s.events.countP (Act.isEntryEvent rules) ≤ w) {t : Turn} {o : Response}
    (h : (q.process rules { run := r }).Reaches (.done t o)) :
    o.entered.length ≤ ∑ k ∈ Finset.range (rules.interpreter.maxChainedEntries + 1), w ^ k ∧
      (w ≤ 1 → o.entered.length ≤ rules.interpreter.maxChainedEntries + 1) := by
  have hentered := entered_further rules hw h
  refine ⟨further_sum w _ ▸ hentered, fun hone => ?_⟩
  have hfurther := further_le hone rules.interpreter.maxChainedEntries
  omega

end Request

-- A room whose entry events all lead back into it.
namespace Maze

def again : Event := ⟨"again", .onAppear, [], [.navigate [] "room"], .null⟩

def room (w : Nat) : Screen where
  id := "room"
  title := .null
  hidesBackButton := false
  state := []
  sections := []
  events := List.replicate w again

def guide (w : Nat) : Agent := { Tour.guide with screens := [room w] }

def run (w : Nat) : Run :=
  { Tour.run with journey := { Tour.journey with agents := [guide w] } }

def rules (m : Nat) : Rules := ⟨{ maxChainedEntries := m }, false⟩

structure Inside (w : Nat) (t : Turn) : Prop where
  agent : t.run.agent? = some (guide w)
  screenId : t.run.screenId = some "room"
  isOpen : t.Open

variable {w : Nat} {t : Turn}

theorem Inside.findScreen (h : Inside w t) : t.run.findScreen? "room" = some (room w) := by
  rw [Run.findScreen?, h.agent]
  rfl

theorem Inside.moveTo (h : Inside w t) : Inside w (t.moveTo (room w)) :=
  ⟨h.agent, rfl, h.isOpen⟩

theorem Inside.performAll (h : Inside w t) :
    Action.performAll false [] again.actions {} t =
      .done t { ending := .navigate "room", executed := 1 } := by
  have htarget : t.run.target? "room" = .ok (some (room w)) := by
    have hid : screenIdOf "room" = .ok (some "room") := by rfl
    rw [Run.target?, hid]
    exact congrArg Except.ok h.findScreen
  have hfind : Act.findTarget "room" t = .done t (some (room w)) := by
    unfold Act.findTarget
    simp only [bind, Act.run, Work.bind, htarget]
    rfl
  have hperform : Action.perform false [] (.navigate [] "room") { executed := 1 } t =
      .done t ({ ending := .navigate "room", executed := 1 }, false) := by
    rw [Action.perform]
    change (Act.findTarget "room" t).bind _ = _
    rw [hfind]
    rfl
  change Action.performAll false [] [.navigate [] "room"] {} t = _
  rw [Action.performAll]
  change (Action.perform false [] (.navigate [] "room") { executed := 1 } t).bind _ = _
  rw [hperform]
  rfl

theorem Inside.fire (h : Inside w t) (m : Nat) (enter : Screen → Act Unit) (es : List Event) :
    Act.fireEntryEvents (rules m) enter (room w) (again :: es) t =
      (enter (room w) { t with run := t.run.record (.str "again") .null }).bind
        fun t' _ => Act.fireEntryEvents (rules m) enter (room w) es t' := by
  have hstays : (t.run.completed || t.run.screenId != some "room") = false := by
    rw [h.screenId]
    exact Bool.or_eq_false_iff.mpr ⟨h.isOpen, rfl⟩
  have hrecorded : Inside w { t with run := t.run.record (.str "again") .null } :=
    ⟨h.agent, h.screenId, h.isOpen⟩
  rw [Act.fireEntryEvents]
  change (if (t.run.completed || t.run.screenId != some "room") = true then _ else _ : Act Unit) t = _
  rw [hstays, if_neg Bool.false_ne_true]
  change (Action.performAll false [] again.actions {}
    { t with run := t.run.record (.str "again") .null }).bind _ = _
  rw [hrecorded.performAll]
  change ((Act.conclude enter { ending := .navigate "room", executed := 1 })
    { t with run := t.run.record (.str "again") .null }).bind _ = _
  have hconclude : Act.conclude enter { ending := .navigate "room", executed := 1 }
      { t with run := t.run.record (.str "again") .null } =
        enter (room w) { t with run := t.run.record (.str "again") .null } := by
    unfold Act.conclude
    simp only [bind, Act.run, Work.bind, hrecorded.findScreen]
  rw [hconclude]

/-- Each of the entry events leads on as far as it may. -/
theorem Inside.settleIn (h : Inside w t) (m n : Nat) :
    ∃ t', Act.settleIn (rules m) n (room w) t = .done t' () ∧ Inside w t' ∧
      t'.entered.length = t.entered.length + further w n := by
  induction n generalizing t with
  | zero => exact ⟨_, rfl, ⟨h.agent, h.screenId, h.isOpen⟩, rfl⟩
  | succ n ih =>
      -- By induction on the events that are left, each of which comes back to the room.
      have hfire : ∀ (k : Nat) (t : Turn), Inside w t → ∃ t',
          Act.fireEntryEvents (rules m) (Act.enterWithin (rules m) n) (room w)
            (List.replicate k again) t = .done t' () ∧ Inside w t' ∧
          t'.entered.length = t.entered.length + k * (further w n + 1) := by
        intro k
        induction k with
        | zero => exact fun t h => ⟨t, rfl, h, by simp⟩
        | succ k ihk =>
            intro t h
            have hrecorded : Inside w { t with run := t.run.record (.str "again") .null } :=
              ⟨h.agent, h.screenId, h.isOpen⟩
            obtain ⟨t₁, he₁, h₁, hlength₁⟩ := ih hrecorded.moveTo
            obtain ⟨t₂, he₂, h₂, hlength₂⟩ := ihk t₁ h₁
            refine ⟨t₂, ?_, h₂, ?_⟩
            · rw [List.replicate_succ, h.fire, Act.enterWithin_apply, he₁]
              exact he₂
            · have hmove : (Turn.moveTo (room w)
                  { t with run := t.run.record (.str "again") .null }).entered.length =
                    t.entered.length + 1 := List.length_append
              rw [hlength₂, hlength₁, hmove, Nat.succ_mul]
              omega
      exact hfire w t h

/-- However wide and deep it is, the whole tree of entries may come about. -/
theorem entered_all (w m : Nat) :
    EntryWidth (rules m) (run w).screens w ∧
    ∃ t o, (⟨.start, none⟩ : Request).process (rules m) { run := run w } = .done t o ∧
      o.entered.length = ∑ k ∈ Finset.range (m + 1), w ^ k := by
  refine ⟨fun s hs => ?_, ?_⟩
  · obtain rfl : s = room w := by simpa [Run.screens, run, Tour.run, guide] using hs
    exact Nat.le_trans List.countP_le_length (by simp [room])
  · have hinside : Inside w (Turn.moveTo (room w) { run := run w }) := ⟨rfl, rfl, rfl⟩
    obtain ⟨t, he, -, hlength⟩ := hinside.settleIn m m
    refine ⟨t, t.response (run w) .started, ?_, ?_⟩
    · have hfirst := Act.processStart_first (rules m) (t := { run := run w }) (s := room w) rfl
      change Act.processStart (rules m) { run := run w } = _
      rw [hfirst]
      change (Act.settleIn (rules m) m (room w) _).bind _ = _
      rw [he]
      rfl
    · change t.entered.length = _
      rw [hlength, ← further_sum, Nat.add_comm]
      rfl

/-- With one entry event a chain goes on as far as the limit lets it. -/
theorem entered_le_chain : ∃ t o,
    ((⟨.start, none⟩ : Request).process (rules 2) { run := run 1 }).Reaches (.done t o) ∧
      o.entered = ["room", "room", "room"] ∧ o.entered.length ≤ 2 + 1 := by
  have hwidth : ∀ s ∈ (run 1).screens, s.events.countP (Act.isEntryEvent (rules 2)) ≤ 1 :=
    (entered_all 1 2).1
  have hreaches := Work.Reaches.refl ((⟨.start, none⟩ : Request).process (rules 2) { run := run 1 })
  exact ⟨_, _, hreaches, rfl,
    (Request.entered_le (rules 2) ⟨.start, none⟩ (run 1) 1 hwidth hreaches).2 (Nat.le_refl _)⟩

/-- A screen may be entered once more for each entry event of the one before. -/
theorem entered_beyond : ¬ ∀ (rules : Rules) (q : Request) (r : Run) (t : Turn) (o : Response),
    (q.process rules { run := r }).Reaches (.done t o) →
      o.entered.length ≤ rules.interpreter.maxChainedEntries + 1 := by
  intro h
  have hlength := h (rules 1) ⟨.start, none⟩ (run 2) _ _ (.refl _)
  revert hlength
  decide

end Maze

end GuidedJourney
