import GuidedJourney.Session.Queue
import Mathlib.Data.List.Basic

namespace GuidedJourney

inductive Input (ε : Type) where
  | submit (caller : ε) (request : Request)
  | reply (r : ServiceReply)
  | fire (caller : ε) (timer : Nat)
  | schedule (event element context : Value) (delay : Option Binary64)
  | close

def Request.direct (q : Request) : Request :=
  match q.demand with
  | .event c => { q with demand := .event { c with armed := none } }
  | _ => q

def Request.timer? (q : Request) : Option Timer :=
  match q.demand with
  | .event c => c.armed
  | _ => none

@[simp] theorem Request.direct_timer? (q : Request) : q.direct.timer? = none := by
  rcases q with ⟨_ | _ | _ | _ | _ | _, _⟩ <;> rfl

theorem Timer.request?_timer? {t : Timer} {q : Request} (h : t.request? = some q) :
    q.timer? = some t := by
  unfold Timer.request? at h
  split at h
  · cases h
  · cases h; rfl

theorem Timer.request?_tally {t : Timer} {q : Request} (h : t.request? = some q) :
    q.tally = none := by
  unfold Timer.request? at h
  split at h
  · cases h
  · cases h; rfl

@[simp] theorem Release.foldl_nil (rs : List Release) : rs.foldl Release.apply [] = [] := by
  induction rs with
  | nil => rfl
  | cons r rs ih => cases r <;> exact ih

theorem Release.foldl_sublist (rs : List Release) (ts : List Timer) :
    (rs.foldl Release.apply ts).Sublist ts := by
  induction rs generalizing ts with
  | nil => exact .refl _
  | cons r rs ih =>
      cases r with
      | ofScreen id => exact (ih _).trans List.filter_sublist
      | all => exact (ih _).trans (List.nil_sublist _)

namespace Session

variable {ε : Type} (u : Setup)

def apply (s : Session ε) : Input ε → Session ε
  | .submit caller q => s.submit u caller q.direct
  | .reply r => s.reply u r
  | .fire caller timer => s.fire u caller timer
  | .schedule event element context delay => (s.schedule event element context delay).1
  | .close => s.close

def play (s : Session ε) : List (Input ε) → Session ε
  | [] => s
  | i :: is => (s.apply u i).play is

def arrival? (s : Session ε) : Input ε → Option (Queued ε)
  | .submit caller q => some ⟨caller, q.direct⟩
  | .fire caller timer =>
    (s.timers.find? (·.id == timer)).bind fun t => t.request?.map (Queued.mk caller)
  | _ => none

def arrivals (s : Session ε) : List (Input ε) → List (Queued ε)
  | [] => []
  | i :: is => (s.arrival? i).toList ++ (s.apply u i).arrivals is

def reply? (s : Session ε) : Input ε → Option ServiceReply
  | .reply r => if s.isWaiting then some r else none
  | _ => none

def replies (s : Session ε) : List (Input ε) → List ServiceReply
  | [] => []
  | i :: is => (s.reply? i).toList ++ (s.apply u i).replies is

theorem play_append (s : Session ε) (is js : List (Input ε)) :
    s.play u (is ++ js) = (s.play u is).play u js := by
  induction is generalizing s with
  | nil => rfl
  | cons i is ih => exact ih _

theorem play_induction {P : Session ε → Prop} (hstep : ∀ s i, P s → P (s.apply u i))
    (s : Session ε) (is : List (Input ε)) (hs : P s) : P (s.play u is) := by
  induction is generalizing s with
  | nil => exact hs
  | cons i is ih => exact ih _ (hstep s i hs)

theorem submit_idle {s : Session ε} (h : s.isBusy = false) (caller : ε) (q : Request) :
    s.submit u caller q = s.drain u (s.queue ++ [⟨caller, q⟩]) := by
  simp [submit, h]

theorem submit_busy {s : Session ε} (h : s.isBusy = true) (caller : ε) (q : Request) :
    s.submit u caller q = { s with queue := s.queue ++ [⟨caller, q⟩] } := by
  simp [submit, h]

def resumed (w : Suspension ε) (r : ServiceReply) (s : Session ε) : Session ε :=
  { s with suspended := none }.follow u w.caller (w.resume r)

theorem reply_idle {s : Session ε} (h : s.suspended = none) (r : ServiceReply) :
    s.reply u r = s := by
  simp [reply, h]

theorem reply_waiting {s : Session ε} {w : Suspension ε} (h : s.suspended = some w)
    (r : ServiceReply) :
    s.reply u r = if (s.resumed u w r).isWaiting then s.resumed u w r
      else (s.resumed u w r).drain u (s.resumed u w r).queue := by
  simp only [reply, h]
  rfl

theorem drain_cons (q : Queued ε) (rest : List (Queued ε)) (s : Session ε) :
    s.drain u (q :: rest) =
      if (s.take u q).isWaiting then { s.take u q with queue := rest }
      else (s.take u q).drain u rest := by
  rw [drain]

theorem fire_cases (caller : ε) (timer : Nat) (s : Session ε) :
    (s.arrival? (.fire caller timer) = none ∧
      ∃ ts, ts.Sublist s.timers ∧ s.fire u caller timer = { s with timers := ts }) ∨
    ∃ t q, t ∈ s.timers ∧ t.id = timer ∧ t.request? = some q ∧
      s.arrival? (.fire caller timer) = some ⟨caller, q⟩ ∧
      s.fire u caller timer =
        { s with timers := s.timers.filter (·.id != timer) }.submit u caller q := by
  dsimp only [fire, arrival?]
  cases hf : s.timers.find? (·.id == timer) with
  | none => exact .inl ⟨rfl, _, .refl _, rfl⟩
  | some t =>
      have ht : t.id = timer := by simpa using List.find?_some hf
      simp only [Option.bind_some]
      cases hq : t.request? with
      | none => exact .inl ⟨rfl, _, List.filter_sublist, rfl⟩
      | some q => exact .inr ⟨t, q, List.mem_of_find?_eq_some hf, ht, hq, rfl, rfl⟩

/-- A relation that a session keeps to whenever it follows a turn, and that does not look at what is
taken up, waits or is queued. -/
structure Carries (R : Session ε → Session ε → Prop) : Prop where
  trans : ∀ {s₁ s₂ s₃ : Session ε}, R s₁ s₂ → R s₂ s₃ → R s₁ s₃
  follow : ∀ (s : Session ε) (caller : ε) (w : Work Response), R s (s.follow u caller w)
  arrange : ∀ (s : Session ε) (queue : List (Queued ε)) (draining : Bool)
    (suspended : Option (Suspension ε)) (taken : List (Queued ε × Run)),
    R s { s with queue, draining, suspended, taken }

namespace Carries

variable {u} {R : Session ε → Session ε → Prop}

theorem drain (h : Carries u R) (queue : List (Queued ε)) (s : Session ε) :
    R s (s.drain u queue) := by
  induction queue generalizing s with
  | nil => exact h.arrange s [] false s.suspended s.taken
  | cons q rest ih =>
      have ht : R s (s.take u q) :=
        h.trans (h.arrange s s.queue true s.suspended (s.taken ++ [(q, s.run)])) (h.follow _ q.caller _)
      rw [drain_cons]
      split
      · exact h.trans ht (h.arrange (s.take u q) rest _ _ _)
      · exact h.trans ht (ih _)

theorem submit (h : Carries u R) (caller : ε) (q : Request) (s : Session ε) :
    R s (s.submit u caller q) := by
  cases hd : s.draining with
  | false => rw [submit_idle u hd]; exact h.drain _ s
  | true => rw [submit_busy u hd]; exact h.arrange s _ s.draining s.suspended s.taken

theorem reply (h : Carries u R) (r : ServiceReply) (s : Session ε) : R s (s.reply u r) := by
  cases hs : s.suspended with
  | none =>
      rw [reply_idle u hs]
      exact h.arrange s s.queue s.draining s.suspended s.taken
  | some w =>
      have hr : R s (s.resumed u w r) :=
        h.trans (h.arrange s s.queue s.draining none s.taken) (h.follow _ w.caller _)
      rw [reply_waiting u hs]
      split
      · exact hr
      · exact h.trans hr (h.drain _ _)

end Carries

/-- A session without what is still to come: its pending timers and the requests in its queue. -/
def bare (s : Session ε) : Session ε := { s with timers := [], armed := [], queue := [] }

@[simp] theorem bare_isWaiting (s : Session ε) : s.bare.isWaiting = s.isWaiting := rfl

theorem schedule_cases (event element context : Value) (delay : Option Binary64) (s : Session ε) :
    (s.run.completed = true ∧ (s.schedule event element context delay).1 = s) ∨
    (s.run.completed = false ∧ (s.schedule event element context delay).1 =
      { s with
        timers := s.timers ++ [s.nextTimer event element context delay]
        armed := s.armed ++ [s.nextTimer event element context delay] }) := by
  unfold schedule
  dsimp only
  split
  · rename_i h; exact .inl ⟨h, rfl⟩
  · rename_i h; exact .inr ⟨by simpa using h, rfl⟩

end Session

end GuidedJourney
