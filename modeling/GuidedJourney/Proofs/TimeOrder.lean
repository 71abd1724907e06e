import GuidedJourney.Proofs.WorldPlay

namespace GuidedJourney.World

/-- Something happens in time: the clock is not put past what is due, and what goes off is due no later than
anything else. -/
def OnTime (w : World) : Happening → Prop
  | .pass now => ∀ x ∈ w.sleepers, x.due.lt now = false
  | .rise n => ∀ x ∈ w.sleepers[n]?, ∀ y ∈ w.sleepers, y.due.lt x.due = false
  | _ => True

/-- Something happens in its turn: what is due goes off first, in the order of time, and in the order in which
it was put off where it is due together; then what is ready is done; and time passes when nothing is. -/
def InTurn (w : World) : Happening → Prop
  | .work => ∀ x ∈ w.sleepers, isDue w.clock x = false
  | .pass now => w.ready = [] ∧ ∀ x ∈ w.sleepers, isDue w.clock x = false ∧ x.due.lt now = false
  | .rise n => ∀ x ∈ w.sleepers[n]?, (∀ y ∈ w.sleepers, y.due.lt x.due = false) ∧
      ∀ y ∈ w.sleepers.take n, x.due.lt y.due = true
  | _ => True

instance (w : World) (h : Happening) : Decidable (w.InTurn h) :=
  match h with
  | .work => inferInstanceAs (Decidable (∀ x ∈ w.sleepers, isDue w.clock x = false))
  | .pass now => inferInstanceAs (Decidable (w.ready = [] ∧
      ∀ x ∈ w.sleepers, isDue w.clock x = false ∧ x.due.lt now = false))
  | .rise n => inferInstanceAs (Decidable (∀ x ∈ w.sleepers[n]?,
      (∀ y ∈ w.sleepers, y.due.lt x.due = false) ∧ ∀ y ∈ w.sleepers.take n, x.due.lt y.due = true))
  | .order _ | .draw => .isTrue trivial

/-- A play in which everything happens as `P` says. -/
def Throughout (P : World → Happening → Prop) (w : World) : List Happening → Prop
  | [] => True
  | h :: hs => P w h ∧ (w.step h).Throughout P hs

theorem throughout_append {P : World → Happening → Prop} {w : World} {hs hs' : List Happening} :
    w.Throughout P (hs ++ hs') ↔ w.Throughout P hs ∧ (w.after hs).Throughout P hs' := by
  induction hs generalizing w with
  | nil => exact (and_iff_right trivial).symm
  | cons h hs ih => exact (and_congr_right fun _ => ih).trans and_assoc.symm

theorem throughout_singleton {P : World → Happening → Prop} {w : World} {h : Happening} :
    w.Throughout P [h] ↔ P w h :=
  and_iff_left trivial

/-- What is left of the sleepers when each is left out or has its job changed. -/
def sift (g : Job → Option Job) (xs : List Sleeper) : List Sleeper :=
  xs.filterMap fun x => (g x.job).map (⟨x.due, ·⟩)

variable {g : Job → Option Job} {x y : Sleeper} {xs before behind : List Sleeper}

theorem sift_append (xs ys : List Sleeper) : sift g (xs ++ ys) = sift g xs ++ sift g ys :=
  List.filterMap_append

theorem sift_cons_some {j : Job} (h : g x.job = some j) : sift g (x :: xs) = ⟨x.due, j⟩ :: sift g xs :=
  List.filterMap_cons_some (by rw [h]; rfl)

theorem sift_cons_none (h : g x.job = none) : sift g (x :: xs) = sift g xs :=
  List.filterMap_cons_none (by rw [h]; rfl)

theorem mem_sift (h : y ∈ sift g xs) : ∃ x ∈ xs, x.due = y.due := by
  obtain ⟨x, hx, hy⟩ := List.mem_filterMap.mp h
  obtain ⟨j, -, rfl⟩ := Option.map_eq_some_iff.mp hy
  exact ⟨x, hx, rfl⟩

theorem sift_split {j : Job} (h : g x.job = some j) :
    sift g (before ++ x :: behind) = sift g before ++ ⟨x.due, j⟩ :: sift g behind := by
  rw [sift_append, sift_cons_some h]

end GuidedJourney.World
