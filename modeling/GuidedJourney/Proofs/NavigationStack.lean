import GuidedJourney.Proofs.RequestEnd
import GuidedJourney.Proofs.SessionCourse
import GuidedJourney.Proofs.TimerVisits

namespace GuidedJourney

/-- The way back ends in the current screen, and all its screens can be found. -/
structure Run.Stacked (r : Run) : Prop where
  last : r.stack.getLast? = r.screenId
  found : ∀ id ∈ r.stack, (r.findScreen? id).isSome

namespace Run

namespace Stacked

theorem pushed {r : Run} (h : r.Stacked) {s : Screen} (hs : (r.findScreen? s.id).isSome) :
    (r.arrive s (r.stack ++ [s.id])).Stacked := by
  refine ⟨List.getLast?_concat, fun id hid => ?_⟩
  rcases List.mem_append.mp hid with hid | hid
  · exact h.found id hid
  · rw [List.mem_singleton.mp hid]
    exact hs

theorem moved {t t' : Turn} (h : t.run.Stacked) (hm : t.Move t') : t'.run.Stacked := by
  cases hm with
  | start s hs => exact h.pushed (by rw [findScreen_first hs]; rfl)
  | navigate s hopen hon hs hn => exact h.pushed (by rw [hs]; rfl)
  | back s hopen hs =>
      obtain ⟨hlast, -⟩ := Act.previousScreen_ok hs
      exact ⟨hlast, fun id hid => h.found id (List.dropLast_subset _ hid)⟩
  | handoff id a s hopen ha hs =>
      have hagent : (t.handTo a).run.agent? = some a := (Act.handoffTarget_mem ha).2
      have hfound : (t.handTo a).run.findScreen? s.id = some s := findScreen_head hagent hs
      refine ⟨rfl, fun id hid => ?_⟩
      obtain rfl := List.mem_singleton.mp hid
      exact Option.isSome_of_eq_some hfound
  | leave id a hopen ha hs => exact ⟨rfl, nofun⟩

theorem previousScreen {r : Run} (h : r.Stacked) (id : String) :
    Act.previousScreen r ≠ .error ("Previous screen not found: " ++ id) := by
  intro he
  have hhead : ∀ {a b : String}, (Except.error a : Except String Screen) = .error b →
      a.toList.head? = b.toList.head? := fun hab => by rw [Except.error.inj hab]
  unfold Act.previousScreen at he
  split at he
  · have hne := hhead he
    simp at hne
  · split at he
    · have hne := hhead he
      simp at hne
    · rename_i last hlast
      have hmem : last ∈ r.stack := List.dropLast_subset _ (List.mem_of_getLast? hlast)
      have hfound := h.found last hmem
      split at he
      · rename_i hnone
        rw [hnone] at hfound
        cases hfound
      · cases he

end Stacked

end Run

/-- Whatever events do, the screens that they enter are added to the way back. -/
theorem Turn.Stride.stack {ss : List Screen} {t t' : Turn} (h : t.Stride ss t') {base : List String}
    (ht : t.run.stack = base ++ t.entered) : t'.run.stack = base ++ t'.entered := by
  cases h with
  | jot hopen h =>
      obtain ⟨store, he⟩ := h.kept
      rw [he, h.entered]
      exact ht
  | navigate s hopen hon hs hn =>
      change t.run.stack ++ [s.id] = base ++ (t.entered ++ [s.id])
      rw [ht, List.append_assoc]
  | _ => exact ht

namespace Demand

variable {t t' : Turn} {o : Response}

end Demand

namespace Request

variable (rules : Rules) {q : Request} {r : Run} {t : Turn} {o : Response}

end Request

namespace Session

variable {ε : Type}

end Session

end GuidedJourney
