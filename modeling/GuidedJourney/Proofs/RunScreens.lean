import GuidedJourney.Proofs.DataFaults
import GuidedJourney.Proofs.TurnChange

namespace GuidedJourney

theorem Journey.agent_mem {j : Journey} {id : String} {a : Agent} (h : j.agent? id = some a) :
    a ∈ j.agents ∧ a.id = id ∧ j.agent? a.id = some a := by
  have hid : a.id = id := by
    unfold Journey.agent? at h
    split at h
    · cases h
    · simpa using List.find?_some h
  refine ⟨?_, hid, hid ▸ h⟩
  unfold Journey.agent? at h
  split at h
  · cases h
  · exact List.mem_of_find?_eq_some h

theorem Run.agent_mem {r : Run} {a : Agent} (h : r.agent? = some a) : a ∈ r.journey.agents := by
  obtain ⟨id, -, h⟩ := Option.bind_eq_some_iff.mp h
  exact (Journey.agent_mem h).1

theorem screenIdOf_ne_empty {deeplink id : String} (h : screenIdOf deeplink = .ok (some id)) :
    id ≠ "" := by
  unfold screenIdOf at h
  split at h
  · cases h
  · rename_i hne
    obtain ⟨a, -, h⟩ := bind_ok_iff.mp h
    split at h
    · obtain ⟨segment, hs, rfl⟩ := Option.map_eq_some_iff.mp (Except.ok.inj h)
      have hmem := List.mem_of_getLast? hs
      intro he
      simp_all
    · obtain rfl := Option.some.inj (Except.ok.inj h)
      simpa using hne

namespace Run

def screens (r : Run) : List Screen := r.journey.agents.flatMap Agent.screens ++ r.globals

theorem Becomes.fixed {r r' : Run} (h : r.Becomes r') :
    r'.journey = r.journey ∧ r'.globals = r.globals := by
  induction h with
  | refl => exact ⟨rfl, rfl⟩
  | tail _ hc ih =>
      obtain ⟨t, t', hc, rfl, rfl⟩ := hc
      rw [← ih.1, ← ih.2]
      rcases hc with hc | hc
      · cases hc <;> exact ⟨rfl, rfl⟩
      · cases hc <;> exact ⟨rfl, rfl⟩

theorem Becomes.screens {r r' : Run} (h : r.Becomes r') : r'.screens = r.screens := by
  rw [Run.screens, Run.screens, h.fixed.1, h.fixed.2]

theorem screens_agent {r : Run} {a : Agent} (ha : a ∈ r.journey.agents) {s : Screen}
    (hs : s ∈ a.screens) : s ∈ r.screens :=
  List.mem_append_left _ (List.mem_flatMap.mpr ⟨a, ha, hs⟩)

theorem findScreen_mem {r : Run} {id : String} {s : Screen} (h : r.findScreen? id = some s) :
    s ∈ r.screens := by
  unfold findScreen? at h
  rcases Option.or_eq_some_iff.mp h with h | ⟨-, h⟩
  · obtain ⟨a, ha, h⟩ := Option.bind_eq_some_iff.mp h
    exact screens_agent (agent_mem ha) (List.mem_of_find?_eq_some h)
  · exact List.mem_append_right _ (List.mem_of_find?_eq_some h)

theorem screen_mem {r : Run} {s : Screen} (h : r.screen? = some s) : s ∈ r.screens := by
  unfold screen? at h
  split at h
  · split at h
    · cases h
    · exact findScreen_mem h
  · cases h

theorem first_mem {r : Run} {s : Screen} (h : r.agent?.bind (·.screens.head?) = some s) :
    s ∈ r.screens := by
  obtain ⟨a, ha, hs⟩ := Option.bind_eq_some_iff.mp h
  exact screens_agent (agent_mem ha) (List.mem_of_head? hs)

theorem findScreen_head {r : Run} {a : Agent} {s : Screen} (ha : r.agent? = some a)
    (hs : a.screens.head? = some s) : r.findScreen? s.id = some s := by
  obtain ⟨rest, hscreens⟩ := List.head?_eq_some_iff.mp hs
  simp [findScreen?, ha, Agent.screen?, hscreens]

theorem findScreen_first {r : Run} {s : Screen} (hs : r.agent?.bind (·.screens.head?) = some s) :
    r.findScreen? s.id = some s := by
  obtain ⟨a, ha, hs⟩ := Option.bind_eq_some_iff.mp hs
  exact findScreen_head ha hs

theorem neighbour_names {r : Run} {forward : Bool} {s : Screen} (h : r.neighbour? forward = some s) :
    r.Names s.id := by
  unfold neighbour? at h
  obtain ⟨a, ha, h⟩ := Option.bind_eq_some_iff.mp h
  obtain ⟨id, -, h⟩ := Option.bind_eq_some_iff.mp h
  refine .inr ⟨a, ha, List.mem_map_of_mem ?_⟩
  split at h
  · cases h
  · obtain ⟨i, -, h⟩ := Option.bind_eq_some_iff.mp h
    split at h
    · exact List.mem_of_getElem? h
    · split at h
      · cases h
      · exact List.mem_of_getElem? h

theorem findScreen_id {r : Run} {id : String} {s : Screen} (h : r.findScreen? id = some s) :
    s.id = id := by
  unfold findScreen? at h
  rcases Option.or_eq_some_iff.mp h with h | ⟨-, h⟩
  · obtain ⟨a, -, h⟩ := Option.bind_eq_some_iff.mp h
    simpa using List.find?_some h
  · simpa using List.find?_some h

theorem target_names {r : Run} {deeplink : String} {s : Screen}
    (h : r.target? deeplink = .ok (some s)) : r.Names s.id := by
  unfold target? at h
  obtain ⟨id?, hid, h⟩ := bind_ok_iff.mp h
  cases id? with
  | none => cases h
  | some id =>
      dsimp only at h
      split at h
      · exact neighbour_names (Except.ok.inj h)
      · split at h
        · exact neighbour_names (Except.ok.inj h)
        · rw [findScreen_id (Except.ok.inj h)]
          exact .inl (screenIdOf_ne_empty hid)

end Run

namespace Act

theorem previousScreen_ok {r : Run} {s : Screen} (h : previousScreen r = .ok s) :
    r.stack.dropLast.getLast? = some s.id ∧ r.findScreen? s.id = some s := by
  unfold previousScreen at h
  split at h
  · cases h
  · split at h
    · cases h
    · rename_i id hid
      split at h
      · cases h
      · rename_i s' hs
        cases h
        rw [Run.findScreen_id hs]
        exact ⟨hid, hs⟩

theorem previousScreen_mem {r : Run} {s : Screen} (h : previousScreen r = .ok s) : s.id ∈ r.stack :=
  List.dropLast_subset _ (List.mem_of_getLast? (previousScreen_ok h).1)

theorem handoffTarget_mem {r : Run} {id : Value} {a : Agent} (h : handoffTarget? r id = some a) :
    a ∈ r.journey.agents ∧ r.journey.agent? a.id = some a := by
  unfold handoffTarget? at h
  obtain ⟨_, -, h⟩ := Option.bind_eq_some_iff.mp h
  obtain ⟨name, -, h⟩ := Option.bind_eq_some_iff.mp h
  obtain ⟨target, ht, h⟩ := Option.bind_eq_some_iff.mp h
  split at h
  · cases h
    obtain ⟨hmem, -, hagent⟩ := Journey.agent_mem ht
    exact ⟨hmem, hagent⟩
  · cases h

theorem handoffTarget_listed {r : Run} {id : Value} {b : Agent} (h : handoffTarget? r id = some b) :
    ∃ a, r.agent? = some a ∧ b.id ∈ a.handoffs := by
  unfold handoffTarget? at h
  obtain ⟨a, ha, h⟩ := Option.bind_eq_some_iff.mp h
  obtain ⟨name, -, h⟩ := Option.bind_eq_some_iff.mp h
  obtain ⟨target, ht, h⟩ := Option.bind_eq_some_iff.mp h
  split at h
  · rename_i hlisted
    cases h
    refine ⟨a, ha, ?_⟩
    rw [(Journey.agent_mem ht).2.1]
    simpa using hlisted
  · cases h

end Act

end GuidedJourney
