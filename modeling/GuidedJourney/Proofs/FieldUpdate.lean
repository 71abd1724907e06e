import GuidedJourney.Run.Request
import Mathlib.Data.List.Induction
import Mathlib.Data.List.Nodup

namespace GuidedJourney

namespace Fields

theorem lookup_cons {α : Type} (f : String × α) (rest : List (String × α)) (key : String) :
    (f :: rest).lookup key = if key = f.1 then some f.2 else rest.lookup key := by
  rcases f with ⟨k, v⟩
  by_cases h : key = k
  · subst h
    simp
  · simp [List.lookup_cons, beq_eq_false_iff_ne.mpr h, h]

theorem mem_of_lookup {α : Type} {key : String} {value : α} {fields : List (String × α)}
    (h : fields.lookup key = some value) : (key, value) ∈ fields := by
  obtain ⟨before, after, rfl, -⟩ := List.lookup_eq_some_iff.mp h
  simp

theorem find?_cons (f : String × Value) (rest : Fields) (key : String) :
    find? (f :: rest) key = if key = f.1 then some f.2 else find? rest key :=
  lookup_cons f rest key

theorem lookup_put {α : Type} (key key' : String) (value : α) (fields : List (String × α)) :
    (put key value fields).lookup key' = if key' = key then some value else fields.lookup key' := by
  induction fields with
  | nil => rw [put, lookup_cons]
  | cons f rest ih =>
      rw [put]
      split
      · rename_i hf
        rw [lookup_cons, lookup_cons, hf]
        split <;> rfl
      · rename_i hf
        rw [lookup_cons, lookup_cons, ih]
        by_cases h : key' = f.1
        · rw [if_pos h, if_pos h, if_neg (h ▸ hf)]
        · rw [if_neg h, if_neg h]

theorem find?_put (key key' : String) (value : Value) (fields : Fields) :
    find? (put key value fields) key' = if key' = key then some value else find? fields key' :=
  lookup_put key key' value fields

theorem lookup_filter {α : Type} (key key' : String) (fields : List (String × α)) :
    (fields.filter (·.1 != key)).lookup key' = if key' = key then none else fields.lookup key' := by
  induction fields with
  | nil => exact (ite_self none).symm
  | cons f rest ih =>
      by_cases hf : f.1 = key
      · rw [List.filter_cons_of_neg (by simp [hf]), ih, lookup_cons, hf]
        split <;> rfl
      · rw [List.filter_cons_of_pos (by simp [hf]), lookup_cons, ih, lookup_cons]
        by_cases h : key' = f.1
        · rw [if_pos h, if_pos h, if_neg (h ▸ hf)]
        · rw [if_neg h, if_neg h]

theorem mem_put {α : Type} {key : String} {value : α} {fields : List (String × α)} {f : String × α}
    (h : f ∈ put key value fields) : f = (key, value) ∨ f ∈ fields := by
  induction fields with
  | nil => exact .inl (List.mem_singleton.mp h)
  | cons g rest ih =>
      rw [put] at h
      split at h
      · rename_i hg
        rcases List.mem_cons.mp h with h | h
        · exact .inl (h.trans (by rw [hg]))
        · exact .inr (List.mem_cons_of_mem _ h)
      · rcases List.mem_cons.mp h with rfl | h
        · exact .inr List.mem_cons_self
        · exact (ih h).imp_right (List.mem_cons_of_mem _)

theorem put_keys {α : Type} (key : String) (value : α) (fields : List (String × α)) :
    (put key value fields).map Prod.fst =
      if key ∈ fields.map Prod.fst then fields.map Prod.fst else fields.map Prod.fst ++ [key] := by
  induction fields with
  | nil => simp [put]
  | cons f rest ih =>
      rw [put]
      by_cases h : f.1 = key
      · simp [h]
      · rw [if_neg h, List.map_cons, ih]
        by_cases hm : key ∈ rest.map Prod.fst
        · simp [hm]
        · simp [hm, Ne.symm h]

theorem put_nodup {α : Type} {fields : List (String × α)} (h : (fields.map Prod.fst).Nodup)
    (key : String) (value : α) : ((put key value fields).map Prod.fst).Nodup := by
  rw [put_keys]
  split
  · exact h
  · rename_i hm
    exact List.nodup_append_comm.mp (List.nodup_cons.mpr ⟨hm, h⟩)

theorem overlay_nodup {fields : Fields} (h : fields.keys.Nodup) (updates : Fields) :
    (overlay fields updates).keys.Nodup := by
  induction updates generalizing fields with
  | nil => exact h
  | cons u us ih => exact ih (put_nodup h u.1 u.2)

theorem find?_overlay {key : String} {updates : Fields} (h : ∀ u ∈ updates, u.1 ≠ key)
    (fields : Fields) : find? (overlay fields updates) key = find? fields key := by
  induction updates generalizing fields with
  | nil => rfl
  | cons u us ih =>
      rw [List.forall_mem_cons] at h
      change find? (overlay (put u.1 u.2 fields) us) key = _
      rw [ih h.2, find?_put, if_neg h.1.symm]

theorem find?_of_mem {fields : Fields} (once : fields.keys.Nodup) {f : String × Value}
    (h : f ∈ fields) : find? fields f.1 = some f.2 := by
  induction fields with
  | nil => cases h
  | cons g rest ih =>
      obtain ⟨hg, hrest⟩ := List.nodup_cons.mp once
      rw [find?_cons]
      rcases List.mem_cons.mp h with rfl | h
      · exact if_pos rfl
      · have hne : f.1 ≠ g.1 := fun he => hg (he ▸ List.mem_map_of_mem h)
        rw [if_neg hne, ih hrest h]

def written? (updates : Fields) (key : String) : Option Value := find? updates.reverse key

theorem written?_concat (updates : Fields) (u : String × Value) (key : String) :
    written? (updates ++ [u]) key = if key = u.1 then some u.2 else written? updates key := by
  rw [written?, List.reverse_concat, find?_cons]
  rfl

theorem written?_append (updates more : Fields) (key : String) :
    written? (updates ++ more) key = (written? more key).or (written? updates key) := by
  rw [written?, List.reverse_append, find?, List.lookup_append]
  rfl

theorem overlay_find? (fields updates : Fields) (key : String) :
    find? (overlay fields updates) key = (written? updates key).or (find? fields key) := by
  induction updates using List.reverseRecOn with
  | nil => rfl
  | append_singleton us u ih =>
      rw [overlay, List.foldl_append, written?_concat]
      change find? (put u.1 u.2 (overlay fields us)) key = _
      rw [find?_put, ih]
      split <;> rfl

theorem mem_overlay {f : String × Value} {fields updates : Fields} (h : f ∈ overlay fields updates) :
    f ∈ updates ∨ f ∈ fields := by
  induction updates generalizing fields with
  | nil => exact .inr h
  | cons u us ih =>
      change f ∈ overlay (put u.1 u.2 fields) us at h
      rcases ih h with h | h
      · exact .inl (List.mem_cons_of_mem _ h)
      · rcases mem_put h with rfl | h
        · exact .inl List.mem_cons_self
        · exact .inr h

end Fields

namespace Interactions

theorem give_eq_put (id : String) (values : Fields) (is : Interactions) :
    is.give id values = Fields.put id (Fields.overlay ((is.lookup id).getD []) values) is := by
  induction is with
  | nil => rfl
  | cons e rest ih =>
      rcases e with ⟨k, given⟩
      rw [give, Fields.put, Fields.lookup_cons]
      by_cases hk : k = id
      · rw [if_pos hk, if_pos hk, if_pos hk.symm]
        rfl
      · rw [if_neg hk, if_neg hk, if_neg (Ne.symm hk), ih]

theorem lookup_give (id id' : String) (values : Fields) (is : Interactions) :
    (is.give id values).lookup id' =
      if id' = id then some (Fields.overlay ((is.lookup id).getD []) values) else is.lookup id' := by
  rw [give_eq_put, Fields.lookup_put]

theorem mem_give {id : String} {values : Fields} {is : Interactions} {g : String × Fields}
    (h : g ∈ is.give id values) :
    g = (id, Fields.overlay ((is.lookup id).getD []) values) ∨ g ∈ is := by
  rw [give_eq_put] at h
  exact Fields.mem_put h

theorem lookup_cases (is : Interactions) (id : String) :
    (is.lookup id).getD [] = [] ∨ (id, (is.lookup id).getD []) ∈ is := by
  cases h : is.lookup id with
  | none => exact .inl rfl
  | some given => exact .inr (Fields.mem_of_lookup h)

theorem give_nodup {is : Interactions} (h : (is.map Prod.fst).Nodup) (id : String) (values : Fields) :
    ((is.give id values).map Prod.fst).Nodup := by
  rw [give_eq_put]
  exact Fields.put_nodup h id _

end Interactions

end GuidedJourney
