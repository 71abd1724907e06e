import GuidedJourney.Proofs.ValueEquality
import GuidedJourney.Value.Key

namespace GuidedJourney

namespace Value

theorem Amount.same_trans {a b c : Amount} (h : a.same b = true) (h' : b.same c = true) :
    a.same c = true := by
  cases a with
  | exact r =>
      cases b with
      | exact r' =>
          rw [eq_of_beq h]
          exact h'
      | _ => cases h
  | unbounded s =>
      cases b with
      | unbounded s' =>
          rw [eq_of_beq h]
          exact h'
      | _ => cases h
  | undefined => cases h

theorem sameAmount_iff {v w : Value} : sameAmount v w = true ↔
    ∃ a b, v.amount? = some a ∧ w.amount? = some b ∧ a.same b = true := by
  unfold sameAmount
  cases v.amount? with
  | none => simp
  | some a =>
      cases w.amount? with
      | none => simp
      | some b => simp

theorem eq_of_sameScalar {v w : Value} (h : sameScalar v w = true) :
    v = w ∨ sameAmount v w = true := by
  unfold sameScalar at h
  split at h
  · exact .inl rfl
  · exact .inl (congrArg str (eq_of_beq h))
  · exact .inl (congrArg date (eq_of_beq h))
  · exact .inl (congrArg moment (eq_of_beq h))
  · exact .inr h

theorem sameScalar_amount {v : Value} {a : Amount} (ha : v.amount? = some a) (w : Value) :
    sameScalar v w = sameAmount v w := by
  cases v with
  | null | str | date | moment => cases ha
  | _ => rfl

theorem sameScalar_trans {v w u : Value} (h : sameScalar v w = true) (h' : sameScalar w u = true) :
    sameScalar v u = true := by
  rcases eq_of_sameScalar h with rfl | hvw
  · exact h'
  · obtain ⟨a, b, ha, hb, hab⟩ := sameAmount_iff.mp hvw
    rw [sameScalar_amount hb] at h'
    obtain ⟨b', c, hb', hc, hbc⟩ := sameAmount_iff.mp h'
    cases hb.symm.trans hb'
    rw [sameScalar_amount ha]
    exact sameAmount_iff.mpr ⟨a, c, ha, hc, Amount.same_trans hab hbc⟩

end Value

namespace Key

theorem same_comm (k l : Key) : k.same l = l.same k := by
  cases k with
  | text s =>
      cases l with
      | text t => exact BEq.comm
      | odd w => rfl
  | odd v =>
      cases l with
      | text t => rfl
      | odd w => exact Value.sameScalar_comm v w

theorem same_trans {k l m : Key} (h : k.same l = true) (h' : l.same m = true) : k.same m = true := by
  cases k with
  | text s =>
      cases l with
      | text t =>
          rw [eq_of_beq h]
          exact h'
      | odd w => cases h
  | odd v =>
      cases l with
      | text t => cases h
      | odd w =>
          cases m with
          | text u => cases h'
          | odd u => exact Value.sameScalar_trans h h'

theorem same_congr {k l : Key} (h : k.same l = true) (m : Key) : k.same m = l.same m :=
  Bool.eq_iff_iff.mpr ⟨fun hk => same_trans (same_comm k l ▸ h) hk, fun hl => same_trans h hl⟩

end Key

namespace Entries

theorem find?_cons (e : Key × Value) (rest : Entries) (key : Key) :
    find? (e :: rest) key = if e.1.same key then some e.2 else find? rest key := by
  rw [find?, List.find?_cons]
  cases e.1.same key with
  | true => rfl
  | false => rfl

theorem find?_put (key key' : Key) (value : Value) (entries : Entries) :
    find? (put key value entries) key' =
      if key.same key' then some value else find? entries key' := by
  induction entries with
  | nil => rw [put, find?_cons]
  | cons e rest ih =>
      rw [put]
      split
      · rename_i he
        rw [find?_cons, find?_cons, Key.same_congr he]
        split <;> rfl
      · rename_i he
        rw [find?_cons, find?_cons, ih]
        cases hkey : key.same key' with
        | false => rfl
        | true =>
            -- An entry that is not the same as the one key is not the same as the other either.
            have hother : e.1.same key' = false := by
              rw [Key.same_comm, ← Key.same_congr hkey, Key.same_comm]
              simpa using he
            rw [hother]
            rfl

end Entries

end GuidedJourney
