import GuidedJourney.Proofs.CurrentScreen
import GuidedJourney.Proofs.Interactions
import GuidedJourney.Proofs.RequestEnd
import GuidedJourney.Proofs.UnwritableKeys

namespace GuidedJourney

theorem Run.Remains.screen {r r' : Run} (h : r.Remains r') : r'.screen? = r.screen? := by
  induction h with
  | refl => rfl
  | tail _ hc ih =>
      obtain ⟨t, t', hc, rfl, rfl⟩ := hc
      obtain ⟨-, hid, hfind⟩ := hc.place
      rw [← ih, screen?, screen?, hid, hfind]

namespace Run

/-- What the element of an id accepts of the values that a demand brings for it. -/
def sends (r : Run) (id : String) : Demand → Fields
  | .event c =>
    if c.element.asText? = some id then ((r.taker? c).map (·.accepted c.values)).getD [] else []
  | _ => []

/-- Values are given to elements of the current screen under their own keys, and are the latest ones of
those `sent`. -/
structure Reflects (r : Run) (sent : String → Fields) : Prop where
  once : (r.interactions.map Prod.fst).Nodup ∧ ∀ g ∈ r.interactions, g.2.keys.Nodup
  element : ∀ g ∈ r.interactions, ∃ s e, r.screen? = some s ∧ s.element? (.str g.1) = some e ∧
    ∀ f ∈ g.2, f.1 ∈ e.interactiveKeys
  latest : ∀ id key,
    Fields.find? ((r.interactions.lookup id).getD []) key = Fields.written? (sent id) key

variable {r r' : Run} {sent : String → Fields}

theorem Reflects.none (h : r.interactions = []) : r.Reflects fun _ => [] where
  once := by rw [h]; exact ⟨List.nodup_nil, List.forall_mem_nil _⟩
  element g hg := by rw [h] at hg; cases hg
  latest id key := by rw [h]; rfl

theorem Reflects.congr (h : r.Reflects sent) (hi : r'.interactions = r.interactions)
    (hs : r'.screen? = r.screen?) : r'.Reflects sent :=
  ⟨by rw [hi]; exact h.once, by rw [hi, hs]; exact h.element, by rw [hi]; exact h.latest⟩

theorem Reflects.gave {c : EventCall} {e : Element} (h : r.Reflects sent)
    (htaker : r.taker? c = some e) :
    (r.gave e c.values).Reflects fun id => sent id ++ r.sends id (.event c) := by
  obtain ⟨-, -, htruthy, s, hs, he⟩ := taker?_eq_some_iff.mp htaker
  obtain ⟨id₀, helement, hid⟩ := Screen.element_id he htruthy
  have hsends : ∀ id, r.sends id (.event c) = if id₀ = id then e.accepted c.values else [] := by
    intro id
    simp [sends, htaker, helement, Value.asText?]
  have hallowed : ∀ f ∈ e.accepted c.values, f.1 ∈ e.interactiveKeys := by
    intro f hf
    simpa [Element.allows] using (List.mem_filter.mp hf).2
  rw [Run.gave]
  split
  · rename_i hnone
    have hnothing : ∀ id, r.sends id (.event c) = [] := by
      intro id
      rw [hsends, List.isEmpty_iff.mp hnone, ite_self]
    refine ⟨h.once, h.element, fun id key => ?_⟩
    rw [hnothing, List.append_nil]
    exact h.latest id key
  · rw [hid, Option.getD_some]
    have hbefore : ((r.interactions.lookup id₀).getD []).keys.Nodup ∧
        ∀ f ∈ (r.interactions.lookup id₀).getD [], f.1 ∈ e.interactiveKeys := by
      rcases r.interactions.lookup_cases id₀ with hnone | hmem
      · rw [hnone]
        exact ⟨List.nodup_nil, List.forall_mem_nil _⟩
      · obtain ⟨s', e', hs', he', hkeys⟩ := h.element _ hmem
        obtain rfl := Option.some.inj (hs.symm.trans hs')
        rw [← helement, he] at he'
        obtain rfl := Option.some.inj he'
        exact ⟨h.once.2 _ hmem, hkeys⟩
    refine ⟨⟨Interactions.give_nodup h.once.1 _ _, fun g hg => ?_⟩, fun g hg => ?_, fun id key => ?_⟩
    · rcases Interactions.mem_give hg with rfl | hg
      · exact Fields.overlay_nodup hbefore.1 _
      · exact h.once.2 g hg
    · rcases Interactions.mem_give hg with rfl | hg
      · refine ⟨s, e, hs, helement ▸ he, fun f hf => ?_⟩
        exact (Fields.mem_overlay hf).elim (hallowed f) (hbefore.2 f)
      · exact h.element g hg
    · rw [hsends, Fields.written?_append, Interactions.lookup_give]
      by_cases hsame : id₀ = id
      · subst hsame
        rw [if_pos rfl, if_pos rfl, Option.getD_some, Fields.overlay_find?, h.latest]
      · rw [if_neg hsame, if_neg (Ne.symm hsame), h.latest]
        rfl

theorem Reflects.given (h : r.Reflects sent) (d : Demand) :
    (r.given d).Reflects fun id => sent id ++ r.sends id d := by
  have hsame : (∀ id, r.sends id d = []) → r.Reflects fun id => sent id ++ r.sends id d := by
    intro hnothing
    refine ⟨h.once, h.element, fun id key => ?_⟩
    rw [hnothing, List.append_nil]
    exact h.latest id key
  cases d with
  | event c =>
      cases htaker : r.taker? c with
      | none =>
          rw [Run.given, htaker]
          exact hsame fun id => by simp [sends, htaker]
      | some e =>
          rw [Run.given, htaker]
          exact h.gave htaker
  | _ => exact hsame fun _ => rfl

end Run

theorem Study.newRun_run :
    ({ setup := {} } : Host).newRun Study.run.journey [] [] "tour" = .ok Study.run := by
  have hname : Study.run.journey.nameIssues = [] := by decide +kernel
  exact Host.newRun_valid _ (Journey.issues_clear rfl hname rfl (by decide)) [] [] "tour"

namespace Session

variable {ε : Type} (u : Setup) {s : Session ε}

/-- What the requests taken up before a place have sent to the element of an id, of those that found
the run on the visit that it is on there. -/
def sentAt (s : Session ε) (place : Nat) (id : String) : Fields :=
  ((s.taken.take place).filter (·.2.visit = (s.runAt place).visit)).flatMap fun p =>
    p.2.sends id p.1.request.demand

/-- The values at a place are the latest of those sent, and no visit before has a higher number. -/
structure ReflectsAt (s : Session ε) (place : Nat) : Prop where
  values : (s.runAt place).Reflects (s.sentAt place)
  visits : ∀ p ∈ s.taken.take place, p.2.visit ≤ (s.runAt place).visit

theorem ReflectsAt.next {r₀ : Run} (ht : Traced u r₀ s) {place : Nat} (h : s.ReflectsAt place) :
    s.ReflectsAt (place + 1) := by
  cases hp : s.taken[place]? with
  | none =>
      have hle := List.getElem?_eq_none_iff.mp hp
      have hrun : s.runAt (place + 1) = s.runAt place := by
        rw [runAt_end hle, runAt_end (Nat.le_succ_of_le hle)]
      have htake : s.taken.take (place + 1) = s.taken.take place := by
        rw [List.take_of_length_le hle, List.take_of_length_le (Nat.le_succ_of_le hle)]
      have hsent : s.sentAt (place + 1) = s.sentAt place := by
        funext id
        rw [sentAt, sentAt, hrun, htake]
      exact ⟨by rw [hrun, hsent]; exact h.values, by rw [hrun, htake]; exact h.visits⟩
  | some p =>
      have htake : s.taken.take (place + 1) = s.taken.take place ++ [p] := by
        rw [List.take_add_one, hp]
        rfl
      obtain ⟨w, hw, hrun, -⟩ := ht.reached u hp
      have hfound := runAt_taken hp
      obtain ⟨hvalues, hvisits⟩ := h
      rw [hfound] at hvalues hvisits
      have hbecomes := Request.process_becomes u.rules hw
      have hgiven := Request.process_given u.rules hw
      rw [hrun] at hbecomes hgiven
      have hsent : ∀ id, s.sentAt (place + 1) id =
          ((s.taken.take place ++ [p]).filter (·.2.visit = (s.runAt (place + 1)).visit)).flatMap fun p =>
            p.2.sends id p.1.request.demand := fun id => by rw [sentAt, htake]
      rcases hgiven with ⟨hv, hi, -⟩ | ⟨hv, hi⟩
      · have hmore : s.sentAt (place + 1) =
            fun id => s.sentAt place id ++ p.2.sends id p.1.request.demand := by
          funext id
          rw [hsent, hv, List.filter_append, List.flatMap_append, sentAt, hfound]
          simp
        have hscreen : (p.2.given p.1.request.demand).screen? = p.2.screen? := by
          obtain ⟨interactions, he⟩ := p.2.given_kept p.1.request.demand
          rw [he]
          rfl
        refine ⟨?_, ?_⟩
        · rw [hmore]
          refine (hvalues.given p.1.request.demand).congr hi ?_
          rw [hscreen, (hbecomes.remains hv).screen]
        · rw [htake, hv]
          exact List.forall_mem_append.mpr ⟨hvisits, by simp⟩
      · -- The requests so far have all found the run on visits before.
        have hbefore : ∀ p' ∈ s.taken.take place ++ [p], p'.2.visit < (s.runAt (place + 1)).visit := by
          refine List.forall_mem_append.mpr ⟨fun p' hp' => ?_, by simpa using hv⟩
          exact Nat.lt_of_le_of_lt (hvisits p' hp') hv
        have hnothing : s.sentAt (place + 1) = fun _ => [] := by
          funext id
          rw [hsent, List.filter_eq_nil_iff.mpr fun p' hp' => by simpa using Nat.ne_of_lt (hbefore p' hp')]
          rfl
        refine ⟨?_, fun p' hp' => ?_⟩
        · rw [hnothing]
          exact .none hi
        · rw [htake] at hp'
          exact Nat.le_of_lt (hbefore p' hp')

end Session

end GuidedJourney
