import GuidedJourney.Proofs.SoundWorld

namespace GuidedJourney

def Host.answers (h : Host) (k : Nat) : List Answer := (h.session? k).elim [] Session.answers

namespace World

def recorded (w : World) (h : Happening) : List Answer :=
  (List.range (w.step h).host.sessions.length).flatMap fun k =>
    ((w.step h).host.answers k).drop (w.host.answers k).length

def records (w : World) : List Happening → List Answer
  | [] => []
  | h :: hs => w.recorded h ++ (w.step h).records hs

end World

namespace Host

variable {h : Host}

theorem answers_setSession {i : Nat} {s s' : Session Caller} (hi : h.session? i = some s)
    (ha : s.answers <+: s'.answers) (k : Nat) : h.answers k <+: (h.setSession i s').answers k := by
  by_cases hk : i = k
  · subst hk
    have hset : (h.setSession i s').session? i = some s' := by
      have hi' : h.sessions[i]? = some s := hi
      change (h.sessions.set i s')[i]? = some s'
      rw [List.getElem?_set_self', hi']
      rfl
    rw [answers, answers, hset, hi]
    exact ha
  · have hset : (h.setSession i s').session? k = h.session? k := List.getElem?_set_ne hk
    rw [answers, answers, hset]

theorem answers_addSession (r : Run) (k : Nat) : (h.addSession r).1.answers k = h.answers k := by
  change ((h.sessions ++ [_])[k]?).elim [] Session.answers = (h.sessions[k]?).elim [] Session.answers
  rcases Nat.lt_trichotomy k h.sessions.length with hlt | rfl | hgt
  · rw [List.getElem?_append_left hlt]
  · rw [List.getElem?_concat_length, List.getElem?_eq_none (Nat.le_refl _)]
    rfl
  · have hge : (h.sessions ++ [({ run := r } : Session Caller)]).length ≤ k := by
      simpa using Nat.succ_le_of_lt hgt
    rw [List.getElem?_eq_none (Nat.le_of_lt hgt), List.getElem?_eq_none hge]

theorem answers_close (i k : Nat) : h.answers k <+: (h.close i).answers k := by
  unfold close
  cases hi : h.session? i with
  | none => exact List.prefix_refl _
  | some s =>
      have hsame : s.answers <+: s.close.answers := List.prefix_refl _
      exact answers_setSession hi hsame k

theorem answers_settle (q : Sequel) (k : Nat) : h.answers k <+: (q.settle h).answers k := by
  cases q with
  | register i =>
      change h.answers k <+: (h.register i).answers k
      unfold register
      split <;> exact List.prefix_refl _
  | remove id i => exact answers_close i k
  | shutdown i id rest => exact answers_close i k

end Host

namespace World

variable {w : World}

theorem conclude_answers (t : Nat) (o : Except Fault Response) (w : World) (k : Nat) :
    w.host.answers k <+: (w.conclude t o).host.answers k := by
  have hsettled : w.host.answers k <+: (w.settled t o).answers k := by
    unfold settled
    split
    · exact Host.answers_settle _ k
    · exact List.prefix_refl _
  rcases w.conclude_cases t o with ⟨x, he⟩ | ⟨i, id, rest, -, he⟩ <;> rw [he] <;> exact hsettled

theorem Sound.act_answers (hw : w.Sound) {i t : Nat} {f : Session Caller → CallStep}
    (hm : ∀ before, w.host.session? i = some before →
      ∃ as, Session.Moves w.host.setup t as before (f before).1) (k : Nat) :
    w.host.answers k <+: (w.act i t f).host.answers k := by
  cases hi : w.host.session? i with
  | none => rw [act_none hi]
  | some before =>
      obtain ⟨as, hmoves⟩ := hm before hi
      obtain ⟨more, hmore, -⟩ := hmoves.answers (hw.host.attended before (List.mem_of_getElem? hi))
      obtain ⟨ready, sleepers, drainers, he, -⟩ := w.handed_cases i t before (f before).1
      have hhanded : w.host.answers k <+: (w.handed i t before (f before).1).host.answers k := by
        rw [he]
        refine Host.answers_setSession hi ?_ k
        rw [hmore, List.append_assoc]
        exact List.prefix_append ..
      rw [act_some hi]
      cases (f before).2 with
      | none => exact hhanded
      | some o => exact hhanded.trans (conclude_answers t o _ k)

theorem Turns.answers {j : Job} {w₁ : World} {i t : Nat} {f : Session Caller → CallStep}
    (ht : w.Turns j w₁ i t f) (k : Nat) : w₁.host.answers k = w.host.answers k := by
  cases ht with
  | start t r => exact Host.answers_addSession r k
  | _ => rfl

theorem Sound.step_answers (hw : w.Sound) (h : Happening) (k : Nat) :
    w.host.answers k <+: (w.step h).host.answers k := by
  cases h with
  | order o =>
      rcases w.order_cases o with ⟨e, -, he⟩ | ⟨op, -, he⟩ <;> rw [he] <;> exact List.prefix_refl _
  | work =>
      rcases w.work_cases with ⟨-, he⟩ | ⟨j, rest, hready, he⟩
      · rw [he]
      · obtain ⟨hrest, hj⟩ := hw.work hready
        rw [he]
        rcases perform_cases j { w with ready := rest } with ⟨w₁, i, t, f, ht, hp⟩ | hr
        · have hkept : w.host.answers k = w₁.host.answers k := (ht.answers k).symm
          rw [hp, hkept]
          exact (ht.sound hrest).act_answers (fun before hi => ⟨_, (ht.signs hj hi).1⟩) k
        · rw [hr.host]
  | pass now => obtain ⟨clock, he⟩ := w.pass_frame now; rw [he]
  | rise n => obtain ⟨ready, sleepers, he⟩ := w.rise_frame n; rw [he]
  | draw => exact List.prefix_refl _

theorem flatMap_range_single {α : Type} {g : Nat → List α} {i : Nat} (h : ∀ k, k ≠ i → g k = [])
    {n : Nat} (hn : n ≤ i → g i = []) : (List.range n).flatMap g = g i := by
  induction n with
  | zero => exact (hn (Nat.zero_le i)).symm
  | succ n ih =>
      rw [List.range_succ, List.flatMap_append, List.flatMap_singleton]
      by_cases hni : n = i
      · subst hni
        have hnone : (List.range n).flatMap g = [] :=
          List.flatMap_eq_nil_iff.mpr fun k hk => h k (Nat.ne_of_lt (List.mem_range.mp hk))
        rw [hnone, List.nil_append]
      · rw [h n hni, List.append_nil]
        exact ih fun hle => hn (by omega)

theorem Sound.recorded_run (hw : w.Sound) (h : Happening) {id : String} {i : Nat}
    (hids : Sole id i (w.step h).host.ids) :
    w.host.answers i ++ (w.recorded h).filter (·.runId == id) = (w.step h).host.answers i := by
  -- Answers with the id are in session `i` only, so what the other sessions add is filtered out.
  have hsigned : ∀ k, ∀ a ∈ (w.step h).host.answers k, (a.runId = id ↔ k = i) := by
    intro k a ha
    unfold Host.answers at ha
    cases hk : (w.step h).host.session? k with
    | none => rw [hk] at ha; cases ha
    | some s =>
        rw [hk] at ha
        have hid : (w.step h).host.ids[k]? = some s.run.id := by rw [Host.ids_getElem?, hk]; rfl
        rw [(hw.step h).host.signed s (List.mem_of_getElem? hk) a ha]
        exact hids k _ hid
  have hfilter : (w.recorded h).filter (·.runId == id) =
      ((w.step h).host.answers i).drop (w.host.answers i).length := by
    rw [recorded, List.filter_flatMap, flatMap_range_single (i := i)]
    · refine List.filter_eq_self.mpr fun a ha => ?_
      simpa using (hsigned i a (List.mem_of_mem_drop ha)).mpr rfl
    · intro k hk
      refine List.filter_eq_nil_iff.mpr fun a ha => ?_
      simpa using mt (hsigned k a (List.mem_of_mem_drop ha)).mp hk
    · intro hi
      have hnone : (w.step h).host.answers i = [] := by
        rw [Host.answers, Host.session?, List.getElem?_eq_none hi]
        rfl
      rw [hnone, List.drop_nil]
      rfl
  rw [hfilter]
  exact List.prefix_iff_eq_append.mp (hw.step_answers h i)

/-- The shared recorder has of the run what its session has recorded, in the same order. -/
theorem Sound.records_run (hw : w.Sound) (hs : List Happening) {id : String} {i : Nat}
    (hids : Sole id i (w.after hs).host.ids) :
    w.host.answers i ++ (w.records hs).filter (·.runId == id) = (w.after hs).host.answers i := by
  induction hs generalizing w with
  | nil => exact List.append_nil _
  | cons h hs ih =>
      have hstep := hw.recorded_run h (hids.earlier ((hw.step h).after_ids hs))
      rw [records, List.filter_append, ← List.append_assoc, hstep]
      exact ih (hw.step h) hids

end World

end GuidedJourney
