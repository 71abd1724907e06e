import GuidedJourney.Proofs.SessionInvariant

namespace GuidedJourney.Session

variable {ε : Type} (u : Setup)

def requests (s : Session ε) : List (Queued ε) := s.taken.map Prod.fst ++ s.queue

def asked (s : Session ε) : List Timer := s.requests.filterMap (·.request.timer?)

theorem armed_carries : Carries u fun s s' : Session ε => s'.armed = s.armed where
  trans h h' := h'.trans h
  follow s caller w := follow_armed u caller w s
  arrange _ _ _ _ _ := rfl

theorem submit_armed (caller : ε) (q : Request) (s : Session ε) :
    (s.submit u caller q).armed = s.armed :=
  (armed_carries u).submit caller q s

theorem reply_armed (r : ServiceReply) (s : Session ε) : (s.reply u r).armed = s.armed :=
  (armed_carries u).reply r s

/-- Turns arm no timers. -/
theorem sublist_stable (ts₀ : List Timer) : Stable fun _ ts => ts.Sublist ts₀ := by
  intro t t' ts hc h
  obtain ⟨more, hm⟩ := hc.released
  rw [hm, List.foldl_append]
  exact (Release.foldl_sublist more _).trans h

theorem Holds.submit_timers {I : Run → List Timer → Prop} {first : List (Queued ε × Run)}
    {s : Session ε} (h : Holds I first s) (caller : ε) (q : Request) :
    (s.submit u caller q).timers.Sublist s.timers :=
  ((h.rebase (List.Sublist.refl s.timers)).submit u (sublist_stable _) caller q).now

theorem Holds.reply_timers {I : Run → List Timer → Prop} {first : List (Queued ε × Run)}
    {s : Session ε} (h : Holds I first s) (r : ServiceReply) :
    (s.reply u r).timers.Sublist s.timers :=
  ((h.rebase (List.Sublist.refl s.timers)).reply u (sublist_stable _) r).now

structure Numbered (s : Session ε) : Prop where
  bound : ∀ t ∈ s.armed, t.id < s.armed.length
  pending : ∀ t ∈ s.timers, t ∈ s.armed
  own : ∀ q ∈ s.requests, ∀ t, q.request.timer? = some t →
    t.request? = some q.request ∧ t ∈ s.armed
  once : (s.asked.map Timer.id).Nodup
  apart : ∀ t ∈ s.asked, ∀ t' ∈ s.timers, t.id ≠ t'.id

theorem Numbered.fresh (r : Run) (ls : List Listener) :
    Numbered ({ run := r, listeners := ls } : Session ε) :=
  ⟨nofun, nofun, nofun, .nil, nofun⟩

theorem Numbered.asked_armed {s : Session ε} (h : Numbered s) : ∀ t ∈ s.asked, t ∈ s.armed := by
  intro t ht
  obtain ⟨q, hq, ht⟩ := List.mem_filterMap.mp ht
  exact (h.own q hq t ht).2

theorem Numbered.direct {s s' : Session ε} (h : Numbered s) (harmed : s'.armed = s.armed)
    (htimers : s'.timers.Sublist s.timers) {new : List (Queued ε)}
    (hrequests : s'.requests = s.requests ++ new) (hnew : ∀ q ∈ new, q.request.timer? = none) :
    Numbered s' := by
  have hasked : s'.asked = s.asked := by
    rw [asked, hrequests, List.filterMap_append, List.filterMap_eq_nil_iff.mpr hnew,
      List.append_nil]
    rfl
  refine ⟨?_, ?_, ?_, ?_, ?_⟩
  · rw [harmed]; exact h.bound
  · rw [harmed]; exact fun t ht => h.pending t (htimers.subset ht)
  · rw [harmed, hrequests]
    intro q hq t ht
    rcases List.mem_append.mp hq with hq | hq
    · exact h.own q hq t ht
    · rw [hnew q hq] at ht
      cases ht
  · rw [hasked]; exact h.once
  · rw [hasked]; exact fun t ht t' ht' => h.apart t ht t' (htimers.subset ht')

/-- A timer that has gone off and asked for its event. -/
theorem Numbered.fired {s s' : Session ε} (h : Numbered s) (harmed : s'.armed = s.armed) {t : Timer}
    {q : Request} {caller : ε} (ht : t ∈ s.timers) (hq : t.request? = some q)
    (htimers : s'.timers.Sublist (s.timers.filter (·.id != t.id)))
    (hrequests : s'.requests = s.requests ++ [⟨caller, q⟩]) : Numbered s' := by
  have hasked : s'.asked = s.asked ++ [t] := by
    simp [asked, hrequests, Timer.request?_timer? hq]
  have hsub : ∀ t' ∈ s'.timers, t' ∈ s.timers ∧ t'.id ≠ t.id := by
    intro t' ht'
    simpa using List.mem_filter.mp (htimers.subset ht')
  refine ⟨?_, ?_, ?_, ?_, ?_⟩
  · rw [harmed]; exact h.bound
  · rw [harmed]; exact fun t' ht' => h.pending t' (hsub t' ht').1
  · rw [harmed, hrequests]
    intro q' hq' t' ht'
    rcases List.mem_append.mp hq' with hq' | hq'
    · exact h.own q' hq' t' ht'
    · obtain rfl := List.mem_singleton.mp hq'
      obtain rfl := Option.some.inj (ht'.symm.trans (Timer.request?_timer? hq))
      exact ⟨hq, h.pending _ ht⟩
  · rw [hasked, List.map_append, List.nodup_append]
    refine ⟨h.once, by simp, ?_⟩
    intro i hi i' hi'
    obtain ⟨t', ht', rfl⟩ := List.mem_map.mp hi
    rw [List.map_singleton, List.mem_singleton] at hi'
    rw [hi']
    exact h.apart t' ht' t ht
  · rw [hasked]
    intro t₁ ht₁ t' ht'
    rcases List.mem_append.mp ht₁ with ht₁ | ht₁
    · exact h.apart t₁ ht₁ t' (hsub t' ht').1
    · rw [List.mem_singleton.mp ht₁]
      exact (hsub t' ht').2.symm

theorem Numbered.scheduled {s : Session ε} (h : Numbered s) (event element context : Value)
    (delay : Option Binary64) : Numbered { s with
      timers := s.timers ++ [s.nextTimer event element context delay]
      armed := s.armed ++ [s.nextTimer event element context delay] } := by
  refine ⟨fun t ht => ?_, fun t ht => ?_, fun q hq t ht => ?_, h.once, fun t ht t' ht' => ?_⟩
  · rw [List.length_append, List.length_singleton]
    rcases List.mem_append.mp ht with ht | ht
    · exact Nat.lt_succ_of_lt (h.bound t ht)
    · rw [List.mem_singleton.mp ht]
      exact Nat.lt_succ_self _
  · rcases List.mem_append.mp ht with ht | ht
    · exact List.mem_append_left _ (h.pending t ht)
    · exact List.mem_append_right _ ht
  · obtain ⟨ho, ha⟩ := h.own q hq t ht
    exact ⟨ho, List.mem_append_left _ ha⟩
  · rcases List.mem_append.mp ht' with ht' | ht'
    · exact h.apart t ht t' ht'
    · rw [List.mem_singleton.mp ht']
      exact Nat.ne_of_lt (h.bound t (h.asked_armed t ht))

theorem Numbered.apply {I : Run → List Timer → Prop} {first : List (Queued ε × Run)}
    {ls : List Listener} {s : Session ε} (h : Numbered s) (hh : Holds I first s)
    (ho : InOrder u ls s) (i : Input ε) : Numbered (s.apply u i) := by
  have hrequests : (s.apply u i).requests = s.requests ++ (s.arrival? i).toList := (ho.apply u i).2
  cases i with
  | submit caller q =>
      refine h.direct (submit_armed u caller q.direct s) (hh.submit_timers u caller q.direct)
        hrequests fun q' hq' => ?_
      obtain rfl : q' = ⟨caller, q.direct⟩ := by simpa [arrival?] using hq'
      exact Request.direct_timer? q
  | reply r =>
      exact h.direct (reply_armed u r s) (hh.reply_timers u r) hrequests (by simp [arrival?])
  | fire caller timer =>
      rcases fire_cases u caller timer s with ⟨ha, ts, hts, he⟩ | ⟨t, q, ht, hid, hq, ha, he⟩
      · rw [ha, Session.apply, he] at hrequests
        rw [Session.apply, he]
        exact h.direct rfl hts hrequests (by simp)
      · rw [ha, Session.apply, he] at hrequests
        rw [Session.apply, he]
        have hf : Holds (fun _ ts => ts.Sublist (s.timers.filter (·.id != timer))) s.taken
            { s with timers := s.timers.filter (·.id != timer) } :=
          ⟨.refl _, ⟨[], by simp⟩, hh.onward, hh.waiting, hh.resting⟩
        refine h.fired (submit_armed u caller q _) ht hq ?_ hrequests
        rw [hid]
        exact (hf.submit u (sublist_stable _) caller q).now
  | schedule event element context delay =>
      rcases schedule_cases event element context delay s with ⟨-, he⟩ | ⟨-, he⟩
      · rw [Session.apply, he]
        exact h
      · rw [Session.apply, he]
        exact h.scheduled event element context delay
  | close => exact h.direct rfl (List.nil_sublist _) hrequests (by simp [arrival?])

end GuidedJourney.Session
