import GuidedJourney.Proofs.SoundWorld
import GuidedJourney.Proofs.TimeOrder

namespace GuidedJourney

def Operation.alone? (id : String) (i : Nat) : Operation → Option Operation
  | .call k c => if k = i then some (.call 0 c) else none
  | .start r => if r.id = id then some (.start r) else none
  | .finish id' reason => if id' = id then some (.finish id' reason) else none
  | .sleep _ | .shutdown _ => none

def Job.alone? (id : String) (i : Nat) : Job → Option Job
  | .begin t op => (op.alone? id i).map (.begin t)
  | .resume k c o => if k = i then some (.resume 0 c o) else none
  | .reply k r => if k = i then some (.reply 0 r) else none
  | .arm k timer => if k = i then some (.arm 0 timer) else none
  | .fire k timer => if k = i then some (.fire 0 timer) else none
  | .wake _ => none

def Sequel.alone : Sequel → Sequel
  | .register _ => .register 0
  | .remove id _ => .remove id 0
  | .shutdown _ id rest => .shutdown 0 id rest

def Sequel.session : Sequel → Nat
  | .register i | .remove _ i | .shutdown i _ _ => i

def Drainer.alone (d : Drainer) : Drainer := { d with session := 0 }

namespace Host

variable {id : String} {i k : Nat} {h : Host}

def alone (id : String) (i : Nat) (h : Host) : Host where
  setup := h.setup
  catalog := h.catalog
  sessions := (h.session? i).toList
  runs := (h.runs.filter (·.1 == id)).map fun e => (e.1, 0)

@[simp] theorem alone_session : (h.alone id i).session? 0 = h.session? i := by
  change (h.session? i).toList[0]? = _
  cases h.session? i <;> rfl

theorem alone_setSession (s : Session Caller) :
    (h.setSession i s).alone id i = (h.alone id i).setSession 0 s := by
  have hset : (h.sessions.set i s)[i]?.toList = h.sessions[i]?.toList.set 0 s := by
    rw [List.getElem?_set_self']
    cases h.sessions[i]? <;> rfl
  simp only [alone, setSession, session?, hset]

theorem alone_setSession_ne (hk : k ≠ i) (s : Session Caller) :
    (h.setSession k s).alone id i = h.alone id i := by
  have hset : (h.sessions.set k s)[i]? = h.sessions[i]? := List.getElem?_set_ne hk
  simp only [alone, setSession, session?, hset]

theorem alone_addSession (r : Run) (hi : h.sessions.length = i) :
    (h.addSession r).1.alone id i = ((h.alone id i).addSession r).1 ∧
      (h.alone id i).sessions = [] := by
  subst hi
  have hnone : h.sessions[h.sessions.length]? = none := List.getElem?_eq_none (Nat.le_refl _)
  have hadded : (h.sessions ++ [({ run := r } : Session Caller)])[h.sessions.length]? =
      some { run := r } := List.getElem?_concat_length
  simp only [alone, addSession, session?, hnone, hadded]
  exact ⟨rfl, rfl⟩

theorem alone_addSession_ne (r : Run) (hi : h.sessions.length ≠ i) :
    (h.addSession r).1.alone id i = h.alone id i := by
  have hset : (h.sessions ++ [({ run := r } : Session Caller)])[i]? = h.sessions[i]? := by
    rcases Nat.lt_or_ge i h.sessions.length with hlt | hge
    · exact List.getElem?_append_left hlt
    · rw [List.getElem?_eq_none hge, List.getElem?_eq_none]
      simp only [List.length_append, List.length_singleton]
      omega
  simp only [alone, addSession, session?, hset]

theorem alone_find : (h.alone id i).find id = (h.find id).map fun _ => 0 := by
  have hlookup : ∀ runs : List (String × Nat),
      ((runs.filter (·.1 == id)).map fun e => (e.1, 0)).lookup id =
        (runs.lookup id).map fun _ => 0 := by
    intro runs
    induction runs with
    | nil => rfl
    | cons e rest ih =>
        rcases e with ⟨key, k⟩
        by_cases hkey : key = id
        · subst hkey
          simp
        · rw [List.filter_cons_of_neg (by simp [hkey]), ih, Fields.lookup_cons, if_neg (Ne.symm hkey)]
  unfold find
  rw [alone, hlookup]
  cases h.runs.lookup id <;> rfl

theorem alone_register {s : Session Caller} (hs : h.session? i = some s) (hid : s.run.id = id) :
    (h.register i).alone id i = (h.alone id i).register 0 := by
  have hput : ∀ runs : List (String × Nat),
      ((Fields.put id i runs).filter (·.1 == id)).map (fun e => (e.1, 0)) =
        Fields.put id 0 ((runs.filter (·.1 == id)).map fun e => (e.1, 0)) := by
    intro runs
    induction runs with
    | nil => simp [Fields.put]
    | cons e rest ih =>
        rcases e with ⟨key, k⟩
        by_cases hkey : key = id
        · subst hkey
          simp [Fields.put]
        · simpa [Fields.put, hkey] using ih
  rw [register_some hs, register_some (alone_session.trans hs), hid]
  simp only [alone, hput]
  rfl

theorem alone_register_ne {s : Session Caller} (hs : h.session? k = some s) (hid : s.run.id ≠ id) :
    (h.register k).alone id i = h.alone id i := by
  have hput : ∀ runs : List (String × Nat),
      (Fields.put s.run.id k runs).filter (·.1 == id) = runs.filter (·.1 == id) := by
    intro runs
    induction runs with
    | nil => simp [Fields.put, hid]
    | cons e rest ih =>
        rcases e with ⟨key, k'⟩
        by_cases hkey : key = s.run.id
        · subst hkey
          simp [Fields.put, hid]
        · rw [Fields.put, if_neg hkey, List.filter_cons, List.filter_cons, ih]
  rw [register_some hs]
  simp only [alone, hput]
  rfl

theorem alone_close : (h.close i).alone id i = (h.alone id i).close 0 := by
  rw [close, close, alone_session]
  cases h.session? i with
  | none => rfl
  | some s => exact alone_setSession s.close

theorem alone_close_ne (hk : k ≠ i) : (h.close k).alone id i = h.alone id i := by
  rw [close]
  cases h.session? k with
  | none => rfl
  | some s => exact alone_setSession_ne hk s.close

theorem alone_remove : (h.remove id).alone id i = (h.alone id i).remove id := by
  have hnone : (h.runs.filter (·.1 != id)).filter (·.1 == id) = [] := by
    rw [List.filter_filter, List.filter_eq_nil_iff]
    intro e _
    simp
  have hnone' : ((h.runs.filter (·.1 == id)).map fun e => (e.1, 0)).filter (·.1 != id) = [] := by
    rw [List.filter_eq_nil_iff]
    intro e he
    obtain ⟨e', he', rfl⟩ := List.mem_map.mp he
    simpa using (List.mem_filter.mp he').2
  simp only [alone, remove, hnone, hnone']
  rfl

theorem alone_remove_ne {id' : String} (hid : id' ≠ id) :
    (h.remove id').alone id i = h.alone id i := by
  have hsame : (h.runs.filter (·.1 != id')).filter (·.1 == id) = h.runs.filter (·.1 == id) := by
    rw [List.filter_filter]
    refine List.filter_congr fun e _ => ?_
    by_cases he : e.1 = id
    · simp [he, Ne.symm hid]
    · simp [he]
  simp only [alone, remove, hsame]
  rfl

end Host

namespace World

variable {own : List Nat} {id : String} {i k t : Nat} {w : World} {j j' : Job}

/-- The world as the run with the id in session `i` sees it, if the tickets in `own` are its own. -/
def alone (own : List Nat) (id : String) (i : Nat) (w : World) : World where
  host := w.host.alone id i
  clock := w.clock
  ready := w.ready.filterMap (Job.alone? id i)
  sleepers := sift (Job.alone? id i) w.sleepers
  drainers := (w.drainers.filter (·.session == i)).map Drainer.alone
  sequels := (w.sequels.filter fun e => own.contains e.1).map fun e => (e.1, e.2.alone)
  tickets := w.tickets
  results := w.results.filter fun e => own.contains e.1

theorem alone_push_some (h : j.alone? id i = some j') :
    (w.push j).alone own id i = (w.alone own id i).push j' := by
  have hready : (w.ready ++ [j]).filterMap (Job.alone? id i) =
      w.ready.filterMap (Job.alone? id i) ++ [j'] := by
    rw [List.filterMap_append, List.filterMap_cons_some h, List.filterMap_nil]
  simp only [alone, push, hready]

theorem alone_push_none (h : j.alone? id i = none) :
    (w.push j).alone own id i = w.alone own id i := by
  have hready : (w.ready ++ [j]).filterMap (Job.alone? id i) =
      w.ready.filterMap (Job.alone? id i) := by
    rw [List.filterMap_append, List.filterMap_cons_none h, List.filterMap_nil, List.append_nil]
  simp only [alone, push, hready]

theorem alone_later_some (h : j.alone? id i = some j') (delay : Binary64) :
    (w.later delay j).alone own id i = (w.alone own id i).later delay j' := by
  unfold later
  split
  · exact alone_push_some h
  · have hsleepers : sift (Job.alone? id i) (w.sleepers ++ [⟨w.clock.add delay, j⟩]) =
        sift (Job.alone? id i) w.sleepers ++ [⟨w.clock.add delay, j'⟩] := by
      rw [sift_append, sift_cons_some h]
      rfl
    simp only [alone, hsleepers]

theorem alone_later_none (h : j.alone? id i = none) (delay : Binary64) :
    (w.later delay j).alone own id i = w.alone own id i := by
  unfold later
  split
  · exact alone_push_none h
  · have hsleepers : sift (Job.alone? id i) (w.sleepers ++ [⟨w.clock.add delay, j⟩]) =
        sift (Job.alone? id i) w.sleepers := by
      rw [sift_append, sift_cons_none h]
      exact List.append_nil _
    simp only [alone, hsleepers]

theorem alone_result (ht : t ∈ own) (x : Upshot) :
    (w.result t x).alone own id i = (w.alone own id i).result t x := by
  have hresults : ((t, x) :: w.results).filter (fun e => own.contains e.1) =
      (t, x) :: w.results.filter fun e => own.contains e.1 :=
    List.filter_cons_of_pos (by simpa using ht)
  simp only [alone, result, hresults]

theorem alone_result_ne (ht : t ∉ own) (x : Upshot) :
    (w.result t x).alone own id i = w.alone own id i := by
  have hresults : ((t, x) :: w.results).filter (fun e => own.contains e.1) =
      w.results.filter fun e => own.contains e.1 :=
    List.filter_cons_of_neg (by simpa using ht)
  simp only [alone, result, hresults]

theorem alone_lookup (ht : t ∈ own) :
    (w.alone own id i).sequels.lookup t = (w.sequels.lookup t).map Sequel.alone := by
  change ((w.sequels.filter fun e => own.contains e.1).map fun e => (e.1, e.2.alone)).lookup t = _
  induction w.sequels with
  | nil => rfl
  | cons e rest ih =>
      rcases e with ⟨t', q⟩
      by_cases he : t' = t
      · subst he
        simp [ht]
      · have hne : (t == t') = false := by simpa using Ne.symm he
        rw [List.lookup_cons, hne, List.filter_cons]
        split
        · rw [List.map_cons, List.lookup_cons, hne]
          exact ih
        · exact ih

theorem filterMap_map_some {α : Type} {g : Job → Option Job} {f f' : α → Job}
    (h : ∀ a, g (f a) = some (f' a)) (as : List α) : (as.map f).filterMap g = as.map f' := by
  induction as with
  | nil => rfl
  | cons a as ih => rw [List.map_cons, List.filterMap_cons_some (h a), ih, List.map_cons]

theorem filterMap_map_none {α : Type} {g : Job → Option Job} {f : α → Job}
    (h : ∀ a, g (f a) = none) (as : List α) : (as.map f).filterMap g = [] := by
  induction as with
  | nil => rfl
  | cons a as ih => rw [List.map_cons, List.filterMap_cons_none (h a), ih]

theorem alone_armTimers (before after : Session Caller) :
    (w.armTimers i before after).alone own id i = (w.alone own id i).armTimers 0 before after := by
  simp only [alone, armTimers, List.filterMap_append]
  rw [filterMap_map_some fun t => if_pos rfl]

theorem alone_armTimers_ne (hk : k ≠ i) (before after : Session Caller) :
    (w.armTimers k before after).alone own id i = w.alone own id i := by
  simp only [alone, armTimers, List.filterMap_append]
  rw [filterMap_map_none fun t => if_neg hk, List.append_nil]

theorem alone_drainer :
    ((w.alone own id i).drainers.find? (·.session == 0)).getD { session := 0, ticket := t } =
      ((w.drainers.find? (·.session == i)).getD { session := i, ticket := t }).alone := by
  change ((((w.drainers.filter (·.session == i)).map Drainer.alone).find? (·.session == 0)).getD _) = _
  induction w.drainers with
  | nil => rfl
  | cons d rest ih =>
      cases hd : d.session == i with
      | true => simp [hd, Drainer.alone]
      | false => simpa [List.filter_cons, List.find?_cons, hd] using ih

theorem alone_release (before after : Session Caller) :
    (w.release i t before after).alone own id i =
      (w.alone own id i).release 0 t before after := by
  have hout : (w.drainers.filter (·.session != i)).filter (·.session == i) = [] := by
    rw [List.filter_filter, List.filter_eq_nil_iff]
    intro d _
    simp
  have hout' : ((w.drainers.filter (·.session == i)).map Drainer.alone).filter (·.session != 0) = [] := by
    rw [List.filter_eq_nil_iff]
    intro d hd
    obtain ⟨d', -, rfl⟩ := List.mem_map.mp hd
    simp [Drainer.alone]
  have hsession := (w.drainer_cases i t).1
  unfold release
  rw [alone_drainer]
  generalize (w.drainers.find? (·.session == i)).getD { session := i, ticket := t } = d at *
  dsimp only [Drainer.alone]
  split
  · simp only [alone, List.filterMap_append]
    rw [filterMap_map_some fun e => if_pos rfl, List.filter_cons_of_pos (by simp [hsession]), hout, hout']
    rfl
  · simp only [alone, List.filterMap_append]
    rw [filterMap_map_some fun e => if_pos rfl, hout, hout']
    cases (List.find? _ _).or d.held with
    | none => rfl
    | some e => simp [Job.alone?]

theorem alone_release_ne (hk : k ≠ i) (before after : Session Caller) :
    (w.release k t before after).alone own id i = w.alone own id i := by
  have hsame : (w.drainers.filter (·.session != k)).filter (·.session == i) =
      w.drainers.filter (·.session == i) := by
    rw [List.filter_filter]
    refine List.filter_congr fun d _ => ?_
    by_cases hd : d.session = i
    · simp [hd, Ne.symm hk]
    · simp [hd]
  have hsession := (w.drainer_cases k t).1
  unfold release
  generalize (w.drainers.find? (·.session == k)).getD { session := k, ticket := t } = d at *
  dsimp only
  split
  · simp only [alone, List.filterMap_append]
    rw [filterMap_map_none fun e => if_neg hk, List.append_nil,
      List.filter_cons_of_neg (by simp [hsession, hk]), hsame]
  · simp only [alone, List.filterMap_append]
    rw [filterMap_map_none fun e => if_neg hk, List.append_nil, hsame]
    cases (List.find? _ _).or d.held with
    | none => rfl
    | some e => simp [Job.alone?, hk]

theorem alone_awaitService (before after : Session Caller) :
    (w.awaitService i before after).alone own id i =
      (w.alone own id i).awaitService 0 before after := by
  have hreply : ∀ r, (Job.reply i r).alone? id i = some (.reply 0 r) := fun _ => if_pos rfl
  have hsetup : (w.alone own id i).host.setup = w.host.setup := rfl
  unfold awaitService
  rw [hsetup]
  split
  · rfl
  · cases after.suspended with
    | none => rfl
    | some s =>
        cases w.host.setup.services with
        | none => rfl
        | some serve => exact alone_later_some (hreply _) _

theorem alone_awaitService_ne (hk : k ≠ i) (before after : Session Caller) :
    (w.awaitService k before after).alone own id i = w.alone own id i := by
  have hreply : ∀ r, (Job.reply k r).alone? id i = none := fun _ => if_neg hk
  rcases awaitService_cases k before after w with he | ⟨delay, r, he⟩
  · rw [he]
  · rw [he, alone_later_none (hreply r)]

theorem alone_setHost {h h' : Host} (he : h.alone id i = h') :
    (w.setHost h).alone own id i = (w.alone own id i).setHost h' := by
  subst he
  rfl

theorem alone_handed (before after : Session Caller) :
    (w.handed i t before after).alone own id i = (w.alone own id i).handed 0 t before after := by
  have hset : ({ w with host := w.host.setSession i after } : World).alone own id i =
      { w.alone own id i with host := (w.alone own id i).host.setSession 0 after } :=
    alone_setHost (Host.alone_setSession after)
  unfold handed
  rw [alone_awaitService, alone_release, alone_armTimers, hset]

theorem alone_handed_ne (hk : k ≠ i) (before after : Session Caller) :
    (w.handed k t before after).alone own id i = w.alone own id i := by
  have hset : ({ w with host := w.host.setSession k after } : World).alone own id i =
      w.alone own id i :=
    alone_setHost (Host.alone_setSession_ne hk after)
  unfold handed
  rw [alone_awaitService_ne hk, alone_release_ne hk, alone_armTimers_ne hk, hset]

end World

end GuidedJourney
