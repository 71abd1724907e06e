import GuidedJourney.Json.Writer
import GuidedJourney.Proofs.MomentText
import GuidedJourney.Proofs.RereadActions

namespace GuidedJourney

theorem Fields.get_append (fields rest : Fields) (key : String) :
    get (fields ++ rest) key = (find? fields key).getD (get rest key) := by
  rw [get, find?, List.lookup_append]
  cases h : List.lookup key fields <;> simp [find?, h, get]

namespace Value

theorem orElse_orElse (v fallback : Value) :
    (v.orElse fallback).orElse fallback = v.orElse fallback := by
  unfold orElse
  split
  · rfl
  · exact ite_self _

theorem given_orElse (key : String) (v : Value) :
    (if (v.orElse .null).truthy then [(key, v.orElse .null)] else []) =
      if v.truthy then [(key, v)] else [] := by
  unfold orElse
  split
  · rfl
  · rfl

end Value

theorem EventKind.ofValue_tag (k : EventKind) : ofValue (.str k.tag) = k := by
  cases k <;> rfl

theorem Position.ofValue_tag (p : Position) : ofValue (.str p.tag) = p := by
  cases p <;> rfl

theorem Layout.ofValue_tag (l : Layout) : ofValue (.str l.tag) = l := by
  cases l <;> rfl

theorem Direction.ofValue_tag (d : Direction) : ofValue (.str d.tag) = d := by
  cases d <;> rfl

namespace Event

theorem reread {e : Event} {actions : List Action}
    (h : Action.listOfValue (.list (Action.toDocuments e.actions)) = .ok actions) :
    ofFields e.toDocument.fieldsOrEmpty =
      .ok { e with actions, analyticsName := e.analyticsName.orElse .null } := by
  have hname : Fields.get e.toDocument.fieldsOrEmpty "analyticsName" =
      e.analyticsName.orElse .null := by
    rw [toDocument, Value.fieldsOrEmpty_obj, Fields.get_append, Value.orElse]
    split <;> rfl
  refine bind_ok_iff.mpr ⟨_, Condition.listOfValue_toDocument _, bind_ok_iff.mpr ⟨actions, h, ?_⟩⟩
  simp only [hname]
  simp only [toDocument, Value.fieldsOrEmpty_obj, List.cons_append, Fields.get_cons, String.reduceEq,
    if_true, if_false, Value.textOrEmpty_str, EventKind.ofValue_tag]
  rfl

theorem steady : Steady Event.ofFields Event.toDocument := by
  intro fields e h
  obtain ⟨conditions, -, h⟩ := bind_ok_iff.mp h
  obtain ⟨actions, hactions, h⟩ := bind_ok_iff.mp h
  cases h
  obtain ⟨actions', hread, hwrite⟩ := Action.listOfValue_reread hactions
  refine ⟨_, _, rfl, reread hread, ?_⟩
  simp only [toDocument, hwrite, Value.given_orElse]

end Event

namespace Element

theorem get_optional (e : Element) :
    Fields.get e.toDocument.fieldsOrEmpty "style" =
      (if e.style.isEmpty then .null else .obj e.style) ∧
    Fields.get e.toDocument.fieldsOrEmpty "conditions" =
      (if e.conditions.isEmpty then .null else .list (e.conditions.map Condition.toDocument)) ∧
    Fields.get e.toDocument.fieldsOrEmpty "events" =
      (if e.events.isEmpty then .null else .list (e.events.map Event.toDocument)) := by
  unfold toDocument
  cases e.style.isEmpty <;> cases e.conditions.isEmpty <;> cases e.events.isEmpty <;>
    exact ⟨rfl, rfl, rfl⟩

theorem get_style (e : Element) :
    (Fields.get e.toDocument.fieldsOrEmpty "style").fieldsOrEmpty = e.style := by
  rw [e.get_optional.1]
  split
  · rename_i h
    exact (List.isEmpty_iff.mp h).symm
  · rfl

theorem get_conditions (e : Element) :
    Condition.listOfValue (Fields.get e.toDocument.fieldsOrEmpty "conditions") = .ok e.conditions := by
  rw [e.get_optional.2.1]
  split
  · rename_i h
    exact congrArg Except.ok (List.isEmpty_iff.mp h).symm
  · exact Condition.listOfValue_toDocument _

theorem get_events {e : Element} {events : List Event}
    (h : Event.listOfValue (.list (e.events.map Event.toDocument)) = .ok events) :
    Event.listOfValue (Fields.get e.toDocument.fieldsOrEmpty "events") = .ok events := by
  rw [e.get_optional.2.2]
  split
  · rename_i hempty
    rw [List.isEmpty_iff.mp hempty] at h
    exact h
  · exact h

theorem reread {e : Element} {events : List Event}
    (h : Event.listOfValue (.list (e.events.map Event.toDocument)) = .ok events) :
    ofFields e.toDocument.fieldsOrEmpty =
      .ok { e with declared := e.declared.orElse (.str "unknown"), events } := by
  refine bind_ok_iff.mpr ⟨_, e.get_conditions, bind_ok_iff.mpr ⟨events, get_events h, ?_⟩⟩
  simp only [get_style]
  rfl

theorem steady : Steady Element.ofFields Element.toDocument := by
  intro fields e h
  obtain ⟨conditions, -, h⟩ := bind_ok_iff.mp h
  obtain ⟨events, hevents, h⟩ := bind_ok_iff.mp h
  cases h
  obtain ⟨events', hread, hwrite⟩ := Event.steady.objects hevents
  refine ⟨_, _, rfl, reread hread, ?_⟩
  have hempty : events'.isEmpty = events.isEmpty := by
    simpa only [List.isEmpty_map] using congrArg List.isEmpty hwrite
  simp only [toDocument, hwrite, hempty, Value.orElse_orElse]

end Element

namespace Section

theorem reread {s : Section} {elements : List Element}
    (h : ((s.elements.map Element.toDocument).filterMap Value.asFields?).mapM Element.ofFields =
      .ok elements) : ofFields s.toDocument.fieldsOrEmpty = .ok { s with elements } := by
  refine bind_ok_iff.mpr ⟨_, Value.objects_list _, bind_ok_iff.mpr ⟨elements, h, ?_⟩⟩
  simp only [toDocument, header, Value.fieldsOrEmpty_obj, List.cons_append, Fields.get_cons,
    String.reduceEq, if_true, if_false, Value.textOrEmpty_str, Position.ofValue_tag,
    Layout.ofValue_tag, Direction.ofValue_tag, Value.truthy]
  rfl

theorem steady : Steady Section.ofFields Section.toDocument := by
  intro fields s h
  obtain ⟨sources, -, h⟩ := bind_ok_iff.mp h
  obtain ⟨elements, helements, h⟩ := bind_ok_iff.mp h
  cases h
  obtain ⟨elements', hread, hwrite⟩ := Element.steady.mapM helements
  exact ⟨_, _, rfl, reread hread, by rw [toDocument, toDocument, hwrite]; rfl⟩

end Section

namespace Screen

theorem reread {s : Screen} {sections : List Section} {events : List Event}
    (hs : ((s.sections.map Section.toDocument).filterMap Value.asFields?).mapM Section.ofFields =
      .ok sections) (he : Event.listOfValue (.list (s.events.map Event.toDocument)) = .ok events) :
    ofFields s.toDocument.fieldsOrEmpty = .ok { s with sections, events } := by
  refine bind_ok_iff.mpr ⟨_, Value.objects_list _, bind_ok_iff.mpr ⟨sections, hs,
    bind_ok_iff.mpr ⟨events, he, ?_⟩⟩⟩
  simp only [toDocument, Value.fieldsOrEmpty_obj, Fields.get_cons, String.reduceEq, if_true, if_false,
    Value.textOrEmpty_str, Value.truthy]
  rfl

theorem steady : Steady Screen.ofFields Screen.toDocument := by
  intro fields s h
  obtain ⟨sources, -, h⟩ := bind_ok_iff.mp h
  obtain ⟨sections, hsections, h⟩ := bind_ok_iff.mp h
  obtain ⟨events, hevents, h⟩ := bind_ok_iff.mp h
  cases h
  obtain ⟨sections', hread, hwrite⟩ := Section.steady.mapM hsections
  obtain ⟨events', hread', hwrite'⟩ := Event.steady.objects hevents
  exact ⟨_, _, rfl, reread hread hread', by rw [toDocument, toDocument, hwrite, hwrite']⟩

end Screen

namespace Tool

theorem reread (t : Tool) : ofFields t.toDocument.fieldsOrEmpty =
    .ok { t with description := t.description.orElse (.str ""), eventId := t.eventId.orElse .null } := by
  have hevent : Fields.get t.toDocument.fieldsOrEmpty "eventId" = t.eventId.orElse .null := by
    rw [toDocument, Value.fieldsOrEmpty_obj, Fields.get_append, Value.orElse]
    split <;> rfl
  refine bind_ok_iff.mpr ⟨_, Value.toFields_obj _, ?_⟩
  simp only [hevent]
  simp only [toDocument, Value.fieldsOrEmpty_obj, List.cons_append, Fields.get_cons, String.reduceEq,
    if_true, if_false, Value.textOrEmpty_str]
  rfl

theorem steady : Steady Tool.ofFields Tool.toDocument := by
  intro fields t h
  obtain ⟨parameters, -, h⟩ := bind_ok_iff.mp h
  cases h
  refine ⟨_, _, rfl, reread _, ?_⟩
  simp only [toDocument, Value.orElse_orElse, Value.given_orElse]

end Tool

namespace Agent

theorem reread {a : Agent} {tools : List Tool} {screens : List Screen}
    (ht : ((a.tools.map Tool.toDocument).filterMap Value.asFields?).mapM Tool.ofFields = .ok tools)
    (hs : ((a.screens.map Screen.toDocument).filterMap Value.asFields?).mapM Screen.ofFields =
      .ok screens) :
    ofFields a.toDocument.fieldsOrEmpty =
      .ok { a with prompt := a.prompt.orElse (.str ""), tools, screens } := by
  have hh : (a.handoffs.map Value.str).map Value.text = a.handoffs :=
    (List.map_map ..).trans (List.map_id _)
  refine bind_ok_iff.mpr ⟨_, Value.objects_list _, bind_ok_iff.mpr ⟨tools, ht,
    bind_ok_iff.mpr ⟨_, Value.membersOrNone_list _, bind_ok_iff.mpr ⟨_, Value.objects_list _,
    bind_ok_iff.mpr ⟨screens, hs, bind_ok_iff.mpr ⟨_, Value.toFields_obj _, ?_⟩⟩⟩⟩⟩⟩
  simp only [toDocument, Value.fieldsOrEmpty_obj, Fields.get_cons, String.reduceEq, if_true, if_false,
    Value.textOrEmpty_str, hh]
  rfl

theorem steady : Steady Agent.ofFields Agent.toDocument := by
  intro fields a h
  obtain ⟨sources, -, h⟩ := bind_ok_iff.mp h
  obtain ⟨tools, htools, h⟩ := bind_ok_iff.mp h
  obtain ⟨handoffs, -, h⟩ := bind_ok_iff.mp h
  obtain ⟨sources', -, h⟩ := bind_ok_iff.mp h
  obtain ⟨screens, hscreens, h⟩ := bind_ok_iff.mp h
  obtain ⟨prompts, -, h⟩ := bind_ok_iff.mp h
  cases h
  obtain ⟨tools', hread, hwrite⟩ := Tool.steady.mapM htools
  obtain ⟨screens', hread', hwrite'⟩ := Screen.steady.mapM hscreens
  refine ⟨_, _, rfl, reread hread hread', ?_⟩
  simp only [toDocument, hwrite, hwrite', Value.orElse_orElse]

end Agent

theorem Binary64.layout_ne_nil (d : Digits) : layout d ≠ [] := by
  unfold layout
  dsimp only
  split
  · split
    · simp
    · split
      · simp
      · simp
  · simp

theorem Binary64.text_ne_empty (x : Binary64) : x.text ≠ "" := by
  cases x with
  | nan => decide
  | infinite n => cases n <;> decide
  | finite n m e =>
      have hbody : (if m = 0 then ['0', '.', '0'] else layout (shortest m e)) ≠ [] := by
        split
        · simp
        · exact layout_ne_nil _
      cases n with
      | false => simpa [text] using hbody
      | true => simp [text]

/-- A value that counts as given has a text. -/
theorem Value.text_ne_empty {v : Value} (h : v.truthy = true) : v.text ≠ "" := by
  cases v with
  | null => cases h
  | bool b =>
      cases h
      decide
  | int n =>
      cases n with
      | ofNat m => exact Nat.repr_ne_empty
      | negSucc m =>
          change "-" ++ Nat.repr (m + 1) ≠ ""
          simp
  | num x => exact x.text_ne_empty
  | str s => simpa [truthy, text] using h
  | list xs => simp [text, literal]
  | obj fs => simp [text, literal]
  | date d => simp [text, Date.text, toString]
  | moment t => simp [text, Moment.textWith, toString]

theorem Json.hasDate_get {fields : Fields} (h : anyFieldHasDate fields = false) (key : String) :
    hasDate (Fields.get fields key) = false := by
  induction fields with
  | nil => rfl
  | cons f fields ih =>
      obtain ⟨hf, hfields⟩ := Bool.or_eq_false_iff.mp h
      rw [Fields.get_cons]
      split
      · exact hf
      · exact ih hfields

theorem Json.hasDate_fields {v : Value} {fields : Fields} (h : hasDate v = false)
    (hv : v.asFields? = some fields) : anyFieldHasDate fields = false := by
  cases v with
  | obj fs =>
      cases hv
      exact h
  | _ => cases hv

namespace Journey

theorem momentDocument_reread {t : Option Moment} (h : ∀ u, t = some u → u.Readable) :
    (momentDocument t).toMoment? = t := by
  cases t with
  | none => rfl
  | some u => exact Value.toMoment?_text (h u rfl)

theorem reread {j : Journey} {agents : List Agent}
    (ha : ((j.agents.map Agent.toDocument).filterMap Value.asFields?).mapM Agent.ofFields = .ok agents)
    (hversion : j.version ≠ "") (hcreated : ∀ t, j.createdAt = some t → t.Readable)
    (hupdated : ∀ t, j.updatedAt = some t → t.Readable) :
    ofFields j.toDocument.fieldsOrEmpty = .ok { j with
      description := j.description.orElse (.str "")
      systemPrompt := j.systemPrompt.orElse (.str "")
      agents } := by
  refine bind_ok_iff.mpr ⟨_, Value.objects_list _, bind_ok_iff.mpr ⟨agents, ha, ?_⟩⟩
  have hgiven : ((Value.str j.version).orElse (.str "1.0.0")).text = j.version := by
    rw [Value.orElse, if_pos (by simp [Value.truthy, hversion])]
    rfl
  have hid : Fields.get j.toDocument.fieldsOrEmpty "_id" = .null := rfl
  simp only [hid]
  simp only [toDocument, Value.fieldsOrEmpty_obj, Fields.get_cons, Fields.find?_cons, String.reduceEq,
    if_true, if_false, Value.textOrEmpty_str, Value.textOrEmpty_orElse, hgiven,
    momentDocument_reread hcreated, momentDocument_reread hupdated]
  rfl

theorem created_readable {v : Value} (h : Json.hasDate v = false) {t : Moment}
    (ht : v.toMoment? = some t) : t.Readable := by
  refine Value.toMoment?_readable (fun u hu => ?_) ht
  rw [hu] at h
  cases h

theorem ofFields_toDocument {fields : Fields} {j : Journey} (hd : Json.anyFieldHasDate fields = false)
    (h : ofFields fields = .ok j) :
    ∃ j', ofFields j.toDocument.fieldsOrEmpty = .ok j' ∧ j'.toDocument = j.toDocument := by
  obtain ⟨sources, -, h⟩ := bind_ok_iff.mp h
  obtain ⟨agents, hagents, h⟩ := bind_ok_iff.mp h
  cases h
  obtain ⟨agents', hread, hwrite⟩ := Agent.steady.mapM hagents
  have hversion : ((Fields.get fields "version").orElse (.str "1.0.0")).text ≠ "" := by
    refine Value.text_ne_empty ?_
    unfold Value.orElse
    split
    · assumption
    · rfl
  refine ⟨_, reread hread hversion (fun t ht => created_readable (Json.hasDate_get hd _) ht)
    (fun t ht => created_readable (Json.hasDate_get hd _) ht), ?_⟩
  simp only [toDocument, hwrite, Value.orElse_orElse]

theorem ofDocument_fields {d : Value} {j : Journey} (hd : Json.hasDate d = false)
    (h : ofDocument d = .ok j) :
    ∃ fields, Json.anyFieldHasDate fields = false ∧ ofFields fields = .ok j := by
  unfold ofDocument at h
  split at h
  · rename_i fields
    have hfields : Json.anyFieldHasDate fields = false := hd
    refine ⟨_, ?_, h⟩
    cases hj : (Fields.get fields "journey").asFields? with
    | none => exact hfields
    | some inner => exact Json.hasDate_fields (Json.hasDate_get hfields _) hj
  · cases h

/-- A journey that was read from a document, which may be wrapped or is taken as it stands, is written
as an object, never wrapped, from which is read in either way what is written the same. -/
theorem toDocument_reread {d : Value} {j : Journey} (hd : Json.hasDate d = false)
    (h : ofDocument d = .ok j ∨ ∃ fields, d = .obj fields ∧ ofFields fields = .ok j) :
    ∃ fields' j', j.toDocument = .obj fields' ∧ ofFields fields' = .ok j' ∧
      ofDocument j.toDocument = .ok j' ∧ j'.toDocument = j.toDocument := by
  have hfields : ∃ fields, Json.anyFieldHasDate fields = false ∧ ofFields fields = .ok j := by
    rcases h with h | ⟨fields, rfl, h⟩
    · exact ofDocument_fields hd h
    · exact ⟨fields, hd, h⟩
  obtain ⟨fields, hfields, h⟩ := hfields
  obtain ⟨j', hread, hwrite⟩ := ofFields_toDocument hfields h
  exact ⟨_, j', rfl, hread, hread, hwrite⟩

end Journey

def Tour.brochure : Value :=
  let fly : Value := .obj [("type", .str "fly"), ("to", .str "roof")]
  let ask : Value := .obj [("type", .str "serviceCall"), ("name", .str "guidebook"),
    ("responseMapping", .obj [("stateKey", .str "page")]), ("onSuccess", .list [fly, .int 3])]
  let hall : Value := .obj [("id", .str "hall"),
    ("events", .list [.obj [("id", .str "ask"), ("actions", .list [ask])]])]
  .obj [("journey", .obj [("_id", .int 7), ("createdAt", .str "2024-05-01T10:30:00Z"),
    ("agents", .list [.null, .obj [("id", .str "guide"), ("screens", .list [hall])]])])]

theorem Journey.toDocument_reread_brochure : ∃ j, Json.hasDate Tour.brochure = false ∧
    ofDocument Tour.brochure = .ok j ∧ ∃ fields' j', j.toDocument = .obj fields' ∧
      ofFields fields' = .ok j' ∧ ofDocument j.toDocument = .ok j' ∧
      j'.toDocument = j.toDocument := by
  have hread : ∃ j, ofDocument Tour.brochure = .ok j := ⟨_, rfl⟩
  obtain ⟨j, hj⟩ := hread
  exact ⟨j, rfl, hj, toDocument_reread rfl (.inl hj)⟩

end GuidedJourney
