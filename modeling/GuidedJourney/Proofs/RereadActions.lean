import GuidedJourney.Proofs.DataFaults
import GuidedJourney.Proofs.FieldUpdate

namespace GuidedJourney

theorem Fields.get_cons (f : String × Value) (rest : Fields) (key : String) :
    get (f :: rest) key = if key = f.1 then f.2 else get rest key := by
  rw [get, find?_cons]
  split <;> rfl

/-- Whatever is read is written as an object, from which is read what is written the same. -/
def Steady {α : Type} (read : Fields → Except Fault α) (write : α → Value) : Prop :=
  ∀ fields x, read fields = .ok x → ∃ fields' x', write x = .obj fields' ∧ read fields' = .ok x' ∧
    write x' = write x

theorem Steady.mapM {α : Type} {read : Fields → Except Fault α} {write : α → Value}
    (h : Steady read write) {sources : List Fields} {xs : List α} (hxs : sources.mapM read = .ok xs) :
    ∃ xs', ((xs.map write).filterMap Value.asFields?).mapM read = .ok xs' ∧
      xs'.map write = xs.map write := by
  induction sources generalizing xs with
  | nil =>
      cases hxs
      exact ⟨[], rfl, rfl⟩
  | cons fields sources ih =>
      rw [List.mapM_cons] at hxs
      obtain ⟨x, hx, hxs⟩ := bind_ok_iff.mp hxs
      obtain ⟨rest, hrest, hxs⟩ := bind_ok_iff.mp hxs
      cases hxs
      obtain ⟨fields', x', hwrite, hread, hx'⟩ := h fields x hx
      obtain ⟨rest', hread', hrest'⟩ := ih hrest
      refine ⟨x' :: rest', ?_, by rw [List.map_cons, List.map_cons, hx', hrest']⟩
      rw [List.map_cons, hwrite]
      change (fields' :: (rest.map write).filterMap Value.asFields?).mapM read = _
      rw [List.mapM_cons, hread, hread']
      rfl

theorem Value.membersOrNone_list (xs : List Value) : (Value.list xs).membersOrNone = .ok xs := by
  cases xs <;> rfl

theorem Value.objects_list (xs : List Value) :
    (Value.list xs).objects = .ok (xs.filterMap asFields?) := by
  rw [objects, membersOrNone_list]
  rfl

theorem Steady.objects {α : Type} {read : Fields → Except Fault α} {write : α → Value}
    (h : Steady read write) {v : Value} {xs : List α}
    (hxs : (v.objects >>= fun sources => sources.mapM read) = .ok xs) :
    ∃ xs', ((Value.list (xs.map write)).objects >>= fun sources => sources.mapM read) = .ok xs' ∧
      xs'.map write = xs.map write := by
  obtain ⟨sources, -, hxs⟩ := bind_ok_iff.mp hxs
  rw [Value.objects_list]
  exact h.mapM hxs

namespace Condition

theorem toDocument_fields (cs : List Condition) :
    ((cs.map toDocument).filterMap Value.asFields?).map ofFields = cs := by
  induction cs with
  | nil => rfl
  | cons c cs ih =>
      change ofFields [("rules", c.rule), ("state", .obj c.patch)] :: _ = _
      rw [ih]
      rfl

theorem listOfValue_toDocument (cs : List Condition) :
    listOfValue (.list (cs.map toDocument)) = .ok cs := by
  rw [listOfValue, Value.objects_list]
  exact congrArg _ (toDocument_fields cs)

end Condition

theorem Scope.ofValue_tag (s default : Scope) : ofValue (.str s.tag) default = s := by
  cases s <;> rfl

theorem ResponseMapping.ofValue?_key {v : Value} {m : ResponseMapping} (h : ofValue? v = some m) :
    m.key.truthy = true := by
  unfold ofValue? at h
  split at h
  · dsimp only at h
    split at h
    · cases h
      assumption
    · cases h
  · cases h

theorem ResponseMapping.ofValue?_toDocument {m : ResponseMapping} (h : m.key.truthy = true) :
    ofValue? m.toDocument = some m := by
  have hkey : Fields.get [("stateKey", m.key), ("scope", .str m.scope.tag)] "stateKey" = m.key := rfl
  have hscope : Fields.get [("stateKey", m.key), ("scope", .str m.scope.tag)] "scope" =
    .str m.scope.tag := rfl
  simp only [ofValue?, toDocument, hkey, hscope, h, if_true, Scope.ofValue_tag]

namespace Value

@[simp] theorem textOrEmpty_str (s : String) : (Value.str s).textOrEmpty = s := by
  unfold textOrEmpty
  split
  · rfl
  · rename_i h
    have hs : s = "" := by simpa [truthy] using h
    exact hs.symm

theorem textOrEmpty_orElse (v : Value) : (v.orElse .null).textOrEmpty = v.textOrEmpty := by
  unfold orElse
  split
  · rfl
  · rename_i h
    exact (if_neg h).symm

@[simp] theorem fieldsOrEmpty_obj (fields : Fields) : (Value.obj fields).fieldsOrEmpty = fields := rfl

end Value

namespace Action

theorem find?_header (a : Action) (rest : Fields) {key : String} (ht : key ≠ "type")
    (hc : key ≠ "conditions") : Fields.find? (a.header ++ rest) key = Fields.find? rest key := by
  rw [header, List.cons_append, Fields.find?_cons, if_neg ht]
  split
  · rfl
  · exact (Fields.find?_cons _ _ _).trans (if_neg hc)

theorem get_header (a : Action) (rest : Fields) {key : String} (ht : key ≠ "type")
    (hc : key ≠ "conditions") : Fields.get (a.header ++ rest) key = Fields.get rest key :=
  congrArg (fun v => v.getD .null) (find?_header a rest ht hc)

theorem get_header_type (a : Action) (rest : Fields) :
    Fields.get (a.header ++ rest) "type" = .str a.kindTag := rfl

theorem header_conditions (a : Action) (rest : Fields) (h : Fields.find? rest "conditions" = none) :
    Condition.listOfValue (Fields.get (a.header ++ rest) "conditions") = .ok a.conditions := by
  have hne : "conditions" ≠ "type" := by decide
  rw [header, List.cons_append, Fields.get_cons, if_neg hne]
  split
  · rename_i hempty
    rw [List.nil_append, Fields.get, h, List.isEmpty_iff.mp hempty]
    rfl
  · exact Condition.listOfValue_toDocument _

theorem branchesOf_get (fields : Fields) {key : String} (h : key = "onSuccess" ∨ key = "onError") :
    (branchesOf fields).get key = listOfValue (Fields.get fields key) := by
  induction fields with
  | nil => rfl
  | cons f rest ih =>
      obtain ⟨k, v⟩ := f
      rw [branchesOf, Fields.get_cons]
      split
      · rw [Branches.get, Fields.lookup_cons]
        split
        · rfl
        · exact ih
      · rename_i hk
        have hne : key ≠ k := fun he => hk (he ▸ h)
        rw [if_neg hne, ih]

theorem navigate_reread (cs : List Condition) (deeplink : String) :
    ofValue (navigate cs deeplink).toDocument = .ok (.navigate cs deeplink) := by
  have hc := header_conditions (.navigate cs deeplink) [("deeplink", .str deeplink)] rfl
  rw [toDocument, ofValue, assemble]
  simp (disch := decide) only [hc, get_header_type, kindTag, get_header, Fields.get_cons, if_true,
    Value.textOrEmpty_str]
  rfl

theorem update_reread (cs : List Condition) (scope : Scope) (updates : Fields) :
    ofValue (update cs scope updates).toDocument = .ok (.update cs scope updates) := by
  have hc := header_conditions (.update cs scope updates)
    [("scope", .str scope.tag), ("updates", .obj updates)] rfl
  rw [toDocument, ofValue, assemble]
  simp (disch := decide) only [hc, get_header_type, kindTag, get_header, Fields.get_cons, if_true,
    Scope.ofValue_tag, String.reduceEq, if_false, Value.fieldsOrEmpty_obj]
  rfl

theorem close_reread (cs : List Condition) (flowCompleted : Bool) (parameters : Fields) :
    ofValue (close cs flowCompleted parameters).toDocument =
      .ok (.close cs flowCompleted parameters) := by
  have hc := header_conditions (.close cs flowCompleted parameters)
    [("flowCompleted", .bool flowCompleted), ("parameters", .obj parameters)] rfl
  rw [toDocument, ofValue, assemble]
  simp (disch := decide) only [hc, get_header_type, kindTag, get_header, find?_header,
    Fields.get_cons, Fields.find?_cons, if_true, String.reduceEq, if_false, Value.fieldsOrEmpty_obj]
  rfl

theorem tool_reread (cs : List Condition) (name : String) (parameters : Fields) :
    ofValue (tool cs name parameters).toDocument = .ok (.tool cs name parameters) := by
  have hc := header_conditions (.tool cs name parameters)
    [("tool", .str name), ("params", .obj parameters)] rfl
  rw [toDocument, ofValue, assemble]
  simp (disch := decide) only [hc, get_header_type, kindTag, get_header, Fields.get_cons, if_true,
    String.reduceEq, if_false, Value.fieldsOrEmpty_obj, Value.textOrEmpty_str]
  rfl

def Rereads (a : Action) : Prop := ∃ a', ofValue a.toDocument = .ok a' ∧ a'.toDocument = a.toDocument

theorem Rereads.all {as : List Action} (h : ∀ a ∈ as, a.Rereads) :
    ∃ as', ofItems (toDocuments as) = .ok as' ∧ toDocuments as' = toDocuments as := by
  induction as with
  | nil => exact ⟨[], rfl, rfl⟩
  | cons a as ih =>
      rw [List.forall_mem_cons] at h
      obtain ⟨a', hread, hwrite⟩ := h.1
      obtain ⟨as', hreads, hwrites⟩ := ih h.2
      refine ⟨a' :: as', ?_, by rw [toDocuments, toDocuments, hwrite, hwrites]⟩
      rw [toDocuments, ofItems, hread, hreads]
      rfl

def callFields (target : ServiceTarget) (onSuccess onError : List Action) : Fields :=
  [("serviceName", .str target.serviceName), ("functionName", target.functionName),
    ("parameters", .obj target.parameters), ("onSuccess", .list (toDocuments onSuccess)),
    ("onError", .list (toDocuments onError))] ++
    (target.mapping.map fun m => ("responseMapping", m.toDocument)).toList

theorem call_toDocument (cs : List Condition) (target : ServiceTarget) (onSuccess onError : List Action) :
    (call cs target onSuccess onError).toDocument =
      .obj (header (.call cs target [] []) ++ callFields target onSuccess onError) := by
  rw [toDocument, List.append_assoc]
  rfl

theorem callFields_mapping {target : ServiceTarget} {onSuccess onError : List Action}
    (h : ∀ m, target.mapping = some m → m.key.truthy = true) :
    ResponseMapping.ofValue? (Fields.get (callFields target onSuccess onError) "responseMapping") =
      target.mapping := by
  unfold callFields
  cases hm : target.mapping with
  | none => rfl
  | some m => exact ResponseMapping.ofValue?_toDocument (h m hm)

theorem callFields_find?_none {target : ServiceTarget} {onSuccess onError : List Action} {key : String}
    (h : key ∉ ["serviceName", "functionName", "parameters", "onSuccess", "onError", "responseMapping"]) :
    Fields.find? (callFields target onSuccess onError) key = none := by
  simp only [List.mem_cons, not_or] at h
  cases hm : target.mapping with
  | none => simp [callFields, hm, h, Fields.find?]
  | some m => simp [callFields, hm, h, Fields.find?]

theorem call_rereads {cs : List Condition} {target : ServiceTarget} {onSuccess onError : List Action}
    (hs : ∀ a ∈ onSuccess, a.Rereads) (he : ∀ a ∈ onError, a.Rereads)
    (hm : ∀ m, target.mapping = some m → m.key.truthy = true) :
    (call cs target onSuccess onError).Rereads := by
  obtain ⟨onSuccess', hsread, hswrite⟩ := Rereads.all hs
  obtain ⟨onError', heread, hewrite⟩ := Rereads.all he
  refine ⟨.call cs target onSuccess' onError', ?_, by rw [toDocument, toDocument, hswrite, hewrite]⟩
  have hc := header_conditions (.call cs target [] []) (callFields target onSuccess onError)
    (callFields_find?_none (by decide))
  have hname : Fields.get (callFields target onSuccess onError) "name" = .null := by
    rw [Fields.get, callFields_find?_none (by decide)]
    rfl
  have hservice : Fields.get (callFields target onSuccess onError) "serviceName" =
    .str target.serviceName := rfl
  have hfunction : Fields.get (callFields target onSuccess onError) "functionName" =
    target.functionName := rfl
  have hparameters : Fields.get (callFields target onSuccess onError) "parameters" =
    .obj target.parameters := rfl
  have hsuccess : listOfValue (Fields.get (callFields target onSuccess onError) "onSuccess") =
    .ok onSuccess' := hsread
  have herror : listOfValue (Fields.get (callFields target onSuccess onError) "onError") =
    .ok onError' := heread
  rw [call_toDocument, ofValue, assemble]
  simp (disch := decide) only [hc, get_header_type, kindTag, get_header, hname, hservice, hfunction,
    hparameters, callFields_mapping hm, branchesOf_get, hsuccess, herror, Value.fieldsOrEmpty_obj,
    Value.textOrEmpty_orElse, Value.textOrEmpty_str]
  rfl

/-- One case for each kind of action: all but calls are read again as they were. -/
theorem assemble_rereads {fields : Fields} {a : Action}
    (hb : ∀ key as, (branchesOf fields).get key = .ok as → ∀ a ∈ as, a.Rereads)
    (h : assemble fields (branchesOf fields) = .ok a) : a.Rereads := by
  have hsame : ofValue (.obj fields) = .ok a := h
  obtain ⟨cs, -, h⟩ := bind_ok_iff.mp h
  dsimp only at h
  split at h
  · cases h
    exact ⟨_, navigate_reread .., rfl⟩
  · cases h
    exact ⟨_, update_reread .., rfl⟩
  · obtain ⟨onSuccess, hs, h⟩ := bind_ok_iff.mp h
    obtain ⟨onError, he, h⟩ := bind_ok_iff.mp h
    cases h
    exact call_rereads (hb _ _ hs) (hb _ _ he) fun m hm => ResponseMapping.ofValue?_key hm
  · cases h
    exact ⟨_, close_reread .., rfl⟩
  · cases h
    exact ⟨_, tool_reread .., rfl⟩
  · cases h
    exact ⟨_, hsame, rfl⟩

mutual

theorem ofValue_rereads : ∀ (v : Value) (a : Action), ofValue v = .ok a → a.Rereads
  | .obj fields, a, h => assemble_rereads (branchesOf_rereads fields) h
  | .null, a, h | .bool _, a, h | .int _, a, h | .num _, a, h | .str _, a, h | .list _, a, h
  | .date _, a, h | .moment _, a, h => by
      cases h
      exact ⟨_, rfl, rfl⟩

theorem listOfValue_rereads : ∀ (v : Value) (as : List Action), listOfValue v = .ok as →
    ∀ a ∈ as, a.Rereads
  | .list xs, as, h => ofItems_rereads xs as h
  | .null, as, h | .bool _, as, h | .int _, as, h | .num _, as, h | .str _, as, h | .obj _, as, h
  | .date _, as, h | .moment _, as, h => by
      cases h
      exact fun _ => nofun

theorem ofItems_rereads : ∀ (xs : List Value) (as : List Action), ofItems xs = .ok as →
    ∀ a ∈ as, a.Rereads
  | [], as, h => by
      cases h
      exact fun _ => nofun
  | x :: xs, as, h => by
      rw [ofItems] at h
      obtain ⟨a, ha, h⟩ := bind_ok_iff.mp h
      obtain ⟨rest, hrest, h⟩ := bind_ok_iff.mp h
      cases h
      exact List.forall_mem_cons.mpr ⟨ofValue_rereads x a ha, ofItems_rereads xs rest hrest⟩

theorem branchesOf_rereads : ∀ (fields : List (String × Value)) (key : String) (as : List Action),
    (branchesOf fields).get key = .ok as → ∀ a ∈ as, a.Rereads
  | [], key, as, h => by
      cases h
      exact fun _ => nofun
  | (k, v) :: fields, key, as, h => by
      rw [branchesOf] at h
      split at h
      · rw [Branches.get, Fields.lookup_cons] at h
        split at h
        · exact listOfValue_rereads v as h
        · exact branchesOf_rereads fields key as h
      · exact branchesOf_rereads fields key as h

end

theorem listOfValue_reread {v : Value} {as : List Action} (h : listOfValue v = .ok as) :
    ∃ as', listOfValue (.list (toDocuments as)) = .ok as' ∧ toDocuments as' = toDocuments as :=
  Rereads.all (listOfValue_rereads v as h)

end Action

end GuidedJourney
