import GuidedJourney.Proofs.DataFaults
import GuidedJourney.Proofs.FieldUpdate
import GuidedJourney.Storage.Folder

namespace GuidedJourney

/-- A document whose key `journey` stands for something else than a journey. -/
def Value.Miswrapped (v : Value) : Prop :=
  ∃ w, Fields.find? v.fieldsOrEmpty "journey" = some w ∧ w.asFields? = none

theorem Value.printed_ok {v : Value} {s : String} (h : v.printed = .ok s) : s = v.text := by
  obtain ⟨-, -, hs⟩ := bind_ok_iff.mp h
  exact (Except.ok.inj hs).symm

namespace Folder

variable {yaml : String → Except Fault Value} {folder : Folder} {names : List String}
  {ids : FileIndex} {name id : String} {v : Value}

/-- A file claims the id in its document, or its own name if there is none. -/
def Claims (yaml : String → Except Fault Value) (folder : Folder) (name id : String) : Prop :=
  ∃ v, folder.document yaml name = .ok v ∧ idOf name v = .ok id

def enter (yaml : String → Except Fault Value) (folder : Folder) (ids : FileIndex) (name : String) :
    Except LoadError FileIndex := do
  return Fields.put (← idOf name (← folder.document yaml name)) name ids

theorem idOf_error {e : LoadError} (h : idOf name v = .error e) :
    ∃ f, (documentId v).printed = .error f ∧ e = .fault f := by
  unfold idOf at h
  dsimp only at h
  split at h
  · cases hid : (documentId v).printed with
    | ok id =>
        rw [hid] at h
        cases h
    | error f =>
        rw [hid] at h
        exact ⟨f, rfl, (Except.error.inj h).symm⟩
  · cases h

/-- Ids that some of the files claim, each with such a file, and all that they claim. -/
structure Indexed (yaml : String → Except Fault Value) (folder : Folder) (names : List String)
    (ids : FileIndex) : Prop where
  claimed : ∀ {id name}, ids.lookup id = some name → name ∈ names ∧ folder.Claims yaml name id
  found : ∀ {name id}, name ∈ names → folder.Claims yaml name id → ∃ other, ids.lookup id = some other
  named : ∀ name ∈ names, ∃ id, folder.Claims yaml name id

theorem Indexed.enter (h : folder.Indexed yaml names ids) (hv : folder.document yaml name = .ok v)
    (hid : idOf name v = .ok id) : folder.Indexed yaml (names ++ [name]) (Fields.put id name ids) where
  claimed {key other} hlookup := by
    rw [Fields.lookup_put] at hlookup
    split at hlookup
    · rename_i hkey
      obtain rfl := Option.some.inj hlookup
      exact ⟨List.mem_append_right _ (List.mem_singleton_self _), v, hv, hkey ▸ hid⟩
    · obtain ⟨hmem, hclaims⟩ := h.claimed hlookup
      exact ⟨List.mem_append_left _ hmem, hclaims⟩
  found {other key} hmem hclaims := by
    rw [Fields.lookup_put]
    split
    · exact ⟨name, rfl⟩
    · rename_i hkey
      rcases List.mem_append.mp hmem with hmem | hmem
      · exact h.found hmem hclaims
      · obtain rfl := List.mem_singleton.mp hmem
        obtain ⟨w, hw, hclaimed⟩ := hclaims
        obtain rfl := Except.ok.inj (hv.symm.trans hw)
        exact absurd (Except.ok.inj (hclaimed.symm.trans hid)) hkey
  named := by
    rw [List.forall_mem_append, List.forall_mem_singleton]
    exact ⟨h.named, id, v, hv, hid⟩

theorem foldlM_indexed (h : ∀ name ∈ names, ∃ v, folder.document yaml name = .ok v) :
    (∃ name ∈ names, ∃ v f, folder.document yaml name = .ok v ∧ (documentId v).printed = .error f ∧
      names.foldlM (folder.enter yaml) [] = .error (.fault f)) ∨
    ∃ ids, names.foldlM (folder.enter yaml) [] = .ok ids ∧ folder.Indexed yaml names ids := by
  induction names using List.reverseRecOn with
  | nil =>
      refine .inr ⟨[], rfl, ?_, ?_, ?_⟩
      · rintro id name ⟨⟩
      · rintro name id ⟨⟩
      · rintro name ⟨⟩
  | append_singleton names name ih =>
      rw [List.forall_mem_append, List.forall_mem_singleton] at h
      obtain ⟨v, hv⟩ := h.2
      rw [List.foldlM_append]
      rcases ih h.1 with ⟨other, hother, w, f, hw, hf, hfails⟩ | ⟨ids, hids, hindexed⟩
      · refine .inl ⟨other, List.mem_append_left _ hother, w, f, hw, hf, ?_⟩
        rw [hfails]
        rfl
      · have henter : folder.enter yaml ids name = (idOf name v).map (Fields.put · name ids) := by
          rw [enter, hv]
          rfl
        rw [hids]
        simp only [bind, Except.bind, List.foldlM_cons, List.foldlM_nil, henter]
        cases hid : idOf name v with
        | error e =>
            obtain ⟨f, hf, rfl⟩ := idOf_error hid
            exact .inl ⟨name, by simp, v, f, hv, hf, rfl⟩
        | ok id => exact .inr ⟨_, rfl, hindexed.enter hv hid⟩

/-- If all files can be read, the index is missing only where an id cannot be written. -/
theorem index_indexed {screensFile : Option String}
    (h : ∀ name ∈ folder.journeyFiles screensFile, ∃ v, folder.document yaml name = .ok v) :
    (∃ name ∈ folder.journeyFiles screensFile, ∃ v f, folder.document yaml name = .ok v ∧
      (documentId v).printed = .error f ∧ folder.index yaml screensFile = .error (.fault f)) ∨
    ∃ ids, folder.index yaml screensFile = .ok ids ∧
      folder.Indexed yaml (folder.journeyFiles screensFile) ids :=
  foldlM_indexed h

end Folder

theorem Folder.body_eq {fields : Fields} (h : ¬ (Value.obj fields).Miswrapped) :
    ((Fields.find? fields "journey").getD (.obj fields)).fieldsOrEmpty =
      (Fields.get fields "journey").asFields?.getD fields := by
  unfold Fields.get
  cases hfind : Fields.find? fields "journey" with
  | none => rfl
  | some w =>
      cases hw : w.asFields? with
      | none => exact absurd ⟨w, hfind, hw⟩ h
      | some inner => simp [Value.fieldsOrEmpty, hw]

theorem Journey.ofFields_id {fields : Fields} {j : Journey} (h : ofFields fields = .ok j) :
    j.id = ((Fields.get fields "id").orElse (Fields.get fields "_id")).textOrEmpty := by
  obtain ⟨objects, -, h⟩ := bind_ok_iff.mp h
  obtain ⟨agents, -, h⟩ := bind_ok_iff.mp h
  rw [← Except.ok.inj h]

theorem Journey.ofDocument_id {v : Value} {j : Journey} (hwrap : ¬ v.Miswrapped)
    (h : ofDocument v = .ok j) : j.id = (Folder.documentId v).textOrEmpty := by
  cases v with
  | obj fields =>
      rw [ofFields_id h, ← Folder.body_eq hwrap]
      rfl
  | _ => cases h

namespace Folder

variable {yaml : String → Except Fault Value} {folder : Folder} {name id : String} {v : Value}
  {j : Journey}

theorem idOf_miswrapped (h : v.Miswrapped) (name : String) :
    idOf name v = .ok (FileName.stem name) := by
  obtain ⟨w, hfind, hw⟩ := h
  have hid : documentId v = .null := by
    cases v with
    | obj fields =>
        change Fields.find? fields "journey" = some w at hfind
        rw [documentId, hfind, Option.getD_some, Value.fieldsOrEmpty, hw]
        rfl
    | _ => cases hfind
  rw [idOf, hid]
  rfl

theorem idOf_eq_id (hwrap : ¬ v.Miswrapped) (h : Journey.ofDocument v = .ok j) (hid : j.id ≠ "")
    (hok : idOf name v = .ok id) : id = j.id := by
  rw [Journey.ofDocument_id hwrap h, Value.textOrEmpty] at hid ⊢
  unfold idOf at hok
  dsimp only at hok
  split at hok
  · rename_i htruthy
    rw [if_pos htruthy]
    cases hprinted : (documentId v).printed with
    | error f =>
        rw [hprinted] at hok
        cases hok
    | ok s =>
        rw [hprinted] at hok
        exact (Except.ok.inj hok).symm.trans (Value.printed_ok hprinted)
  · rename_i htruthy
    rw [if_neg htruthy] at hid
    exact absurd rfl hid

/-- A journey without an id of its own takes the one it is asked for under. -/
theorem journey_ok_iff : folder.journey yaml id name = .ok j ↔
    ∃ v j', folder.document yaml name = .ok v ∧
    Journey.ofDocument v = .ok j' ∧ j = if j'.id.isEmpty then { j' with id } else j' := by
  rw [journey, bind_ok_iff]
  refine exists_congr fun v => ?_
  cases Journey.ofDocument v with
  | error f =>
      refine iff_of_false ?_ (by simp)
      rintro ⟨-, ⟨⟩⟩
  | ok j' =>
      constructor
      · rintro ⟨hv, h⟩
        exact ⟨j', hv, rfl, (Except.ok.inj h).symm⟩
      · rintro ⟨j', hv, h, rfl⟩
        obtain rfl := Except.ok.inj h
        exact ⟨hv, rfl⟩

end Folder

namespace Librarian

variable {yaml : String → Except Fault Value} {folder : Folder} {l : Librarian} {ids : FileIndex}
  {id : String} {j : Journey}

/-- What the librarian knows is true of the folder. -/
def Current (yaml : String → Except Fault Value) (folder : Folder) (l : Librarian) : Prop :=
  ∀ ids, l.known = some ids → folder.index yaml l.screensFile = .ok ids

theorem Current.index (h : l.Current yaml folder) :
    l.index yaml folder = folder.index yaml l.screensFile := by
  unfold Librarian.index
  split
  · rename_i ids hknown
    exact (h ids hknown).symm
  · rfl

theorem learn_index (h : l.index yaml folder = .ok ids) :
    (l.learn yaml folder).index yaml folder = .ok ids := by
  rw [learn, h]
  rfl

theorem load_ok_iff (h : l.index yaml folder = .ok ids) : l.load yaml folder id = .ok j ↔
    ∃ name, ids.lookup id = some name ∧ folder.journey yaml id name = .ok j := by
  rw [load, bind_ok_iff]
  constructor
  · rintro ⟨ids', hids', hj⟩
    obtain rfl := Except.ok.inj (h.symm.trans hids')
    split at hj
    · cases hj
    · rename_i name hlookup
      exact ⟨name, hlookup, hj⟩
  · rintro ⟨name, hlookup, hj⟩
    refine ⟨ids, h, ?_⟩
    rw [hlookup]
    exact hj

/-- However YAML is read, a journey that is loaded under an id that is listed has that id. Only a document
that is not wrapped as it should be is listed under the name of its file, whatever the id of its journey.
From any other document, a journey with an id of its own is listed under it, and loaded if no other file
claims the id. Nothing is listed if the id in some document cannot be written as a text. -/
theorem load_listed (hcurrent : l.Current yaml folder)
    (hdocs : ∀ name ∈ folder.journeyFiles l.screensFile, ∃ v, folder.document yaml name = .ok v) :
    (∃ name ∈ folder.journeyFiles l.screensFile, ∃ v f, folder.document yaml name = .ok v ∧
      (Folder.documentId v).printed = .error f ∧ l.journeyIds yaml folder = .error (.fault f)) ∨
    ∃ listed, l.journeyIds yaml folder = .ok listed ∧
      (∀ id ∈ listed, ∀ j, (l.learn yaml folder).load yaml folder id = .ok j → j.id = id ∨
        ∃ name ∈ folder.journeyFiles l.screensFile, id = FileName.stem name ∧
          ∃ v, folder.document yaml name = .ok v ∧ v.Miswrapped ∧ Journey.ofDocument v = .ok j) ∧
      (∀ name ∈ folder.journeyFiles l.screensFile, ∀ v j, folder.document yaml name = .ok v →
        ¬ v.Miswrapped → Journey.ofDocument v = .ok j → j.id ≠ "" → j.id ∈ listed ∧
          ((∀ other ∈ folder.journeyFiles l.screensFile, other ≠ name →
            ¬ folder.Claims yaml other j.id) →
            (l.learn yaml folder).load yaml folder j.id = .ok j)) := by
  rcases Folder.index_indexed hdocs with ⟨name, hname, v, f, hv, hf, hindex⟩ | ⟨ids, hindex, hindexed⟩
  · rw [← hcurrent.index] at hindex
    exact .inl ⟨name, hname, v, f, hv, hf, by rw [journeyIds, hindex]; rfl⟩
  rw [← hcurrent.index] at hindex
  have hload : ∀ {id : String} {j : Journey}, (l.learn yaml folder).load yaml folder id = .ok j ↔
      ∃ name, ids.lookup id = some name ∧ folder.journey yaml id name = .ok j :=
    load_ok_iff (learn_index hindex)
  refine .inr ⟨ids.map Prod.fst, by rw [journeyIds, hindex]; rfl, ?_, ?_⟩
  · intro id _ j hj
    obtain ⟨name, hlookup, hjourney⟩ := hload.mp hj
    obtain ⟨hname, v, hv, hclaimed⟩ := hindexed.claimed hlookup
    obtain ⟨v', j', hv', hread, rfl⟩ := Folder.journey_ok_iff.mp hjourney
    obtain rfl := Except.ok.inj (hv.symm.trans hv')
    split
    · exact .inl rfl
    · rename_i hid
      by_cases hwrap : v.Miswrapped
      · rw [Folder.idOf_miswrapped hwrap name] at hclaimed
        exact .inr ⟨name, hname, (Except.ok.inj hclaimed).symm, v, hv, hwrap, hread⟩
      · exact .inl (Folder.idOf_eq_id hwrap hread (by simpa using hid) hclaimed).symm
  · intro name hname v j hv hwrap hread hid
    obtain ⟨id, v', hv', hclaimed⟩ := hindexed.named name hname
    obtain rfl := Except.ok.inj (hv.symm.trans hv')
    obtain rfl := Folder.idOf_eq_id hwrap hread hid hclaimed
    obtain ⟨found, hlookup⟩ := hindexed.found hname ⟨v, hv, hclaimed⟩
    refine ⟨List.mem_map_of_mem (Fields.mem_of_lookup hlookup), fun hothers => ?_⟩
    obtain ⟨hfound, hclaims'⟩ := hindexed.claimed hlookup
    obtain rfl : found = name := Decidable.byContradiction fun hne => hothers _ hfound hne hclaims'
    refine hload.mpr ⟨_, hlookup, Folder.journey_ok_iff.mpr ⟨v, j, hv, hread, ?_⟩⟩
    rw [if_neg (by simpa using hid)]

def shelf : Folder := [
  ("b.json", "\x7b\"journey\": \x7b\"_id\": 7\x7d\x7d"),
  ("tour.yaml", "name: Tour"),
  ("a.json", "\x7b\"id\": \"tour\"\x7d")]

def readPlain (text : String) : Except Fault Value :=
  if text = "name: Tour" then .ok (.obj [("name", .str "Tour")]) else .error (.format .unreadable)

theorem load_listed_shelf :
    let l : Librarian := {}
    let files := shelf.journeyFiles l.screensFile
    l.Current readPlain shelf ∧ (∀ name ∈ files, ∃ v, shelf.document readPlain name = .ok v) ∧
      ∃ listed, l.journeyIds readPlain shelf = .ok listed ∧ "7" ∈ listed ∧ "tour" ∈ listed ∧
        (∃ j, (l.learn readPlain shelf).load readPlain shelf "7" = .ok j ∧ j.id = "7") ∧
        ∀ j, (l.learn readPlain shelf).load readPlain shelf "tour" = .ok j → j.id = "tour" := by
  intro l files
  have hcurrent : l.Current readPlain shelf := fun _ h => by cases h
  have hfiles : ∀ {name}, name ∈ files ↔ name = "b.json" ∨ name = "tour.yaml" ∨ name = "a.json" := by
    intro name
    have hmem : name ∈ files ↔ name ∈ ["b.json", "tour.yaml", "a.json"] := List.mem_mergeSort
    simpa using hmem
  have hb : shelf.document readPlain "b.json" = .ok (.obj [("journey", .obj [("_id", .int 7)])]) := rfl
  have htour : shelf.document readPlain "tour.yaml" = .ok (.obj [("name", .str "Tour")]) := rfl
  have ha : shelf.document readPlain "a.json" = .ok (.obj [("id", .str "tour")]) := rfl
  have hall : ∀ name ∈ files, ∃ v id, shelf.document readPlain name = .ok v ∧ ¬ v.Miswrapped ∧
      Folder.idOf name v = .ok id ∧ (id = "7" → name = "b.json") := by
    intro name hname
    rcases hfiles.mp hname with rfl | rfl | rfl
    · refine ⟨_, _, hb, ?_, rfl, fun _ => rfl⟩
      rintro ⟨w, hw, hnone⟩
      obtain rfl := Option.some.inj hw
      cases hnone
    · refine ⟨_, _, htour, ?_, rfl, by decide⟩
      rintro ⟨w, ⟨⟩, -⟩
    · refine ⟨_, _, ha, ?_, rfl, by decide⟩
      rintro ⟨w, ⟨⟩, -⟩
  have hdocs : ∀ name ∈ files, ∃ v, shelf.document readPlain name = .ok v := by
    intro name hname
    obtain ⟨v, -, hv, -⟩ := hall name hname
    exact ⟨v, hv⟩
  have hwrap : ∀ name ∈ files, ∀ v, shelf.document readPlain name = .ok v → ¬ v.Miswrapped := by
    intro name hname v hv
    obtain ⟨w, -, hw, hwrap, -⟩ := hall name hname
    obtain rfl := Except.ok.inj (hw.symm.trans hv)
    exact hwrap
  rcases load_listed hcurrent hdocs with ⟨name, hname, v, f, hv, hf, -⟩ | ⟨listed, hlisted, hloaded, hfound⟩
  · rcases hfiles.mp hname with rfl | rfl | rfl
    · obtain rfl := Except.ok.inj (hb.symm.trans hv)
      cases hf
    · obtain rfl := Except.ok.inj (htour.symm.trans hv)
      cases hf
    · obtain rfl := Except.ok.inj (ha.symm.trans hv)
      cases hf
  have hbmem : "b.json" ∈ files := hfiles.mpr (.inl rfl)
  have hamem : "a.json" ∈ files := hfiles.mpr (.inr (.inr rfl))
  obtain ⟨h7, hload⟩ := hfound _ hbmem _ _ hb (hwrap _ hbmem _ hb) rfl (by decide)
  obtain ⟨hshared, -⟩ := hfound _ hamem _ _ ha (hwrap _ hamem _ ha) rfl (by decide)
  refine ⟨hcurrent, hdocs, listed, hlisted, h7, hshared, ⟨_, hload ?_, rfl⟩, fun j hj => ?_⟩
  · rintro other hother hne ⟨v, hv, hid⟩
    obtain ⟨w, id, hw, -, hown, honly⟩ := hall other hother
    obtain rfl := Except.ok.inj (hw.symm.trans hv)
    exact hne (honly (Except.ok.inj (hown.symm.trans hid)))
  · rcases hloaded "tour" hshared j hj with hid | ⟨name, hname, -, v, hv, hmis, -⟩
    · exact hid
    · exact absurd hmis (hwrap name hname v hv)

def desk : Folder := [("sheet.json", "\x7b\"journey\": 5, \"id\": \"tour\"\x7d")]

/-- The journey is listed under the name of its file only, and loaded with its own id. -/
theorem misfiled :
    (¬ ∀ (yaml : String → Except Fault Value) (folder : Folder) (listed : List String) (id : String)
      (j : Journey),
      (∀ name ∈ folder.journeyFiles (some "screens"), ∃ v, folder.document yaml name = .ok v) →
      journeyIds yaml folder {} = .ok listed → id ∈ listed →
      (learn yaml folder {}).load yaml folder id = .ok j → j.id = id) ∧
    ¬ ∀ (yaml : String → Except Fault Value) (folder : Folder) (listed : List String) (name : String)
      (v : Value) (j : Journey),
      (∀ name ∈ folder.journeyFiles (some "screens"), ∃ v, folder.document yaml name = .ok v) →
      journeyIds yaml folder {} = .ok listed → name ∈ folder.journeyFiles (some "screens") →
      folder.document yaml name = .ok v → Journey.ofDocument v = .ok j → j.id ≠ "" →
      (∀ other ∈ folder.journeyFiles (some "screens"), other ≠ name → ¬ folder.Claims yaml other j.id) →
      j.id ∈ listed := by
  have hfiles : desk.journeyFiles (some "screens") = ["sheet.json"] := List.mergeSort_singleton _
  obtain ⟨v, j, hv, hj, hid⟩ : ∃ v j, desk.document readPlain "sheet.json" = .ok v ∧
      Journey.ofDocument v = .ok j ∧ j.id = "tour" := ⟨_, _, rfl, rfl, rfl⟩
  have hdocs : ∀ name ∈ desk.journeyFiles (some "screens"), ∃ v, desk.document readPlain name = .ok v := by
    rw [hfiles, List.forall_mem_singleton]
    exact ⟨v, hv⟩
  have hindex : index readPlain desk {} = .ok [("sheet", "sheet.json")] := by
    change desk.index readPlain (some "screens") = _
    rw [Folder.index, hfiles]
    rfl
  have hlisted : journeyIds readPlain desk {} = .ok ["sheet"] := by
    rw [journeyIds, hindex]
    rfl
  refine ⟨fun h => ?_, fun h => ?_⟩
  · have hload : (learn readPlain desk {}).load readPlain desk "sheet" = .ok j := by
      refine (load_ok_iff (learn_index hindex)).mpr ⟨_, rfl, Folder.journey_ok_iff.mpr ⟨v, j, hv, hj, ?_⟩⟩
      rw [if_neg (by simp [hid])]
    have hsame := h readPlain desk _ "sheet" j hdocs hlisted (List.mem_singleton_self _) hload
    exact absurd (hid.symm.trans hsame) (by decide)
  · have hmem := h readPlain desk _ "sheet.json" v j hdocs hlisted (hfiles ▸ List.mem_singleton_self _)
      hv hj (by simp [hid]) (by rw [hfiles, List.forall_mem_singleton]; exact fun hne => absurd rfl hne)
    rw [hid] at hmem
    exact absurd hmem (by decide)

end Librarian

end GuidedJourney
