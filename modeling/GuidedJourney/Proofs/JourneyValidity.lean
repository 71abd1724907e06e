import GuidedJourney.Definition.Validation
import GuidedJourney.Proofs.DataFaults
import Mathlib.Data.List.Nodup

namespace GuidedJourney

/-- Ids by which every member can be told from the others: none is empty or stands twice. -/
structure TellApart (ids : List String) : Prop where
  given : "" ∉ ids
  once : ids.Nodup

/-- An agent that hands over to known agents only, with screens that can be told apart and tools
whose names are not blank. -/
structure Agent.Valid (known : List String) (a : Agent) : Prop where
  handoffs : ∀ id ∈ a.handoffs, id ∈ known
  screens : TellApart (a.screens.map Screen.id)
  tools : ∀ t ∈ a.tools, ∃ c ∈ t.name.toList, Text.isBlank c = false

/-- A starting agent that is not truthy counts as left out. -/
structure Journey.Valid (j : Journey) : Prop where
  name : ∃ c ∈ j.name.toList, Text.isBlank c = false
  staffed : j.agents ≠ []
  start : j.startingAgentId.truthy = true → ∃ a ∈ j.agents, j.startingAgentId = .str a.id
  ids : TellApart (j.agents.map Agent.id)
  agents : ∀ a ∈ j.agents, a.Valid (j.agents.map Agent.id)

/-- The lookups by id are inverse to the ids: each agent and each screen is what is found by its id,
at its own position, and nothing else is found. -/
structure Journey.Indexed (j : Journey) : Prop where
  agent : ∀ id a, j.agent? id = some a ↔ ∃! i : Nat, j.agents[i]? = some a ∧ a.id = id
  screen : ∀ a ∈ j.agents, ∀ id s, a.screen? id = some s ↔ ∃! k : Nat, a.screens[k]? = some s ∧ s.id = id
  position : ∀ a ∈ j.agents, ∀ id k,
    a.screenIndex? id = some k ↔ ∃ s, a.screens[k]? = some s ∧ s.id = id

section Keys

variable {α : Type} {key : α → String} {l : List α}

theorem findIdx?_key_iff (hl : (l.map key).Nodup) {id : String} {k : Nat} :
    l.findIdx? (key · == id) = some k ↔ ∃ a, l[k]? = some a ∧ key a = id := by
  rw [List.findIdx?_eq_some_iff_getElem]
  constructor
  · rintro ⟨hk, hid, -⟩
    exact ⟨l[k], List.getElem?_eq_getElem hk, by simpa using hid⟩
  · rintro ⟨a, ha, rfl⟩
    obtain ⟨hk, rfl⟩ := List.getElem?_eq_some_iff.mp ha
    refine ⟨hk, by simp, fun i hi he => ?_⟩
    have hsame : (l.map key).get ⟨i, by simp; omega⟩ = (l.map key).get ⟨k, by simpa⟩ := by
      simpa using he
    exact absurd (Fin.mk.inj (hl.get_inj_iff.mp hsame)) (Nat.ne_of_lt hi)

theorem find?_key (hl : (l.map key).Nodup) {a : α} (ha : a ∈ l) :
    l.find? (key · == key a) = some a := by
  obtain ⟨k, hk⟩ := List.mem_iff_getElem?.mp ha
  have hfound := (findIdx?_key_iff hl).mpr ⟨a, hk, rfl⟩
  rw [List.findIdx?_eq_some_iff_getElem] at hfound
  obtain ⟨hlt, -, hfirst⟩ := hfound
  rw [List.find?_eq_some_iff_getElem]
  exact ⟨by simp, k, hlt, (List.getElem?_eq_some_iff.mp hk).2, by simpa using hfirst⟩

theorem find?_key_iff (hl : (l.map key).Nodup) {id : String} {a : α} :
    l.find? (key · == id) = some a ↔ ∃! k : Nat, l[k]? = some a ∧ key a = id := by
  constructor
  · intro h
    have hid : key a = id := by simpa using List.find?_some h
    obtain ⟨k, hk⟩ := List.mem_iff_getElem?.mp (List.mem_of_find?_eq_some h)
    refine ⟨k, ⟨hk, hid⟩, fun i ⟨hi, _⟩ => ?_⟩
    have at_k := (findIdx?_key_iff hl).mpr ⟨a, hk, hid⟩
    have at_i := (findIdx?_key_iff hl).mpr ⟨a, hi, hid⟩
    exact Option.some.inj (at_i.symm.trans at_k)
  · rintro ⟨k, ⟨hk, rfl⟩, -⟩
    exact find?_key hl (List.mem_of_getElem? hk)

end Keys

theorem isBlankText_eq_false_iff {s : String} :
    Text.isBlankText s = false ↔ ∃ c ∈ s.toList, Text.isBlank c = false := by
  simp [Text.isBlankText]

namespace TellApart

variable {id : String} {ids : List String}

theorem nil : TellApart [] := ⟨List.not_mem_nil, List.nodup_nil⟩

theorem cons_iff : TellApart (id :: ids) ↔ id ≠ "" ∧ id ∉ ids ∧ TellApart ids := by
  constructor
  · rintro ⟨hgiven, honce⟩
    obtain ⟨hid, honce⟩ := List.nodup_cons.mp honce
    exact ⟨fun he => hgiven (by simp [he]), hid, fun h => hgiven (List.mem_cons_of_mem _ h), honce⟩
  · rintro ⟨hne, hid, hgiven, honce⟩
    exact ⟨by simpa [eq_comm] using ⟨hne, hgiven⟩, List.nodup_cons.mpr ⟨hid, honce⟩⟩

end TellApart

namespace Journey

variable {known seen : List String} {index : Nat}

theorem idIssues_eq_nil_iff {what : String} {place : Nat → String} {ids : List String} :
    idIssues what place index seen ids = [] ↔ TellApart ids ∧ ids.Disjoint seen := by
  induction ids generalizing index seen with
  | nil => simp [idIssues, TellApart.nil]
  | cons id ids ih =>
      have hhead : (if id.isEmpty then [⟨place index ++ ".id", what ++ " id is required"⟩]
          else if seen.contains id then
            [⟨place index ++ ".id", "duplicate " ++ what ++ " id " ++ Text.quoted id⟩]
          else []) = ([] : List Issue) ↔ id ≠ "" ∧ id ∉ seen := by
        by_cases he : id = "" <;> by_cases hs : id ∈ seen <;> simp [he, hs]
      rw [idIssues, List.append_eq_nil_iff, hhead, ih, TellApart.cons_iff, List.disjoint_cons_left,
        List.disjoint_cons_right]
      tauto

theorem toolIssues_eq_nil_iff {path : String} {a : Agent} :
    toolIssues path a = [] ↔ ∀ t ∈ a.tools, ∃ c ∈ t.name.toList, Text.isBlank c = false := by
  rw [toolIssues, List.filterMap_eq_nil_iff]
  constructor
  · intro h t ht
    obtain ⟨i, hi⟩ := List.mem_iff_getElem?.mp ht
    rw [← isBlankText_eq_false_iff]
    simpa using h (t, i) (List.mem_zipIdx_iff_getElem?.mpr hi)
  · rintro h ⟨t, i⟩ ht
    simp [isBlankText_eq_false_iff.mpr (h t (List.fst_mem_of_mem_zipIdx ht))]

theorem agentIssues_eq_nil_iff {path : String} {a : Agent} :
    agentIssues known path a = [] ↔ a.Valid known := by
  rw [agentIssues, List.append_eq_nil_iff, List.append_eq_nil_iff, idIssues_eq_nil_iff,
    toolIssues_eq_nil_iff, handoffIssues, List.map_eq_nil_iff, List.filter_eq_nil_iff]
  constructor
  · rintro ⟨⟨hhandoffs, hscreens, -⟩, htools⟩
    exact ⟨by simpa using hhandoffs, hscreens, htools⟩
  · rintro ⟨hhandoffs, hscreens, htools⟩
    exact ⟨⟨by simpa using hhandoffs, hscreens, List.disjoint_nil_right _⟩, htools⟩

theorem agentsIssues_eq_nil_iff {as : List Agent} :
    agentsIssues known index seen as = [] ↔
      TellApart (as.map Agent.id) ∧ (as.map Agent.id).Disjoint seen ∧ ∀ a ∈ as, a.Valid known := by
  induction as generalizing index seen with
  | nil => simp [agentsIssues, TellApart.nil]
  | cons a as ih =>
      rw [agentsIssues, List.append_eq_nil_iff, List.append_eq_nil_iff, idIssues_eq_nil_iff,
        agentIssues_eq_nil_iff, ih, List.map_cons, TellApart.cons_iff, TellApart.cons_iff,
        List.disjoint_cons_left, List.disjoint_cons_left, List.disjoint_cons_right,
        List.forall_mem_cons]
      simp only [TellApart.nil, List.disjoint_nil_left]
      tauto

theorem startIssues_eq_nil_iff {j : Journey} :
    j.startIssues = .ok [] ↔
      (j.startingAgentId.truthy = true → ∃ a ∈ j.agents, j.startingAgentId = .str a.id) := by
  unfold startIssues
  cases ht : j.startingAgentId.truthy with
  | false => simp
  | true =>
      cases hv : j.startingAgentId with
      | str id =>
          have hany : j.agents.any (·.id == id) = true ↔ ∃ a ∈ j.agents, id = a.id := by
            simp only [List.any_eq_true, beq_iff_eq, eq_comm (a := id)]
          by_cases h : j.agents.any (·.id == id) = true
          · simpa [Value.asText?, h] using hany.mp h
          · simpa [Value.asText?, h] using mt hany.mpr h
      | _ => simp [Value.asText?]

theorem nameIssues_eq_nil_iff {j : Journey} :
    j.nameIssues = [] ↔ ∃ c ∈ j.name.toList, Text.isBlank c = false := by
  rw [← isBlankText_eq_false_iff, nameIssues]
  cases Text.isBlankText j.name <;> simp

theorem issues_eq_nil_iff {j : Journey} : j.issues = .ok [] ↔ j.Valid := by
  cases hagents : j.agents.isEmpty with
  | true =>
      have hnone : j.issues ≠ .ok [] := by simp [issues, hagents]
      exact iff_of_false hnone fun h => h.staffed (by simpa using hagents)
  | false =>
      have hstaffed : j.agents ≠ [] := by simpa using hagents
      rw [issues, hagents, if_neg Bool.false_ne_true, bind_ok_iff]
      constructor
      · rintro ⟨starts, hstarts, h⟩
        obtain ⟨hfront, hrest⟩ := List.append_eq_nil_iff.mp (Except.ok.inj h)
        obtain ⟨hname, rfl⟩ := List.append_eq_nil_iff.mp hfront
        obtain ⟨hids, -, heach⟩ := agentsIssues_eq_nil_iff.mp hrest
        exact ⟨nameIssues_eq_nil_iff.mp hname, hstaffed, startIssues_eq_nil_iff.mp hstarts, hids, heach⟩
      · rintro ⟨hname, -, hstart, hids, heach⟩
        refine ⟨[], startIssues_eq_nil_iff.mpr hstart, ?_⟩
        rw [nameIssues_eq_nil_iff.mpr hname,
          agentsIssues_eq_nil_iff.mpr ⟨hids, List.disjoint_nil_right _, heach⟩]
        rfl

theorem Valid.agent?_eq {j : Journey} (h : j.Valid) (id : String) :
    j.agent? id = j.agents.find? (·.id == id) := by
  rw [agent?]
  split
  · rename_i he
    have hid : id = "" := by simpa using he
    refine (List.find?_eq_none.mpr fun a ha hsame => h.ids.given ?_).symm
    have hempty : a.id = "" := by simpa [hid] using hsame
    exact hempty ▸ List.mem_map_of_mem ha
  · rfl

theorem Valid.indexed {j : Journey} (h : j.Valid) : j.Indexed where
  agent id a := by rw [h.agent?_eq, find?_key_iff h.ids.once]
  screen a ha id s := find?_key_iff (h.agents a ha).screens.once
  position a ha id k := findIdx?_key_iff (h.agents a ha).screens.once

/-- A journey without issues is one whose lookups by id can be relied on. -/
theorem no_issue_iff_valid (j : Journey) :
    (j.issues = .ok [] ↔ j.Valid) ∧ (j.issues = .ok [] → j.Indexed) :=
  ⟨issues_eq_nil_iff, fun h => (issues_eq_nil_iff.mp h).indexed⟩

-- Two agents hand over to each other, and each of them has a hall.
namespace Duet

def screen (id : String) : Screen := ⟨id, .null, false, [], [], []⟩

def agent (id other : String) (screens : List Screen) : Agent where
  id
  name := id
  voice := .null
  prompt := .null
  tools := [⟨"answer", .null, .null, [], .null⟩]
  handoffs := [other]
  handoffDescription := .null
  screens
  screenPrompts := []

def host : Agent := agent "host" "guide" [screen "hall"]

def guide : Agent := agent "guide" "host" [screen "hall", screen "garden"]

def journey : Journey where
  id := "duet"
  name := " Duet"
  description := .null
  systemPrompt := .null
  voice := .null
  voiceEnabled := false
  agents := [host, guide]
  startingAgentId := .str "guide"
  version := "1.0.0"
  ownerId := .null
  createdAt := none
  updatedAt := none

theorem valid : journey.Valid where
  name := ⟨'D', by decide, by decide +kernel⟩
  staffed := nofun
  start _ := ⟨guide, by simp [journey], rfl⟩
  ids := ⟨by decide, by decide⟩
  agents := by
    have tools : ∀ t ∈ [(⟨"answer", .null, .null, [], .null⟩ : Tool)],
        ∃ c ∈ t.name.toList, Text.isBlank c = false :=
      List.forall_mem_singleton.mpr ⟨'a', by decide, by decide +kernel⟩
    refine List.forall_mem_cons.mpr ⟨?_, List.forall_mem_singleton.mpr ?_⟩
    · exact ⟨by decide, ⟨by decide, by decide⟩, tools⟩
    · exact ⟨by decide, ⟨by decide, by decide⟩, tools⟩

theorem no_issue_indexed : journey.issues = .ok [] ∧ journey.agent? "guide" = some guide ∧
    guide.screenIndex? "hall" = some 0 ∧ guide.screenIndex? "garden" = some 1 := by
  have hclear : journey.issues = .ok [] := (no_issue_iff_valid journey).1.mpr valid
  have hindexed := (no_issue_iff_valid journey).2 hclear
  have hguide : guide ∈ journey.agents := by simp [journey]
  have second : ∀ i : Nat, journey.agents[i]? = some guide ∧ guide.id = "guide" → i = 1
    | 0, h => absurd (congrArg Agent.id (Option.some.inj h.1)) (by decide)
    | 1, _ => rfl
    | _ + 2, h => nomatch h.1
  exact ⟨hclear, (hindexed.agent "guide" guide).mpr ⟨1, ⟨rfl, rfl⟩, second⟩,
    (hindexed.position guide hguide "hall" 0).mpr ⟨_, rfl, rfl⟩,
    (hindexed.position guide hguide "garden" 1).mpr ⟨_, rfl, rfl⟩⟩

end Duet

end Journey

end GuidedJourney
