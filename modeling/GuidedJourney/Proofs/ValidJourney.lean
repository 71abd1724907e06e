import GuidedJourney.Host.Basic
import GuidedJourney.Proofs.JourneyValidity
import GuidedJourney.Proofs.RunScreens

namespace GuidedJourney

namespace Journey

theorem issues_clear {j : Journey} (hne : j.agents.isEmpty = false) (hname : j.nameIssues = [])
    (hstarts : j.startIssues = .ok [])
    (hagents : agentsIssues (j.agents.map Agent.id) 0 [] j.agents = []) : j.issues = .ok [] := by
  rw [issues, hne, if_neg Bool.false_ne_true, hname, hstarts, hagents]
  rfl

theorem issues_screens {j : Journey} (h : j.issues = .ok []) :
    ∀ a ∈ j.agents, ∀ s ∈ a.screens, s.id ≠ "" := by
  intro a ha s hs hid
  exact ((issues_eq_nil_iff.mp h).agents a ha).screens.given (hid ▸ List.mem_map_of_mem hs)

end Journey

theorem Host.newRun_ok {h : Host} {j : Journey} {globals : List Screen} {state : Fields}
    {id : String} {r : Run} (hr : h.newRun j globals state id = .ok r) :
    j.issues = .ok [] ∧ r = {
      id
      journey := j
      globals
      agentId := j.startingAgent?.map Agent.id
      store := { module := state }
      logLimit := h.setup.interpreter.maxEventLog } := by
  unfold newRun at hr
  split at hr
  · cases hr
  · cases hr
  · rename_i hi
    exact ⟨hi, (Except.ok.inj hr).symm⟩

theorem Host.newRun_valid (h : Host) {j : Journey} (hvalid : j.issues = .ok [])
    (globals : List Screen) (state : Fields) (id : String) :
    h.newRun j globals state id = .ok {
      id
      journey := j
      globals
      agentId := j.startingAgent?.map Agent.id
      store := { module := state }
      logLimit := h.setup.interpreter.maxEventLog } := by
  rw [newRun, hvalid]

-- A small valid journey: a guide shows a hall and a garden.
namespace Tour

def event (id : String) (actions : List Action) : Event := ⟨id, .custom, [], actions, .null⟩

def hall : Screen where
  id := "hall"
  title := .null
  hidesBackButton := false
  state := []
  sections := []
  events := [
    event "ask" [.call [] ⟨"guidebook", .null, [], none⟩ [] []],
    event "walk" [.navigate [] "garden"],
    event "hurry" [.update [] .module [("answer_pace", .str "fast")]]]

def garden : Screen where
  id := "garden"
  title := .null
  hidesBackButton := false
  state := []
  sections := []
  events := [event "look" [.update [] .module [("looked", .bool true)]]]

def guide : Agent where
  id := "guide"
  name := "Guide"
  voice := .null
  prompt := .null
  tools := []
  handoffs := []
  handoffDescription := .null
  screens := [hall, garden]
  screenPrompts := []

def journey : Journey where
  id := "tour"
  name := "Tour"
  description := .null
  systemPrompt := .null
  voice := .null
  voiceEnabled := false
  agents := [guide]
  startingAgentId := .null
  version := "1.0.0"
  ownerId := .null
  createdAt := none
  updatedAt := none

def run : Run where
  id := "tour"
  journey
  globals := []
  agentId := some "guide"
  logLimit := 500

theorem newRun_run : ({ setup := {} } : Host).newRun journey [] [] "tour" = .ok run := by
  have hname : journey.nameIssues = [] := by decide +kernel
  exact Host.newRun_valid _ (Journey.issues_clear rfl hname rfl (by decide)) [] [] "tour"

end Tour

end GuidedJourney
