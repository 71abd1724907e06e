import GuidedJourney.Assistant.Profile
import GuidedJourney.Assistant.ToolCall
import GuidedJourney.Proofs.EffectiveScreen
import GuidedJourney.Proofs.ValidJourney

namespace GuidedJourney

/-- To whom the bridge hands a tool call. -/
inductive ToolHandler where
  | triggerEvent
  | recordInput
  | endCall
  /-- Tools that are not built in stand for events. -/
  | event
  deriving DecidableEq

namespace BridgeSettings

def handler (s : BridgeSettings) (name : String) : ToolHandler :=
  if name = s.triggerEventTool then .triggerEvent
  else if name = s.recordInputTool then .recordInput
  else if name = s.endCallTool then .endCall
  else .event

structure Distinct (s : BridgeSettings) : Prop where
  trigger_record : s.triggerEventTool ≠ s.recordInputTool
  trigger_end : s.triggerEventTool ≠ s.endCallTool
  record_end : s.recordInputTool ≠ s.endCallTool

variable {s : BridgeSettings}

theorem handler_eq_event {name : String} : s.handler name = .event ↔
    name ≠ s.triggerEventTool ∧ name ≠ s.recordInputTool ∧ name ≠ s.endCallTool := by
  unfold handler
  split
  · simp [*]
  · split
    · simp [*]
    · split <;> simp [*]

@[simp] theorem handler_triggerEvent : s.handler s.triggerEventTool = .triggerEvent := if_pos rfl

theorem Distinct.handler_recordInput (h : s.Distinct) : s.handler s.recordInputTool = .recordInput := by
  rw [handler, if_neg h.trigger_record.symm, if_pos rfl]

theorem Distinct.handler_endCall (h : s.Distinct) : s.handler s.endCallTool = .endCall := by
  rw [handler, if_neg h.trigger_end.symm, if_neg h.record_end.symm, if_pos rfl]

end BridgeSettings

namespace ToolHandler

def handle (u : Setup) (ticket : Nat) (name : String) (args : Fields) (s : Session Caller) :
    ToolHandler → CallStep :=
  let tally := if u.bridge.trackToolCalls then some name else none
  fun
  | .triggerEvent => s.triggerEvent u ticket tally args
  | .recordInput => s.recordInput u ticket tally args
  | .endCall => s.endCall u ticket tally args
  | .event => s.otherTool u ticket tally name args

/-- A tool of a profile is described as the built-in tool that the handler is there for. -/
def Describes (s : BridgeSettings) (t : ToolProfile) : ToolHandler → Prop
  | .triggerEvent => t = .triggerEvent s
  | .recordInput => ∃ description, t = .recordInput s description
  | .endCall => t = .endCall s
  | .event => False

theorem Describes.ne_event {s : BridgeSettings} {t : ToolProfile} {r : ToolHandler}
    (h : r.Describes s t) : r ≠ .event := by
  rintro rfl
  exact h

end ToolHandler

theorem Session.callTool_handler (u : Setup) (ticket : Nat) (name : String) {args : Value}
    {fields : Fields} (hargs : args.toFields = .ok fields) (s : Session Caller) :
    s.callTool u ticket name args = (u.bridge.handler name).handle u ticket name fields s := by
  rw [callTool, hargs, BridgeSettings.handler]
  dsimp only
  split
  · rfl
  · split
    · rfl
    · split <;> rfl

namespace ToolProfile

variable {s : BridgeSettings} {t : Tool} {q : ToolProfile}

theorem ofTool_ok (h : ofTool s t = .ok q) : ∃ description,
    q = if t.name = s.recordInputTool then recordInput s description
      else ⟨t.name, description, t.parameters, false⟩ := by
  obtain ⟨description, -, h⟩ := bind_ok_iff.mp h
  refine ⟨description, ?_⟩
  split at h
  · rename_i hname
    rw [if_pos hname]
    exact (Except.ok.inj h).symm
  · rename_i hname
    rw [if_neg hname]
    exact (Except.ok.inj h).symm

theorem ofTool_name (h : ofTool s t = .ok q) : q.name = t.name := by
  obtain ⟨description, rfl⟩ := ofTool_ok h
  split
  · rename_i hname
    exact hname.symm
  · rfl

theorem ofTool_builtin (h : ofTool s t = .ok q) : q.builtin = true ↔ t.name = s.recordInputTool := by
  obtain ⟨description, rfl⟩ := ofTool_ok h
  split
  · rename_i hname
    exact iff_of_true rfl hname
  · rename_i hname
    exact iff_of_false Bool.false_ne_true hname

end ToolProfile

namespace Profile

variable {s : BridgeSettings} {j : Journey} {a : Agent} {p : Profile}

theorem ofAgent_tools (h : ofAgent s j a = .ok p) : ∃ own,
    List.Forall₂ (fun t q => ToolProfile.ofTool s t = .ok q) a.tools own ∧
    p.tools = own ++ (if a.screens.isEmpty then [] else [.triggerEvent s]) ++ [.endCall s] := by
  obtain ⟨own, hown, h⟩ := bind_ok_iff.mp h
  obtain ⟨text, -, h⟩ := bind_ok_iff.mp h
  obtain ⟨voice, -, h⟩ := bind_ok_iff.mp h
  obtain ⟨handoffDescription, -, h⟩ := bind_ok_iff.mp h
  cases h
  exact ⟨own, mapM_ok_iff.mp hown, rfl⟩

theorem ofAgent_toolNames (h : ofAgent s j a = .ok p) : p.toolNames =
    a.tools.map Tool.name ++ (if a.screens.isEmpty then [] else [s.triggerEventTool]) ++
      [s.endCallTool] := by
  have hnames : ∀ {ts own}, List.Forall₂ (fun t q => ToolProfile.ofTool s t = .ok q) ts own →
      own.map ToolProfile.name = ts.map Tool.name := by
    intro ts own hown
    induction hown with
    | nil => rfl
    | cons hq _ ih => rw [List.map_cons, List.map_cons, ToolProfile.ofTool_name hq, ih]
  obtain ⟨own, hown, htools⟩ := ofAgent_tools h
  rw [toolNames, htools, List.map_append, List.map_append, hnames hown]
  cases a.screens <;> rfl

theorem mem_ofAgent (h : ofAgent s j a = .ok p) {q : ToolProfile} (hq : q ∈ p.tools) :
    (∃ t ∈ a.tools, ToolProfile.ofTool s t = .ok q) ∨ q = .triggerEvent s ∨ q = .endCall s := by
  obtain ⟨own, hown, htools⟩ := ofAgent_tools h
  rw [htools, List.append_assoc, List.mem_append, List.mem_append, List.mem_singleton] at hq
  rcases hq with hq | hq | hq
  · exact .inl (forall₂_mem_right hown hq)
  · cases hscreens : a.screens with
    | nil => rw [hscreens] at hq; cases hq
    | cons first rest => rw [hscreens] at hq; exact .inr (.inl (List.mem_singleton.mp hq))
  · exact .inr (.inr hq)

theorem own_mem_ofAgent (h : ofAgent s j a = .ok p) {t : Tool} (ht : t ∈ a.tools) :
    ∃ q ∈ p.tools, q.name = t.name ∧ (q.builtin = true ↔ t.name = s.recordInputTool) := by
  obtain ⟨own, hown, htools⟩ := ofAgent_tools h
  obtain ⟨q, hq, ht⟩ := forall₂_mem_left hown ht
  refine ⟨q, ?_, ToolProfile.ofTool_name ht, ToolProfile.ofTool_builtin ht⟩
  rw [htools, List.append_assoc]
  exact List.mem_append_left _ hq

/-- The profile and the bridge agree on the tools: there is one of each name, and those that are marked
as built in are those whose calls are handed to a built-in handler. -/
structure Agrees (s : BridgeSettings) (p : Profile) : Prop where
  distinct : p.toolNames.Nodup
  builtin_iff : ∀ t ∈ p.tools, t.builtin = true ↔ s.handler t.name ≠ .event

/-- No two tools of a profile have the same name, unless the agent has a tool of its own that is named
like one of those that come after its own. -/
theorem toolNames_nodup (h : ofAgent s j a = .ok p) (hnames : (a.tools.map Tool.name).Nodup)
    (hbuiltin : s.Distinct) : p.toolNames.Nodup ↔ s.endCallTool ∉ a.tools.map Tool.name ∧
      (s.triggerEventTool ∈ a.tools.map Tool.name → a.screens = []) := by
  rw [ofAgent_toolNames h, List.append_assoc, List.nodup_append']
  cases a.screens with
  | nil => simp [hnames]
  | cons first rest => simp [hnames, hbuiltin.trigger_end, and_comm]

/-- What is marked as built in is described as the tool of the handler that its calls are handed to. -/
theorem builtin_describes (h : ofAgent s j a = .ok p) (hbuiltin : s.Distinct) {q : ToolProfile}
    (hq : q ∈ p.tools) (hmarked : q.builtin = true) : (s.handler q.name).Describes s q := by
  rcases mem_ofAgent h hq with ⟨t, -, ht⟩ | rfl | rfl
  · have hrecord := (ToolProfile.ofTool_builtin ht).mp hmarked
    obtain ⟨description, hdescribed⟩ := ToolProfile.ofTool_ok ht
    rw [if_pos hrecord] at hdescribed
    rw [ToolProfile.ofTool_name ht, hrecord, hbuiltin.handler_recordInput]
    exact ⟨description, hdescribed⟩
  · rw [show (ToolProfile.triggerEvent s).name = s.triggerEventTool from rfl,
      BridgeSettings.handler_triggerEvent]
    rfl
  · rw [show (ToolProfile.endCall s).name = s.endCallTool from rfl, hbuiltin.handler_endCall]
    rfl

theorem agrees_iff (h : ofAgent s j a = .ok p) (hnames : (a.tools.map Tool.name).Nodup)
    (hbuiltin : s.Distinct) :
    p.Agrees s ↔ ∀ t ∈ a.tools, t.name ≠ s.triggerEventTool ∧ t.name ≠ s.endCallTool := by
  constructor
  · intro hagrees t ht
    obtain ⟨q, hq, hname, hmarked⟩ := own_mem_ofAgent h ht
    -- Under such a name the agent's own tool would have to be marked, and only a recorder is.
    have hiff := hmarked.symm.trans (hagrees.builtin_iff q hq)
    rw [hname] at hiff
    refine ⟨fun htrigger => ?_, fun hend => ?_⟩
    · rw [htrigger, BridgeSettings.handler_triggerEvent] at hiff
      exact hbuiltin.trigger_record (hiff.mpr nofun)
    · rw [hend, hbuiltin.handler_endCall] at hiff
      exact hbuiltin.record_end (hiff.mpr nofun).symm
  · intro hown
    refine ⟨(toolNames_nodup h hnames hbuiltin).mpr ⟨?_, ?_⟩, fun q hq => ⟨fun hmarked => ?_, fun hne => ?_⟩⟩
    · rintro hend
      obtain ⟨t, ht, hname⟩ := List.mem_map.mp hend
      exact absurd hname (hown t ht).2
    · rintro htrigger
      obtain ⟨t, ht, hname⟩ := List.mem_map.mp htrigger
      exact absurd hname (hown t ht).1
    · exact (builtin_describes h hbuiltin hq hmarked).ne_event
    · rcases mem_ofAgent h hq with ⟨t, ht, hq⟩ | rfl | rfl
      · refine (ToolProfile.ofTool_builtin hq).mpr ?_
        by_contra hrecord
        rw [ToolProfile.ofTool_name hq] at hne
        exact hne (BridgeSettings.handler_eq_event.mpr ⟨(hown t ht).1, hrecord, (hown t ht).2⟩)
      · rfl
      · rfl

/-- The profile of an agent beside the bridge, which hands each call to the handler of its tool. What the
profile marks as built in is described as the tool of its handler. The two agree just if the agent has no
tool of its own with the name of the tool that triggers events or of the one that ends the call; and
there are two tools of one name just if it has one of the latter name, or has screens and one of the
former. -/
theorem ofAgent_agrees {u : Setup} (h : ofAgent u.bridge j a = .ok p)
    (hnames : (a.tools.map Tool.name).Nodup) (hbuiltin : u.bridge.Distinct) :
    (∀ ticket name args fields (s : Session Caller), args.toFields = .ok fields →
      s.callTool u ticket name args = (u.bridge.handler name).handle u ticket name fields s) ∧
    (∀ q ∈ p.tools, q.builtin = true → (u.bridge.handler q.name).Describes u.bridge q) ∧
    (p.Agrees u.bridge ↔
      ∀ t ∈ a.tools, t.name ≠ u.bridge.triggerEventTool ∧ t.name ≠ u.bridge.endCallTool) ∧
    (p.toolNames.Nodup ↔ u.bridge.endCallTool ∉ a.tools.map Tool.name ∧
      (u.bridge.triggerEventTool ∈ a.tools.map Tool.name → a.screens = [])) :=
  ⟨fun ticket name _ _ s hargs => s.callTool_handler u ticket name hargs,
    fun _ hq hmarked => builtin_describes h hbuiltin hq hmarked,
    agrees_iff h hnames hbuiltin, toolNames_nodup h hnames hbuiltin⟩

/-- A guide who records input and looks things up, and one with a tool of their own to trigger events. -/
theorem ofAgent_agrees_tour :
    let u : Setup := {}
    let tool (name : String) : Tool := ⟨name, .null, .str "", [], .null⟩
    let scribe : Agent := { Tour.guide with tools := [tool "record_input", tool "look_up"] }
    let crier : Agent := { Tour.guide with tools := [tool "trigger_event"] }
    (∃ p, ofAgent u.bridge Tour.journey scribe = .ok p ∧ p.Agrees u.bridge ∧ p.toolNames.Nodup) ∧
      ∃ p, ofAgent u.bridge Tour.journey crier = .ok p ∧ ¬ p.Agrees u.bridge ∧ ¬ p.toolNames.Nodup := by
  intro u tool scribe crier
  have hbuiltin : u.bridge.Distinct := ⟨by decide, by decide, by decide⟩
  obtain ⟨p, hp⟩ : ∃ p, ofAgent u.bridge Tour.journey scribe = .ok p := ⟨_, rfl⟩
  obtain ⟨q, hq⟩ : ∃ q, ofAgent u.bridge Tour.journey crier = .ok q := ⟨_, rfl⟩
  obtain ⟨-, -, hscribe, hnodup⟩ := ofAgent_agrees hp (by decide) hbuiltin
  obtain ⟨-, -, hcrier, hdouble⟩ := ofAgent_agrees hq (by decide) hbuiltin
  refine ⟨⟨p, hp, hscribe.mpr (by decide), hnodup.mpr (by decide)⟩, q, hq, fun h => ?_, fun h => ?_⟩
  · exact absurd (hcrier.mp h) (by decide)
  · exact absurd ((hdouble.mp h).2 (by decide)) nofun

/-- An agent with a tool of their own to end the call is told of two such tools. -/
theorem ofAgent_doubled : ¬ ∀ (u : Setup) (j : Journey) (a : Agent) (p : Profile),
    ofAgent u.bridge j a = .ok p → (a.tools.map Tool.name).Nodup → u.bridge.Distinct →
    p.toolNames.Nodup ∧ ∀ q ∈ p.tools, q.builtin = true ↔ u.bridge.handler q.name ≠ .event := by
  intro h
  let guard : Agent := { Tour.guide with tools := [⟨"end_call", .null, .str "", [], .null⟩], screens := [] }
  obtain ⟨p, hp⟩ : ∃ p, ofAgent {} Tour.journey guard = .ok p := ⟨_, rfl⟩
  obtain ⟨hnodup, -⟩ := h {} Tour.journey guard p hp (by decide) ⟨by decide, by decide, by decide⟩
  have hend := (toolNames_nodup hp (by decide) ⟨by decide, by decide, by decide⟩).mp hnodup
  exact hend.1 (by decide)

end Profile

end GuidedJourney
