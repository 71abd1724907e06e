import GuidedJourney.Json.Reader
import GuidedJourney.Settings.Basic
import GuidedJourney.Text.Split
import GuidedJourney.Value.Number

namespace GuidedJourney

namespace Setting

def dropFraction? (cs : List Char) : Option (List Char) :=
  match Text.cut '.' cs with
  | (whole, none) => some whole
  | (whole, some zeros) => if zeros.all (· == '0') then some whole else none

def digits? (cs : List Char) : Option Nat :=
  let groups := Text.split '_' cs
  if groups.all (fun g => !g.isEmpty && g.all Char.isDigit) && cs.length ≤ Json.longestNumeral then
    some (Binary64.digitsValue groups.flatten)
  else none

def intOfText? (s : String) : Option Int := do
  let (negative, r) := Binary64.sign (Text.trim s.toList)
  let n ← digits? (← dropFraction? r)
  return if negative then -n else n

def toInt : Value → Except Fault Int
  | .int n => .ok n
  | .bool b => .ok (if b then 1 else 0)
  | .num x => match x.toRat? with
    | some r => if r.den = 1 then .ok r.num else .error .invalidField
    | none => .error .invalidField
  | .str s => match intOfText? s with
    | some n => .ok n
    | none => .error .invalidField
  | _ => .error .invalidField

def toNat (least : Nat) (v : Value) : Except Fault Nat := do
  match ← toInt v with
  | .ofNat n => if least ≤ n then return n else throw .invalidField
  | .negSucc _ => throw .invalidField

def toNumber : Value → Except Fault Binary64
  | .int n => .ok (Binary64.ofInt n)
  | .bool b => .ok (Binary64.ofNat (if b then 1 else 0))
  | .num x => .ok x
  | .str s =>
    let cs := Text.trim s.toList
    if cs.all (·.toNat < 0x80) then
      match Binary64.ofNumeral? (String.ofList cs) with
      | some x => .ok x
      | none => .error .invalidField
    else .error .invalidField
  | _ => .error .invalidField

def toSeconds (v : Value) : Except Fault Binary64 := do
  let x ← toNumber v
  if Binary64.le .zero x then return x else throw .invalidField

def toPositive (v : Value) : Except Fault Binary64 := do
  let x ← toNumber v
  if x.isPositive then return x else throw .invalidField

def onWords : List String := ["1", "on", "t", "true", "y", "yes"]
def offWords : List String := ["0", "off", "f", "false", "n", "no"]

def toSwitch : Value → Except Fault Bool
  | .bool b => .ok b
  | .str s =>
    let word := String.ofList (s.toList.map Char.toLower)
    if onWords.contains word then .ok true
    else if offWords.contains word then .ok false
    else .error .invalidField
  | v => match v.amount? with
    | some (.exact r) => if r = 1 then .ok true else if r = 0 then .ok false else .error .invalidField
    | _ => .error .invalidField

def toText : Value → Except Fault String
  | .str s => .ok s
  | _ => .error .invalidField

def toOptionalText : Value → Except Fault (Option String)
  | .null => .ok none
  | v => (toText v).map some

def toTexts : Value → Except Fault (List String)
  | .list xs => xs.mapM toText
  | _ => .error .invalidField

def oneOf (words : List String) (v : Value) : Except Fault String := do
  let s ← toText v
  if words.contains s then return s else throw .invalidField

abbrev Lookup := String → Except Fault (Option Value)

def read {α : Type} (get : Lookup) (name : String) (default : α) (reader : Value → Except Fault α) :
    Except Fault α := do
  match ← get name with
  | none => return default
  | some v => reader v

end Setting

open Setting

namespace InterpreterSettings

def names : List String := [
  "entry_event_types", "max_chained_entries", "max_event_log", "interpolate_templates"]

def read (get : Lookup) : Except Fault InterpreterSettings := do
  let d : InterpreterSettings := {}
  return {
    entryEventTypes := ← Setting.read get "entry_event_types" d.entryEventTypes toTexts
    maxChainedEntries := ← Setting.read get "max_chained_entries" d.maxChainedEntries (toNat 0)
    maxEventLog := ← Setting.read get "max_event_log" d.maxEventLog (toNat 1)
    interpolateTemplates := ← Setting.read get "interpolate_templates" d.interpolateTemplates toSwitch }

def toDocument (s : InterpreterSettings) : Value :=
  .obj [("entry_event_types", Value.strs s.entryEventTypes),
    ("max_chained_entries", .int s.maxChainedEntries),
    ("max_event_log", .int s.maxEventLog),
    ("interpolate_templates", .bool s.interpolateTemplates)]

end InterpreterSettings

namespace BridgeSettings

def names : List String := [
  "trigger_event_tool", "record_input_tool", "end_call_tool", "navigation_event_prefix",
  "navigation_delay_seconds", "next_event_delay_seconds", "feedback_event_id", "answer_key_prefixes",
  "track_tool_calls"]

def read (get : Lookup) : Except Fault BridgeSettings := do
  let d : BridgeSettings := {}
  return {
    triggerEventTool := ← Setting.read get "trigger_event_tool" d.triggerEventTool toText
    recordInputTool := ← Setting.read get "record_input_tool" d.recordInputTool toText
    endCallTool := ← Setting.read get "end_call_tool" d.endCallTool toText
    navigationEventPrefix := ←
      Setting.read get "navigation_event_prefix" d.navigationEventPrefix toText
    navigationDelay := ← Setting.read get "navigation_delay_seconds" d.navigationDelay toSeconds
    nextEventDelay := ← Setting.read get "next_event_delay_seconds" d.nextEventDelay toSeconds
    feedbackEventId := ← Setting.read get "feedback_event_id" d.feedbackEventId toText
    answerKeyPrefixes := ← Setting.read get "answer_key_prefixes" d.answerKeyPrefixes toTexts
    trackToolCalls := ← Setting.read get "track_tool_calls" d.trackToolCalls toSwitch }

def toDocument (s : BridgeSettings) : Value :=
  .obj [("trigger_event_tool", .str s.triggerEventTool),
    ("record_input_tool", .str s.recordInputTool),
    ("end_call_tool", .str s.endCallTool),
    ("navigation_event_prefix", .str s.navigationEventPrefix),
    ("navigation_delay_seconds", .num s.navigationDelay),
    ("next_event_delay_seconds", .num s.nextEventDelay),
    ("feedback_event_id", .str s.feedbackEventId),
    ("answer_key_prefixes", Value.strs s.answerKeyPrefixes),
    ("track_tool_calls", .bool s.trackToolCalls)]

end BridgeSettings

namespace ServiceSettings

def names : List String := ["base_url", "timeout_seconds", "api_key"]

def read (get : Lookup) : Except Fault ServiceSettings := do
  let d : ServiceSettings := {}
  return {
    baseUrl := ← Setting.read get "base_url" d.baseUrl toOptionalText
    timeout := ← Setting.read get "timeout_seconds" d.timeout toPositive
    apiKey := ← Setting.read get "api_key" d.apiKey toOptionalText }

def toDocument (s : ServiceSettings) : Value :=
  .obj [("base_url", Value.ofOption s.baseUrl), ("timeout_seconds", .num s.timeout),
    ("api_key", Value.ofOption s.apiKey)]

end ServiceSettings

namespace Setting

def ofFields {α : Type} (names : List String) (read : Lookup → Except Fault α) (fields : Fields) :
    Except Fault α :=
  if fields.all fun f => names.contains f.1 then read fun name => .ok (Fields.find? fields name)
  else .error .invalidField

abbrev Environment := List (String × String)

def lower (s : String) : String := String.ofList (s.toList.map Char.toLower)

def valueIn? (env : Environment) (name : String) : Option String :=
  (env.reverse.find? fun e => lower e.1 == lower name).map Prod.snd

/-- Settings that are lists or groups are written as JSON. -/
def structured : List String := [
  "entry_event_types", "answer_key_prefixes", "interpreter", "bridge", "services"]

def fromEnvironment (env : Environment) (mark : String) : Lookup := fun name =>
  match valueIn? env (mark ++ name) with
  | none => .ok none
  | some s =>
    if structured.contains name then
      match Json.read s with
      | .ok v => .ok (some v)
      | .error _ => .error .badSetting
    else .ok (some (.str s))

/-- A group of settings: what is given for the group as a whole goes before the variables of its own. -/
def group {α : Type} (env : Environment) (mark : String) (names : List String)
    (read : Lookup → Except Fault α) (whole : Option Value) : Except Fault α :=
  let own := fromEnvironment env mark
  match whole with
  | none => read own
  | some (.obj fields) =>
    if fields.all fun f => names.contains f.1 then
      read fun name => match Fields.find? fields name with
        | some v => .ok (some v)
        | none => own name
    else .error .invalidField
  | some _ => .error .invalidField

end Setting

namespace Settings

def environments : List String := ["development", "production", "test"]
def logFormats : List String := ["json", "console"]

def names : List String := ["service_name", "environment", "log_level", "log_format"]

def groups : List (String × List String) := [
  ("interpreter", InterpreterSettings.names),
  ("bridge", BridgeSettings.names),
  ("services", ServiceSettings.names)]

def variableNames : List String :=
  (names ++ groups.flatMap fun (group, own) => group :: own.map fun name => group ++ "_" ++ name).map
    fun name => String.ofList (("JOURNEY_" ++ name).toList.map Char.toUpper)

def ofEnvironment (env : Environment) : Except Fault Settings := do
  let get := fromEnvironment env "JOURNEY_"
  let d : Settings := {}
  let interpreter ← get "interpreter"
  let bridge ← get "bridge"
  let services ← get "services"
  let interpreter ← group env "JOURNEY_INTERPRETER_" InterpreterSettings.names
    InterpreterSettings.read interpreter
  let bridge ← group env "JOURNEY_BRIDGE_" BridgeSettings.names BridgeSettings.read bridge
  let services ← group env "JOURNEY_SERVICES_" ServiceSettings.names ServiceSettings.read services
  return {
    serviceName := ← Setting.read get "service_name" d.serviceName toText
    environment := ← Setting.read get "environment" d.environment (oneOf environments)
    logLevel := ← Setting.read get "log_level" d.logLevel toText
    logFormat := ← Setting.read get "log_format" d.logFormat (oneOf logFormats)
    interpreter, bridge, services }

def toDocument (s : Settings) : Value :=
  .obj [("service_name", .str s.serviceName),
    ("environment", .str s.environment),
    ("log_level", .str s.logLevel),
    ("log_format", .str s.logFormat),
    ("interpreter", s.interpreter.toDocument),
    ("bridge", s.bridge.toDocument),
    ("services", s.services.toDocument)]

end Settings

end GuidedJourney
