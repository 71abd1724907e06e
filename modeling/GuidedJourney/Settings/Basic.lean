import GuidedJourney.Binary64.Decimal

namespace GuidedJourney

structure InterpreterSettings where
  /-- Screen events of these kinds fire by themselves when a screen is entered. -/
  entryEventTypes : List String := ["onAppear", "onLoad", "onStart"]
  /-- How often the events of one entered screen may lead on to another. -/
  maxChainedEntries : Nat := 5
  /-- How many of the latest applied events are kept. -/
  maxEventLog : Nat := 500
  interpolateTemplates : Bool := true

structure BridgeSettings where
  triggerEventTool : String := "trigger_event"
  recordInputTool : String := "record_input"
  endCallTool : String := "end_call"
  navigationEventPrefix : String := "navigate_to_"
  /-- Seconds before an event with that prefix, unless a delay is asked for. -/
  navigationDelay : Binary64 := Binary64.ofNat 2
  /-- Seconds between recorded input and the event after it, unless a delay is asked for. -/
  nextEventDelay : Binary64 := Binary64.ofNat 2
  /-- The event that shows the feedback screen at the end of a call. -/
  feedbackEventId : String := "show_feedback_screen"
  /-- Writes to keys that begin with one of these are answers. -/
  answerKeyPrefixes : List String := ["answer_"]
  trackToolCalls : Bool := true

structure ServiceSettings where
  baseUrl : Option String := none
  timeout : Binary64 := Binary64.ofNat 30
  apiKey : Option String := none

structure Settings where
  serviceName : String := "journey-interpreter"
  environment : String := "development"
  logLevel : String := "info"
  logFormat : String := "console"
  interpreter : InterpreterSettings := {}
  bridge : BridgeSettings := {}
  services : ServiceSettings := {}

end GuidedJourney
