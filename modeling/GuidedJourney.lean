import GuidedJourney.Assistant.Profile
import GuidedJourney.Assistant.Signal
import GuidedJourney.Assistant.ToolCall
import GuidedJourney.Binary64.Basic
import GuidedJourney.Binary64.Decimal
import GuidedJourney.Binary64.Numeral
import GuidedJourney.Calendar.Basic
import GuidedJourney.Calendar.Iso
import GuidedJourney.CommandLine.Arguments
import GuidedJourney.CommandLine.Command
import GuidedJourney.CommandLine.Execution
import GuidedJourney.CommandLine.Step
import GuidedJourney.Console.Markup
import GuidedJourney.Console.Report
import GuidedJourney.Definition.Action
import GuidedJourney.Definition.Condition
import GuidedJourney.Definition.Deeplink
import GuidedJourney.Definition.Document
import GuidedJourney.Definition.Journey
import GuidedJourney.Definition.Kinds
import GuidedJourney.Definition.Screen
import GuidedJourney.Definition.Validation
import GuidedJourney.Display.View
import GuidedJourney.Fault
import GuidedJourney.Host.Basic
import GuidedJourney.Json.Reader
import GuidedJourney.Json.Token
import GuidedJourney.Json.Writer
import GuidedJourney.Main
import GuidedJourney.Proofs.ActClosure
import GuidedJourney.Proofs.ActionChange
import GuidedJourney.Proofs.ActionTrail
import GuidedJourney.Proofs.AnswerForwarding
import GuidedJourney.Proofs.AnswerOrder
import GuidedJourney.Proofs.AnswerPlaces
import GuidedJourney.Proofs.BatchRecord
import GuidedJourney.Proofs.CallCourse
import GuidedJourney.Proofs.CamelCase
import GuidedJourney.Proofs.Completion
import GuidedJourney.Proofs.ContextPlay
import GuidedJourney.Proofs.Course
import GuidedJourney.Proofs.CurrentScreen
import GuidedJourney.Proofs.DataFaults
import GuidedJourney.Proofs.DelayedEvents
import GuidedJourney.Proofs.DelayedResponses
import GuidedJourney.Proofs.Desk
import GuidedJourney.Proofs.EffectiveScreen
import GuidedJourney.Proofs.EntryUpdate
import GuidedJourney.Proofs.EventChange
import GuidedJourney.Proofs.EventContexts
import GuidedJourney.Proofs.EventLog
import GuidedJourney.Proofs.Failures
import GuidedJourney.Proofs.FieldUpdate
import GuidedJourney.Proofs.Firings
import GuidedJourney.Proofs.GivenValues
import GuidedJourney.Proofs.HangingUp
import GuidedJourney.Proofs.Interactions
import GuidedJourney.Proofs.Isolation
import GuidedJourney.Proofs.JourneyFiles
import GuidedJourney.Proofs.JourneyValidity
import GuidedJourney.Proofs.LooseEquality
import GuidedJourney.Proofs.MomentText
import GuidedJourney.Proofs.NavigationStack
import GuidedJourney.Proofs.NumberRange
import GuidedJourney.Proofs.NumeralText
import GuidedJourney.Proofs.PatchReferences
import GuidedJourney.Proofs.PathAddresses
import GuidedJourney.Proofs.Refusals
import GuidedJourney.Proofs.RequestChange
import GuidedJourney.Proofs.RequestEnd
import GuidedJourney.Proofs.RereadActions
import GuidedJourney.Proofs.RereadJourneys
import GuidedJourney.Proofs.RuleFaults
import GuidedJourney.Proofs.RunScreens
import GuidedJourney.Proofs.RunShare
import GuidedJourney.Proofs.RunTable
import GuidedJourney.Proofs.RunView
import GuidedJourney.Proofs.ScreenEntries
import GuidedJourney.Proofs.ScreenOrder
import GuidedJourney.Proofs.SerialOrder
import GuidedJourney.Proofs.SessionCourse
import GuidedJourney.Proofs.SessionInvariant
import GuidedJourney.Proofs.SessionMoves
import GuidedJourney.Proofs.SessionPlay
import GuidedJourney.Proofs.SharedRecorder
import GuidedJourney.Proofs.Signals
import GuidedJourney.Proofs.SoundWorld
import GuidedJourney.Proofs.StoredAnswers
import GuidedJourney.Proofs.TemplatePieces
import GuidedJourney.Proofs.TemplateScan
import GuidedJourney.Proofs.TimeOrder
import GuidedJourney.Proofs.TimerRequests
import GuidedJourney.Proofs.TimerVisits
import GuidedJourney.Proofs.ToolCounts
import GuidedJourney.Proofs.ToolFaults
import GuidedJourney.Proofs.ToolProfiles
import GuidedJourney.Proofs.TurnChange
import GuidedJourney.Proofs.UnknownOperators
import GuidedJourney.Proofs.UnwritableKeys
import GuidedJourney.Proofs.ValidJourney
import GuidedJourney.Proofs.ValueEquality
import GuidedJourney.Proofs.VisitValues
import GuidedJourney.Proofs.Warnings
import GuidedJourney.Proofs.WholeNumbers
import GuidedJourney.Proofs.WorldPlay
import GuidedJourney.Proofs.WorldStep
import GuidedJourney.Proofs.WriteJournal
import GuidedJourney.Proofs.WriteVisits
import GuidedJourney.Rule.Basic
import GuidedJourney.Rule.Equality
import GuidedJourney.Rule.Evaluation
import GuidedJourney.Rule.Path
import GuidedJourney.Run.Basic
import GuidedJourney.Run.Entry
import GuidedJourney.Run.Perform
import GuidedJourney.Run.Request
import GuidedJourney.Run.Response
import GuidedJourney.Run.Turn
import GuidedJourney.Service.Basic
import GuidedJourney.Service.Http
import GuidedJourney.Service.Registry
import GuidedJourney.Session.Answer
import GuidedJourney.Session.Basic
import GuidedJourney.Session.Call
import GuidedJourney.Session.Delay
import GuidedJourney.Session.Queue
import GuidedJourney.Settings.Basic
import GuidedJourney.Settings.Reader
import GuidedJourney.Simulation.Script
import GuidedJourney.Simulation.World
import GuidedJourney.State.Scope
import GuidedJourney.State.Store
import GuidedJourney.State.Template
import GuidedJourney.Storage.Folder
import GuidedJourney.Text.Blank
import GuidedJourney.Text.Camel
import GuidedJourney.Text.Capital
import GuidedJourney.Text.Digit
import GuidedJourney.Text.Printable
import GuidedJourney.Text.Quoted
import GuidedJourney.Text.Ranges
import GuidedJourney.Text.Split
import GuidedJourney.Text.Word
import GuidedJourney.Value.Basic
import GuidedJourney.Value.Key
import GuidedJourney.Value.Number
import GuidedJourney.Value.Text
import GuidedJourney.Yaml.Cursor
import GuidedJourney.Yaml.Kind
import GuidedJourney.Yaml.Layout
import GuidedJourney.Yaml.Node
import GuidedJourney.Yaml.Reader
import GuidedJourney.Yaml.Scalar
import GuidedJourney.Yaml.Token
import GuidedJourney.Yaml.Writer
import GuidedJourney.Yaml.Written
