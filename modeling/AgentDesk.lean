import AgentDesk.Catalog.Codec
import AgentDesk.Main
import AgentDesk.Window.Basic
import AgentDesk.Text.TimeOfDay
import AgentDesk.Proofs.Json.Members
import AgentDesk.Proofs.Json.Grammar
import AgentDesk.Proofs.Json.Numeral
import AgentDesk.Proofs.Json.Reading
import AgentDesk.Proofs.Json.Record
import AgentDesk.Proofs.Json.Writing
import AgentDesk.Proofs.Wire.ResultCode
import AgentDesk.Proofs.Store.Choices
import AgentDesk.Proofs.Store.History
import AgentDesk.Proofs.Store.Log
import AgentDesk.Proofs.Desk.Event
import AgentDesk.Proofs.Desk.Scene
import AgentDesk.Proofs.Desk.Record
import AgentDesk.Proofs.Desk.Time
import AgentDesk.Proofs.Desk.Settle
import AgentDesk.Proofs.Desk.Turn
import AgentDesk.Proofs.Desk.Lists
import AgentDesk.Proofs.Desk.Waiting
import AgentDesk.Proofs.Desk.Indifference
import AgentDesk.Proofs.Session.Custody
import AgentDesk.Proofs.Session.Lifecycle
import AgentDesk.Proofs.Session.Alternation
import AgentDesk.Proofs.Session.Provenance
import AgentDesk.Proofs.Session.StopChannel
import AgentDesk.Proofs.Session.Adoption
import AgentDesk.Proofs.Session.Course
import AgentDesk.Proofs.Session.Check
import AgentDesk.Proofs.Session.Watch
import AgentDesk.Proofs.Session.Pacing
import AgentDesk.Proofs.Session.Progress
import AgentDesk.Proofs.Session.Answer
import AgentDesk.Proofs.Session.Verdict
import AgentDesk.Proofs.Session.StartReply
import AgentDesk.Proofs.Session.Started
import AgentDesk.Proofs.Session.Tenure
import AgentDesk.Proofs.Session.Ledger
import AgentDesk.Proofs.Session.Toasts
import AgentDesk.Proofs.Session.Requests
import AgentDesk.Proofs.Window.Run
import AgentDesk.Proofs.Window.Frozen
import AgentDesk.Proofs.Wire.Envelope
import AgentDesk.Proofs.Json.Canonical
import AgentDesk.Proofs.Wire.RoundTrip
import AgentDesk.Proofs.Http.Endpoint
import AgentDesk.Proofs.Session.CheckResult
import AgentDesk.Proofs.Session.Parting
import AgentDesk.Proofs.Session.Failure
import AgentDesk.Proofs.Liveness.Timetable
import AgentDesk.Proofs.Liveness.Schedule
import AgentDesk.Proofs.Liveness.Rest
import AgentDesk.Proofs.Liveness.Onward
import AgentDesk.Proofs.Liveness.AtOnce
import AgentDesk.Proofs.Text.Utf8
import AgentDesk.Proofs.Text.Trim
import AgentDesk.Proofs.Text.Letters
import AgentDesk.Proofs.Catalog.Tags
import AgentDesk.Proofs.Settings.Names
import AgentDesk.Proofs.Diagnosis
import AgentDesk.Proofs.Settings.Environment
import AgentDesk.Proofs.Settings.Demands
import AgentDesk.Proofs.Session.Period
import AgentDesk.Proofs.Session.Wiring
import AgentDesk.Proofs.Wire.Body
import AgentDesk.Proofs.Session.Spelling
import AgentDesk.Proofs.Desk.Spelling
