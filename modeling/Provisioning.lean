import Provisioning.Main
import Provisioning.Number.Reading
import Provisioning.Proofs.Http.RecordUrl
import Provisioning.Proofs.Http.Client
import Provisioning.Proofs.Http.Answers
import Provisioning.Proofs.Http.Exchanges
import Provisioning.Proofs.Session.EventLog
import Provisioning.Proofs.Session.FetchTimes
import Provisioning.Proofs.Session.Finality
import Provisioning.Proofs.Session.Flight
import Provisioning.Proofs.Session.Listing
import Provisioning.Proofs.Session.Progress
import Provisioning.Proofs.Session.Terminal
import Provisioning.Proofs.Session.Timetable
import Provisioning.Proofs.Session.Waiting
import Provisioning.Proofs.Text.Utf8
import Provisioning.Proofs.Url.Percent
import Provisioning.Proofs.Url.Segments
import Provisioning.Proofs.Config.Lengths
import Provisioning.Proofs.CommandLine.Layers
import Provisioning.Proofs.Text.Digits
import Provisioning.Proofs.Json.Tokens
import Provisioning.Proofs.Json.NumberText
import Provisioning.Proofs.Json.NumberLiteral
import Provisioning.Proofs.Json.StringText
import Provisioning.Proofs.Json.ValueText
import Provisioning.Proofs.Json.Members
import Provisioning.Proofs.Json.Reread
import Provisioning.Proofs.Json.Decode
import Provisioning.Proofs.Stage.Reread
import Provisioning.Proofs.Config.Omission
import Provisioning.Proofs.Json.Reading
import Provisioning.Proofs.Application.Record
import Provisioning.Proofs.Application.Texts
import Provisioning.Proofs.Cancellation.Race
import Provisioning.Proofs.Cancellation.WholeCalls
import Provisioning.Proofs.Cancellation.Settled
import Provisioning.Proofs.Stage.Sources
import Provisioning.Proofs.Stage.Faults
import Provisioning.Proofs.Config.Levels
import Provisioning.Proofs.Config.Tables
import Provisioning.Proofs.Progress.Following
import Provisioning.Proofs.Progress.Readings
import Provisioning.Proofs.CommandLine.Turns
import Provisioning.Proofs.Session.Rounds
import Provisioning.Proofs.CommandLine.Printing
import Provisioning.Proofs.Application.Edits
import Provisioning.Proofs.Navigation.Delivery
import Provisioning.Proofs.Number.NearestDouble
import Provisioning.Proofs.Time.Exactness
import Provisioning.Proofs.Config.Intervals
import Provisioning.Proofs.Time.Calendar
import Provisioning.Proofs.Text.Fields
import Provisioning.Proofs.Time.Stamps
import Provisioning.Proofs.Stage.Names
import Provisioning.Proofs.Fetch.Script
import Provisioning.Proofs.Event.Payload
import Provisioning.Proofs.Url.Paths
import Provisioning.Proofs.Url.Reading
import Provisioning.Proofs.Url.TrailingSlash
import Provisioning.Proofs.Http.ListUrl
