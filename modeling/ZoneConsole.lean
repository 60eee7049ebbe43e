import ZoneConsole.Api.Client
import ZoneConsole.Api.Error
import ZoneConsole.Api.ListOptions
import ZoneConsole.Api.Network
import ZoneConsole.Api.Resource
import ZoneConsole.Binary64
import ZoneConsole.Binary64.Reader
import ZoneConsole.Codec
import ZoneConsole.Codec.Record
import ZoneConsole.Command
import ZoneConsole.Command.Entities
import ZoneConsole.Command.Failure
import ZoneConsole.Command.Invoke
import ZoneConsole.Command.Line
import ZoneConsole.Command.Machine
import ZoneConsole.Command.Run
import ZoneConsole.Command.Settings
import ZoneConsole.CommandLine.Grammar
import ZoneConsole.CommandLine.Reader
import ZoneConsole.Console
import ZoneConsole.Console.Session
import ZoneConsole.Data
import ZoneConsole.Json
import ZoneConsole.Json.Number
import ZoneConsole.Json.Quoted
import ZoneConsole.Json.Reader
import ZoneConsole.Json.Writer
import ZoneConsole.Main
import ZoneConsole.Members
import ZoneConsole.Named
import ZoneConsole.Observable
import ZoneConsole.Observable.Follower
import ZoneConsole.Observable.Hub
import ZoneConsole.Observable.Session
import ZoneConsole.Proofs.Api.Endpoint
import ZoneConsole.Proofs.Command.Run
import ZoneConsole.Proofs.Command.Settings
import ZoneConsole.Proofs.Except
import ZoneConsole.Proofs.Members
import ZoneConsole.Proofs.Observable.Passive
import ZoneConsole.Proofs.Store.History
import ZoneConsole.Proofs.Store.Identity
import ZoneConsole.Proofs.Store.Ledger
import ZoneConsole.Proofs.Store.Overlap
import ZoneConsole.Proofs.Text.Utf8
import ZoneConsole.Proofs.Url.Append
import ZoneConsole.Proofs.Url.Percent
import ZoneConsole.Proofs.Url.Shape
import ZoneConsole.Reading
import ZoneConsole.Reading.Complaint
import ZoneConsole.Report
import ZoneConsole.Report.Table
import ZoneConsole.Settings
import ZoneConsole.Settings.Choice
import ZoneConsole.Settings.Error
import ZoneConsole.Settings.File
import ZoneConsole.Settings.Layer
import ZoneConsole.Settings.Variable
import ZoneConsole.Store
import ZoneConsole.Store.Collection
import ZoneConsole.Store.Ordering
import ZoneConsole.Text.Blank
import ZoneConsole.Text.Digits
import ZoneConsole.Text.Hidden
import ZoneConsole.Text.Lines
import ZoneConsole.Text.Quoted
import ZoneConsole.Text.Utf8
import ZoneConsole.Text.Width
import ZoneConsole.Timestamp
import ZoneConsole.Timestamp.Reader
import ZoneConsole.Timestamp.Writer
import ZoneConsole.Toml.Document
import ZoneConsole.Toml.Quoted
import ZoneConsole.Toml.Scalar
import ZoneConsole.Toml.Writer
import ZoneConsole.Url
import ZoneConsole.Url.Edit
import ZoneConsole.Url.Host
import ZoneConsole.Url.Parser
import ZoneConsole.Url.Percent
import ZoneConsole.Url.Punycode
import ZoneConsole.Wire.Qube
import ZoneConsole.Wire.System
import ZoneConsole.Wire.Time
import ZoneConsole.Wire.Zone
import ZoneConsole.Yaml
import ZoneConsole.Yaml.Scalar
import ZoneConsole.Proofs.Observable.ViewRuns
import ZoneConsole.Proofs.Codec.Recovers
import ZoneConsole.Proofs.Text.Digits
import ZoneConsole.Proofs.Codec.Record
import ZoneConsole.Proofs.Timestamp
import ZoneConsole.Proofs.Json.Quoted
import ZoneConsole.Proofs.Json.Tree
import ZoneConsole.Proofs.Wire
import ZoneConsole.Proofs.Toml.Line
import ZoneConsole.Proofs.Toml.Blocks
import ZoneConsole.Proofs.Toml.Tree
import ZoneConsole.Proofs.Settings.File
import ZoneConsole.Proofs.Toml.Stated
import ZoneConsole.Proofs.Settings.Loaded
import ZoneConsole.Proofs.Settings.Edit
import ZoneConsole.Proofs.Command.Overrides
import ZoneConsole.Proofs.Observable.Deeds
import ZoneConsole.Proofs.Observable.Delivery
import ZoneConsole.Proofs.Observable.Overtaking
import ZoneConsole.Proofs.Observable.Given
import ZoneConsole.Proofs.Store.Effective
import ZoneConsole.Proofs.Store.Flags
import ZoneConsole.Proofs.Store.OrderedMap
import ZoneConsole.Proofs.Store.Refinement
import ZoneConsole.Proofs.Api.Answers
import ZoneConsole.Proofs.Store.Publication
import ZoneConsole.Proofs.Store.Confluence
import ZoneConsole.Proofs.Settings.Variable
import ZoneConsole.Proofs.Settings.BaseOverride
import ZoneConsole.Proofs.Store.Agreement
import ZoneConsole.Proofs.Api.Confined
import ZoneConsole.Proofs.Api.Traffic
import ZoneConsole.Proofs.Command.Requests
import ZoneConsole.Proofs.Command.Discipline
import ZoneConsole.Proofs.Command.Sent
import ZoneConsole.Proofs.Command.Presentation
import ZoneConsole.Proofs.Observable.Cancelled
import ZoneConsole.Proofs.Command.Precedence
import ZoneConsole.Proofs.Api.Query
import ZoneConsole.Proofs.Command.FailedLoads
import ZoneConsole.Proofs.Api.Undocumented
import ZoneConsole.Proofs.Command.ZoneChange
import ZoneConsole.Proofs.Observable.Channels
import ZoneConsole.Proofs.Observable.Streams
import ZoneConsole.Proofs.Url.Punycode
import ZoneConsole.Proofs.Url.Split
import ZoneConsole.Proofs.Url.Name
import ZoneConsole.Proofs.Url.Address
import ZoneConsole.Proofs.Url.Host
import ZoneConsole.Proofs.Url.Encoded
import ZoneConsole.Proofs.Url.Segments
import ZoneConsole.Proofs.Url.Normal
import ZoneConsole.Proofs.Url.Roundtrip
import ZoneConsole.Proofs.Text.Blank
import ZoneConsole.Proofs.Api.Base
import ZoneConsole.Proofs.Api.Verdict
import ZoneConsole.Proofs.Command.Loads
import ZoneConsole.Proofs.Command.ExitCodes
import ZoneConsole.Proofs.Json.Layout
import ZoneConsole.Proofs.Command.Listing
import ZoneConsole.Proofs.Report.Sequences
import ZoneConsole.Proofs.Report.Table
import ZoneConsole.Proofs.Report.Bare
import ZoneConsole.Proofs.Report.Colour
import ZoneConsole.Proofs.Observable.Ledger
import ZoneConsole.Proofs.Observable.Registry
