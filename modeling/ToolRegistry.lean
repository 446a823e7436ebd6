import ToolRegistry.Address
import ToolRegistry.Client.Connection
import ToolRegistry.Client.Exchange
import ToolRegistry.Client.Link
import ToolRegistry.Client.Network
import ToolRegistry.Client.Operations
import ToolRegistry.Client.Recording
import ToolRegistry.CommandLine.Arguments
import ToolRegistry.CommandLine.Client
import ToolRegistry.CommandLine.Finished
import ToolRegistry.CommandLine.Report
import ToolRegistry.CommandLine.Server
import ToolRegistry.CommandLine.Surroundings
import ToolRegistry.CommandLine.Task
import ToolRegistry.Entry.Field
import ToolRegistry.Entry.FieldSet
import ToolRegistry.Entry.Fields
import ToolRegistry.Error
import ToolRegistry.FileSystem
import ToolRegistry.FileSystem.Node
import ToolRegistry.IpAddress
import ToolRegistry.Json
import ToolRegistry.Launch
import ToolRegistry.Listen
import ToolRegistry.Location
import ToolRegistry.LogLevel
import ToolRegistry.Main
import ToolRegistry.Path
import ToolRegistry.Proofs.Accepted
import ToolRegistry.Proofs.Agreement
import ToolRegistry.Proofs.Announcements
import ToolRegistry.Proofs.Answers
import ToolRegistry.Proofs.Appends
import ToolRegistry.Proofs.Bodies
import ToolRegistry.Proofs.Changes
import ToolRegistry.Proofs.Conversations
import ToolRegistry.Proofs.CutEntries
import ToolRegistry.Proofs.CutReplies
import ToolRegistry.Proofs.Cuts
import ToolRegistry.Proofs.Decimals
import ToolRegistry.Proofs.Directories
import ToolRegistry.Proofs.Documents
import ToolRegistry.Proofs.Edits
import ToolRegistry.Proofs.Endings
import ToolRegistry.Proofs.EntryCodec
import ToolRegistry.Proofs.EntryLines
import ToolRegistry.Proofs.Exchanges
import ToolRegistry.Proofs.FieldPairs
import ToolRegistry.Proofs.Files
import ToolRegistry.Proofs.FilledTemplates
import ToolRegistry.Proofs.Framing
import ToolRegistry.Proofs.History
import ToolRegistry.Proofs.InPlace
import ToolRegistry.Proofs.InStep
import ToolRegistry.Proofs.KeptConnections
import ToolRegistry.Proofs.Lifetimes
import ToolRegistry.Proofs.Locations
import ToolRegistry.Proofs.Lookup
import ToolRegistry.Proofs.Operations
import ToolRegistry.Proofs.PairGrammar
import ToolRegistry.Proofs.Payloads
import ToolRegistry.Proofs.Ports
import ToolRegistry.Proofs.Positions
import ToolRegistry.Proofs.QuotedStrings
import ToolRegistry.Proofs.Reachable
import ToolRegistry.Proofs.Refinement
import ToolRegistry.Proofs.RequestLanguage
import ToolRegistry.Proofs.Requests
import ToolRegistry.Proofs.Rereading
import ToolRegistry.Proofs.SavedFiles
import ToolRegistry.Proofs.SavedSettings
import ToolRegistry.Proofs.Schedules
import ToolRegistry.Proofs.Searches
import ToolRegistry.Proofs.Segments
import ToolRegistry.Proofs.ServiceSessions
import ToolRegistry.Proofs.SharedPeer
import ToolRegistry.Proofs.Sizes
import ToolRegistry.Proofs.Snapshots
import ToolRegistry.Proofs.Streams
import ToolRegistry.Proofs.TextByText
import ToolRegistry.Proofs.Traffic
import ToolRegistry.Proofs.Utf8
import ToolRegistry.Proofs.Ways
import ToolRegistry.Resolver
import ToolRegistry.Service
import ToolRegistry.Session
import ToolRegistry.Settings
import ToolRegistry.Settings.Document
import ToolRegistry.Settings.File
import ToolRegistry.Settings.Setting
import ToolRegistry.Store
import ToolRegistry.Text
import ToolRegistry.Text.Decimal
import ToolRegistry.Text.Digits
import ToolRegistry.Text.Shown
import ToolRegistry.Text.Unseen
import ToolRegistry.Text.Utf8
import ToolRegistry.Text.WhiteSpace
import ToolRegistry.Toml.Document
import ToolRegistry.Toml.Moment
import ToolRegistry.Toml.Number
import ToolRegistry.Toml.Quoted
import ToolRegistry.Toml.Section
import ToolRegistry.Toml.Value
import ToolRegistry.Wire.Command
import ToolRegistry.Wire.CommandKind
import ToolRegistry.Wire.EntryLine
import ToolRegistry.Wire.FieldPairs
import ToolRegistry.Wire.LineRead
import ToolRegistry.Wire.Pair
import ToolRegistry.Wire.Payload
import ToolRegistry.Wire.Reply
import ToolRegistry.Wire.Status
import ToolRegistry.Wire.Template
import ToolRegistry.Wire.TextArgument
import ToolRegistry.Wire.Token
