import ElementAgent.Agent
import ElementAgent.BigEndian
import ElementAgent.Bundle.Derived
import ElementAgent.Bundle.Directory
import ElementAgent.Call.Outcome
import ElementAgent.Call.Promise
import ElementAgent.Call.Table
import ElementAgent.CommandLine.Ending
import ElementAgent.CommandLine.Key
import ElementAgent.CommandLine.Notice
import ElementAgent.CommandLine.OneShot
import ElementAgent.CommandLine.Options
import ElementAgent.CommandLine.Peer
import ElementAgent.CommandLine.Program
import ElementAgent.CommandLine.Reading
import ElementAgent.CommandLine.Token
import ElementAgent.CommandLine.Writing
import ElementAgent.Controller
import ElementAgent.Element.Identity
import ElementAgent.Element.Namer
import ElementAgent.Element.Node
import ElementAgent.Element.Tree
import ElementAgent.Host.Fault
import ElementAgent.Host.Path
import ElementAgent.Host.Site
import ElementAgent.Link.AgentEnd
import ElementAgent.Link.AgentSession
import ElementAgent.Link.Connection
import ElementAgent.Link.ConnectionSession
import ElementAgent.Link.ControllerEnd
import ElementAgent.Link.ControllerSession
import ElementAgent.Link.Dialogue
import ElementAgent.Link.Pipe
import ElementAgent.Link.Wired
import ElementAgent.Main
import ElementAgent.Message
import ElementAgent.MessagePack.Fault
import ElementAgent.MessagePack.Marker
import ElementAgent.MessagePack.Reader
import ElementAgent.MessagePack.Shape
import ElementAgent.MessagePack.Writer
import ElementAgent.Proofs.Agent.Accounts
import ElementAgent.Proofs.Agent.Backpressure
import ElementAgent.Proofs.Agent.Books
import ElementAgent.Proofs.Agent.Clock
import ElementAgent.Proofs.Agent.FirstCome
import ElementAgent.Proofs.Agent.HealthChecks
import ElementAgent.Proofs.Agent.Hindsight
import ElementAgent.Proofs.Agent.Late
import ElementAgent.Proofs.Agent.Log
import ElementAgent.Proofs.Agent.Oversize
import ElementAgent.Proofs.Agent.Permits
import ElementAgent.Proofs.Agent.Reports
import ElementAgent.Proofs.Agent.Schedule
import ElementAgent.Proofs.Agent.Still
import ElementAgent.Proofs.Agent.Talk
import ElementAgent.Proofs.Agent.Timed
import ElementAgent.Proofs.Agent.Turns
import ElementAgent.Proofs.Agent.Work
import ElementAgent.Proofs.Bundle.Derivation
import ElementAgent.Proofs.Bundle.Labels
import ElementAgent.Proofs.Bundle.Names
import ElementAgent.Proofs.Call.Closing
import ElementAgent.Proofs.Call.Conservation
import ElementAgent.Proofs.Call.History
import ElementAgent.Proofs.Call.Honesty
import ElementAgent.Proofs.Call.Independence
import ElementAgent.Proofs.Call.Settled
import ElementAgent.Proofs.Call.Switchboard
import ElementAgent.Proofs.CommandLine.Serving
import ElementAgent.Proofs.CommandLine.SingleCalls
import ElementAgent.Proofs.CommandLine.Words
import ElementAgent.Proofs.Connection.Hindsight
import ElementAgent.Proofs.Connection.Ledger
import ElementAgent.Proofs.Connection.Progress
import ElementAgent.Proofs.Connection.Refinement
import ElementAgent.Proofs.Connection.Rest
import ElementAgent.Proofs.Connection.Traffic
import ElementAgent.Proofs.Connection.Work
import ElementAgent.Proofs.Controller.Dispatch
import ElementAgent.Proofs.Controller.Echoes
import ElementAgent.Proofs.Controller.Outbox
import ElementAgent.Proofs.Element.Agreement
import ElementAgent.Proofs.Element.Changes
import ElementAgent.Proofs.Element.Chronicle
import ElementAgent.Proofs.Element.DeviceRoots
import ElementAgent.Proofs.Element.Scene
import ElementAgent.Proofs.Host.Removals
import ElementAgent.Proofs.Keyed
import ElementAgent.Proofs.Link.Encoding
import ElementAgent.Proofs.Link.Ends
import ElementAgent.Proofs.MessagePack.Accounts
import ElementAgent.Proofs.MessagePack.Entries
import ElementAgent.Proofs.MessagePack.Forms
import ElementAgent.Proofs.MessagePack.Locality
import ElementAgent.Proofs.MessagePack.Metering
import ElementAgent.Proofs.MessagePack.Reads
import ElementAgent.Proofs.MessagePack.Skipping
import ElementAgent.Proofs.MessagePack.Values
import ElementAgent.Proofs.MessagePack.Walks
import ElementAgent.Proofs.Run
import ElementAgent.Proofs.Text.Integer
import ElementAgent.Proofs.Text.Utf8
import ElementAgent.Proofs.Wire.Chunks
import ElementAgent.Proofs.Wire.Forms
import ElementAgent.Proofs.Wire.Metering
import ElementAgent.Proofs.Wire.Prefixes
import ElementAgent.Proofs.Wire.Receptions
import ElementAgent.Proofs.Wire.RoundTrip
import ElementAgent.Proofs.Wire.Spellings
import ElementAgent.Proofs.Wire.Stream
import ElementAgent.Proofs.Wire.Truncation
import ElementAgent.Proofs.Wire.WellFormed
import ElementAgent.Text.Blank
import ElementAgent.Text.Decimal
import ElementAgent.Text.Duration
import ElementAgent.Text.Hidden
import ElementAgent.Text.Integer
import ElementAgent.Text.Plain
import ElementAgent.Text.Quoted
import ElementAgent.Text.Utf8
import ElementAgent.Wire.Codec
import ElementAgent.Wire.Format
import ElementAgent.Wire.Frame
import ElementAgent.Wire.Reception
