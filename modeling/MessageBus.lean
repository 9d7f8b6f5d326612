import MessageBus.Cipher.Aes
import MessageBus.Cipher.Feedback
import MessageBus.Cipher.Sealed
import MessageBus.Codec
import MessageBus.CommandLine.Command
import MessageBus.CommandLine.Execute
import MessageBus.CommandLine.Grammar
import MessageBus.CommandLine.Manual
import MessageBus.Config.Paths
import MessageBus.Config.Sections
import MessageBus.Config.Settings
import MessageBus.Config.Store
import MessageBus.Config.Toml.Reader
import MessageBus.Config.Toml.Writer
import MessageBus.Connection.Handshake
import MessageBus.Connection.Program
import MessageBus.Connection.Requests
import MessageBus.Connection.RunCommand
import MessageBus.Connection.State
import MessageBus.Election
import MessageBus.Entropy
import MessageBus.Error
import MessageBus.Hub.Frame
import MessageBus.Hub.Realm
import MessageBus.Hub.Registry
import MessageBus.Hub.Route
import MessageBus.Hub.Sessions
import MessageBus.Hub.Settings
import MessageBus.Identity
import MessageBus.Introducer
import MessageBus.Json.Basic
import MessageBus.Json.Number
import MessageBus.Json.Reader
import MessageBus.Json.Writer
import MessageBus.KeySet
import MessageBus.Link.MemoryBus
import MessageBus.Link.Polling
import MessageBus.Link.Socket
import MessageBus.Main
import MessageBus.Message.Basic
import MessageBus.Message.Decode
import MessageBus.Message.Envelope
import MessageBus.Number.Binary64
import MessageBus.Number.Decimal
import MessageBus.Number.Shortest
import MessageBus.Simulation.BusScenario
import MessageBus.Simulation.Foreground
import MessageBus.Simulation.HubScenario
import MessageBus.Simulation.Machine
import MessageBus.Simulation.MemoryScenario
import MessageBus.Simulation.RegistryScenario
import MessageBus.Simulation.World
import MessageBus.Table
import MessageBus.Text.Base64
import MessageBus.Text.Blank
import MessageBus.Text.Bytes
import MessageBus.Text.Duration
import MessageBus.Text.Hidden
import MessageBus.Text.Quoted
import MessageBus.Text.Split
import MessageBus.Timestamp
import MessageBus.Transport
import MessageBus.Url.Basic
import MessageBus.Url.Host
import MessageBus.Url.Parser
import MessageBus.Url.Percent
import MessageBus.Url.Punycode
import MessageBus.Verbosity
import MessageBus.Proofs.Connection.Moves
import MessageBus.Proofs.Connection.Ledger
import MessageBus.Proofs.Connection.Progress
import MessageBus.Proofs.Codec.ClearText
import MessageBus.Proofs.Introducer.Duo
import MessageBus.Proofs.Introducer.Pending
import MessageBus.Proofs.Introducer.Recovery
import MessageBus.Proofs.Codec.RoundTrip
import MessageBus.Proofs.Hub.Commands
import MessageBus.Proofs.Hub.Clients
import MessageBus.Proofs.Hub.FanOut
import MessageBus.Proofs.Hub.Incarnations
import MessageBus.Proofs.Hub.Mailboxes
import MessageBus.Proofs.Hub.Registration
import MessageBus.Proofs.Hub.Sweeping
import MessageBus.Proofs.Hub.OneRealmPerName
import MessageBus.Proofs.Hub.Isolation
import MessageBus.Proofs.Hub.AtOnce
import MessageBus.Proofs.Connection.InboundStream
import MessageBus.Proofs.Config.QuotedText
import MessageBus.Proofs.Config.SectionFile
import MessageBus.Proofs.Config.WrittenSections
import MessageBus.Proofs.Config.StoreMaps
import MessageBus.Proofs.Bus.Stations
import MessageBus.Proofs.Bus.Deliveries
import MessageBus.Proofs.Handshake.Wording
import MessageBus.Proofs.Handshake.Conversation
import MessageBus.Proofs.Handshake.Workload
import MessageBus.Proofs.Handshake.Scene
import MessageBus.Proofs.Handshake.Soundness
import MessageBus.Proofs.Handshake.Completion
import MessageBus.Proofs.Introducer.Discretion
import MessageBus.Proofs.Introducer.Office
import MessageBus.Proofs.Handshake.Discipline
import MessageBus.Proofs.Url.Characters
import MessageBus.Proofs.Url.Punycode
import MessageBus.Proofs.Url.DomainName
import MessageBus.Proofs.Url.Addresses
import MessageBus.Proofs.Url.Authority
import MessageBus.Proofs.Transport.Descriptions
import MessageBus.Proofs.Hub.Routes
import MessageBus.Proofs.Transport.SubChannels
import MessageBus.Proofs.Introducer.Acknowledgements
import MessageBus.Proofs.Bus.InMemory
import MessageBus.Proofs.Bus.StableLinks
import MessageBus.Proofs.Bus.Order
import MessageBus.Proofs.Text.Trimming
import MessageBus.Proofs.Text.CanonicalBase64
import MessageBus.Proofs.Cipher.Exactness
import MessageBus.Proofs.KeySet.Extraction
import MessageBus.Proofs.Codec.Sealing
import MessageBus.Proofs.Codec.FirstKey
import MessageBus.Proofs.Json.FirstCharacter
import MessageBus.Proofs.Codec.Forwarding
import MessageBus.Proofs.Message.Forms
import MessageBus.Proofs.Message.Locality
import MessageBus.Proofs.Message.RoundTrip
import MessageBus.Proofs.Connection.Caller
import MessageBus.Proofs.Connection.Sending
import MessageBus.Proofs.Connection.Replies
import MessageBus.Proofs.Connection.OpenPlays
import MessageBus.Proofs.Handshake.Attempts
import MessageBus.Proofs.Connection.Confirmations
import MessageBus.Proofs.Json.Spaces
import MessageBus.Proofs.Hub.Transparency
import MessageBus.Proofs.Connection.Reopening
import MessageBus.Proofs.Introducer.Quiescence
import MessageBus.Proofs.Connection.Receipts
import MessageBus.Proofs.Connection.Desk
import MessageBus.Proofs.Connection.Flushes
import MessageBus.Proofs.Config.Layers
import MessageBus.Proofs.Link.MemoryLinks
import MessageBus.Proofs.Link.MemoryRuns
import MessageBus.Proofs.Connection.Listening
import MessageBus.Proofs.Connection.Deadlines
import MessageBus.Proofs.Connection.Demands
import MessageBus.Proofs.Connection.Endings
import MessageBus.Proofs.Connection.CommandRuns
import MessageBus.Proofs.Introducer.ElectionHistory
import MessageBus.Proofs.Config.FailedChanges
import MessageBus.Proofs.Link.Polls
import MessageBus.Proofs.Connection.PolledLink
