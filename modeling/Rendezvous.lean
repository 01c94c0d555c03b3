import Rendezvous.Claims
import Rendezvous.Config.Basic
import Rendezvous.Config.Disk
import Rendezvous.Config.Source
import Rendezvous.Config.Validation
import Rendezvous.Correlation
import Rendezvous.DeadLetter
import Rendezvous.Decimal.Layout
import Rendezvous.Decimal.Shortest
import Rendezvous.Dict
import Rendezvous.Engine.Basic
import Rendezvous.Engine.Command
import Rendezvous.Failure
import Rendezvous.Faults
import Rendezvous.Flow.Aggregation
import Rendezvous.Flow.Basic
import Rendezvous.Flow.Chain
import Rendezvous.Flow.Guarded
import Rendezvous.Flow.Reconciliation
import Rendezvous.Flow.Settings
import Rendezvous.Flow.World
import Rendezvous.Group.Basic
import Rendezvous.Group.Release
import Rendezvous.Group.Store
import Rendezvous.Identity.Digest
import Rendezvous.Identity.Uuid
import Rendezvous.Json.Lexeme
import Rendezvous.Json.Printer
import Rendezvous.Json.Problem
import Rendezvous.Json.Reader
import Rendezvous.Json.Record
import Rendezvous.Json.Skip
import Rendezvous.Json.Value
import Rendezvous.Lock.Desk
import Rendezvous.Lock.Table
import Rendezvous.Message.Basic
import Rendezvous.Message.EventType
import Rendezvous.Message.Names
import Rendezvous.Message.Payload
import Rendezvous.Metrics.Basic
import Rendezvous.Metrics.Exposition
import Rendezvous.Proofs.Account
import Rendezvous.Proofs.Acknowledgement
import Rendezvous.Proofs.Alone
import Rendezvous.Proofs.Attempt
import Rendezvous.Proofs.Bookkeeping
import Rendezvous.Proofs.Cancellation
import Rendezvous.Proofs.Claims
import Rendezvous.Proofs.Conservation
import Rendezvous.Proofs.Correlation
import Rendezvous.Proofs.Course
import Rendezvous.Proofs.Dispatch
import Rendezvous.Proofs.Draining
import Rendezvous.Proofs.Forgetting
import Rendezvous.Proofs.Group.Growth
import Rendezvous.Proofs.Group.Replay
import Rendezvous.Proofs.Group.Stock
import Rendezvous.Proofs.Group.Store
import Rendezvous.Proofs.Group.Yield
import Rendezvous.Proofs.History
import Rendezvous.Proofs.Idempotence
import Rendezvous.Proofs.Identity
import Rendezvous.Proofs.Isolation
import Rendezvous.Proofs.Json.Lexeme
import Rendezvous.Proofs.Json.Record
import Rendezvous.Proofs.Json.Value
import Rendezvous.Proofs.LetterWindow
import Rendezvous.Proofs.Letters
import Rendezvous.Proofs.Lock.Custody
import Rendezvous.Proofs.Lock.Identity
import Rendezvous.Proofs.Lock.Interrupt
import Rendezvous.Proofs.Lock.Template
import Rendezvous.Proofs.Matching
import Rendezvous.Proofs.Membership
import Rendezvous.Proofs.Naming
import Rendezvous.Proofs.Nesting
import Rendezvous.Proofs.Outcome
import Rendezvous.Proofs.Pairing
import Rendezvous.Proofs.Payload
import Rendezvous.Proofs.Priming
import Rendezvous.Proofs.Progress
import Rendezvous.Proofs.Receiving
import Rendezvous.Proofs.Reception
import Rendezvous.Proofs.Reconciliation
import Rendezvous.Proofs.Redelivery
import Rendezvous.Proofs.Releasing
import Rendezvous.Proofs.Renaming.Flow
import Rendezvous.Proofs.Repetition
import Rendezvous.Proofs.Retrying
import Rendezvous.Proofs.Routing
import Rendezvous.Proofs.Section
import Rendezvous.Proofs.Serial
import Rendezvous.Proofs.Sound
import Rendezvous.Proofs.Spelling
import Rendezvous.Proofs.Station
import Rendezvous.Proofs.Text
import Rendezvous.Proofs.Traffic
import Rendezvous.Proofs.Trail
import Rendezvous.Proofs.Transport.Record
import Rendezvous.Proofs.Transport.Settling
import Rendezvous.Proofs.Triggering
import Rendezvous.Retry
import Rendezvous.Schedule
import Rendezvous.Simulation.Bench
import Rendezvous.Simulation.Conversation
import Rendezvous.Simulation.Outlet
import Rendezvous.Simulation.Plugins
import Rendezvous.Simulation.Sections
import Rendezvous.Simulation.Service
import Rendezvous.Simulation.View
import Rendezvous.Text.Blank
import Rendezvous.Text.Bytes
import Rendezvous.Text.Printable
import Rendezvous.Text.Quoted
import Rendezvous.Time.Clock
import Rendezvous.Time.Span
import Rendezvous.Time.Stamp
import Rendezvous.Toml.Document
import Rendezvous.Toml.Lexeme
import Rendezvous.Toml.Value
import Rendezvous.Transport.ClientSetting
import Rendezvous.Transport.Publisher
import Rendezvous.Transport.Record
import Rendezvous.Transport.Settling
