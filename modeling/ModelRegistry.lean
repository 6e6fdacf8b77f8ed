import ModelRegistry.Acquisition
import ModelRegistry.AddressTable
import ModelRegistry.Backend
import ModelRegistry.Backoff
import ModelRegistry.Binary64
import ModelRegistry.Cache
import ModelRegistry.Call
import ModelRegistry.Chance
import ModelRegistry.Client
import ModelRegistry.Connection
import ModelRegistry.Error
import ModelRegistry.Exchange
import ModelRegistry.Ident
import ModelRegistry.Json.Read
import ModelRegistry.Json.Value
import ModelRegistry.MemoryRegistry
import ModelRegistry.Model
import ModelRegistry.Replica
import ModelRegistry.Request
import ModelRegistry.Settings
import ModelRegistry.SettingsFile
import ModelRegistry.Simulation.Begin
import ModelRegistry.Simulation.Move
import ModelRegistry.Simulation.Run
import ModelRegistry.Simulation.Schedule
import ModelRegistry.Simulation.Step
import ModelRegistry.Simulation.Task
import ModelRegistry.StandIn
import ModelRegistry.Subscription
import ModelRegistry.Text.Reader
import ModelRegistry.Toml.Document
import ModelRegistry.Toml.Moment
import ModelRegistry.Toml.Scalar
import ModelRegistry.Toml.Value
import ModelRegistry.Trial
import ModelRegistry.Watch
import ModelRegistry.Wire
import ModelRegistry.Proofs.AddressSet
import ModelRegistry.Proofs.Journal
import ModelRegistry.Proofs.Subscribing
import ModelRegistry.Proofs.Watching
import ModelRegistry.Proofs.Synchrony
import ModelRegistry.Proofs.Resumption
import ModelRegistry.Proofs.Sessions
import ModelRegistry.Proofs.Disappearance
import ModelRegistry.Proofs.ChangeLog
import ModelRegistry.Proofs.Upkeep
import ModelRegistry.Proofs.Inquiry
import ModelRegistry.Proofs.Following
import ModelRegistry.Proofs.Coordination
import ModelRegistry.Proofs.Orderliness
import ModelRegistry.Proofs.Bystanders
import ModelRegistry.Proofs.Spawning
import ModelRegistry.Proofs.Beginning
import ModelRegistry.Proofs.Hearing
import ModelRegistry.Proofs.Asking
import ModelRegistry.Proofs.Moves
import ModelRegistry.Proofs.Runs
import ModelRegistry.Proofs.Convergence
import ModelRegistry.Proofs.Delivery
import ModelRegistry.Proofs.Crew
import ModelRegistry.Proofs.Lifecycle
import ModelRegistry.Proofs.Sharing
import ModelRegistry.Proofs.Traffic
import ModelRegistry.Proofs.SingleFlight
import ModelRegistry.Proofs.Conservation
import ModelRegistry.Proofs.Discarding
import ModelRegistry.Proofs.Conveyance
import ModelRegistry.Proofs.Pauses
import ModelRegistry.Proofs.Rounding
import ModelRegistry.Proofs.Catalog
import ModelRegistry.Proofs.Sparing
import ModelRegistry.Proofs.History
import ModelRegistry.Proofs.Atomicity
import ModelRegistry.Proofs.Renewal
import ModelRegistry.Proofs.Reading
import ModelRegistry.Proofs.Encoding
import ModelRegistry.Proofs.Waiting
import ModelRegistry.Proofs.Attempts
import ModelRegistry.Proofs.Dialing
import ModelRegistry.Proofs.Fleet
import ModelRegistry.Proofs.Independence
import ModelRegistry.Proofs.LastWord
import ModelRegistry.Proofs.Answers
import ModelRegistry.Proofs.Deadlines
import ModelRegistry.Proofs.Errands
import ModelRegistry.Proofs.Recutting
import ModelRegistry.Proofs.Decoding
import ModelRegistry.Proofs.Connecting
import ModelRegistry.Proofs.Refusal
import ModelRegistry.Proofs.Enactment
import ModelRegistry.Proofs.Staffing
import ModelRegistry.Proofs.Drawing
import ModelRegistry.Proofs.ByteOrder
import ModelRegistry.Proofs.DistinctKeys
import ModelRegistry.Proofs.Description
import ModelRegistry.Proofs.Acceptance
