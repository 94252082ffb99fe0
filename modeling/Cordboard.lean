import Cordboard.Effects.Interleaving
import Cordboard.Effects.Schedule
import Cordboard.Effects.Watch
import Cordboard.Effects.Budget
import Cordboard.Effects.Linear
import Cordboard.Effects.Monitor
import Cordboard.Effects.Session
import Cordboard.Effects.Telling
import Cordboard.Data.Dict
import Cordboard.Data.Outcome
import Cordboard.Data.Group
import Cordboard.Data.Periods
import Cordboard.Data.Delivery
import Cordboard.Data.Percent
import Cordboard.Data.Ancestry
import Cordboard.Data.EventStream
import Cordboard.Data.Layers
import Cordboard.Data.Joined
import Cordboard.Data.Keyed
import Cordboard.Construction.Json
import Cordboard.Construction.JsonText
import Cordboard.Construction.Board
import Cordboard.Construction.Semantics
import Cordboard.Construction.Claims
import Cordboard.Construction.Tracking
import Cordboard.Construction.Lifecycle
import Cordboard.Construction.Router
import Cordboard.Construction.Signals
import Cordboard.Construction.Rules
import Cordboard.Construction.ApprovalInbox
import Cordboard.Construction.Discovery
import Cordboard.Construction.LiveRun
import Cordboard.Construction.Polling
import Cordboard.Construction.EventStream
import Cordboard.Construction.Operations
import Cordboard.Construction.Telemetry
import Cordboard.Construction.Archive.Query
import Cordboard.Construction.Archive.Langfuse
import Cordboard.Construction.Archive.Read
import Cordboard.Construction.Archive.Health
import Cordboard.Construction.Archive.Check
import Cordboard.Construction.Archive.Execution
import Cordboard.Construction.Archive.PublicReader
import Cordboard.Construction.Callbacks
import Cordboard.Construction.Viewer.Tree
import Cordboard.Construction.Viewer.Catalog
import Cordboard.Construction.Convergence
import Cordboard.Construction.Viewer.Scope
import Cordboard.Construction.Url
import Cordboard.Construction.Connections
import Cordboard.Proof.Registry.Authority
import Cordboard.Proof.Registry.History
import Cordboard.Construction.Topology
import Cordboard.Proof.Topology.Freshness
import Cordboard.Proof.Topology.Correlation
import Cordboard.Proof.Topology.Interrupts
import Cordboard.Construction.Web.Layout
import Cordboard.Construction.Web.Expansions
import Cordboard.Construction.Web.RunTopology
import Cordboard.Construction.Web.Routes
import Cordboard.Construction.Web.Observation
import Cordboard.Construction.Web.Stream
import Cordboard.Construction.Web.Controls
import Cordboard.Proof.Script
import Cordboard.Proof.Footprint
import Cordboard.Proof.Primitives
import Cordboard.Proof.Frame
import Cordboard.Proof.Stores
import Cordboard.Proof.Records
import Cordboard.Proof.Watching
import Cordboard.Proof.Continuity.Identity
import Cordboard.Proof.Response.SlotProtocol
import Cordboard.Proof.Response.SlotInvariant
import Cordboard.Proof.Response.ResumeOnce
import Cordboard.Proof.Response.Favour
import Cordboard.Proof.Response.Conclusion
import Cordboard.Proof.Response.Hearing
import Cordboard.Proof.Response.Availability
import Cordboard.Proof.Response.Verdict
import Cordboard.Proof.Response.Settlement
import Cordboard.Proof.Response.Authority
import Cordboard.Proof.Response.OneOutcome
import Cordboard.Proof.Response.AcceptedResume
import Cordboard.Proof.Cascade.Provenance
import Cordboard.Proof.Cascade.CascadeRoute
import Cordboard.Proof.Cascade.CascadeSweep
import Cordboard.Proof.Cascade.CascadeDepth
import Cordboard.Proof.Cascade.CascadeResume
import Cordboard.Proof.Cascade.SameCompletion
import Cordboard.Proof.Pending.NeverLost
import Cordboard.Proof.Signal.ClaimProtocol
import Cordboard.Proof.Signal.SubmitOnce
import Cordboard.Proof.Signal.DedupeLaw
import Cordboard.Proof.Signal.Sources
import Cordboard.Proof.Rules.Matching
import Cordboard.Proof.Rules.SelfLoop
import Cordboard.Proof.Rules.Priority
import Cordboard.Proof.Rules.Diagnostics
import Cordboard.Proof.Deployment.CounterProtocol
import Cordboard.Proof.Deployment.ActivityCount
import Cordboard.Proof.Deployment.ClaimLedger
import Cordboard.Proof.Deployment.IdleClock
import Cordboard.Proof.Deployment.IdleWindow
import Cordboard.Proof.Deployment.IdleRuns
import Cordboard.Proof.Sweep.HandoverProtocol
import Cordboard.Proof.Sweep.HandoverSweep
import Cordboard.Proof.Sweep.ReleaseOnce
import Cordboard.Proof.Sweep.FinishWatch
import Cordboard.Proof.Sweep.FinishRoute
import Cordboard.Proof.Sweep.CompletionKept
import Cordboard.Proof.Concurrency.LiveHold
import Cordboard.Proof.Concurrency.OwnerProtocol
import Cordboard.Proof.Concurrency.OwnerRoute
import Cordboard.Proof.Concurrency.HolderOnly
import Cordboard.Proof.Concurrency.LinearStores
import Cordboard.Proof.Concurrency.Linearizable
import Cordboard.Proof.Concurrency.TimeoutProtocol
import Cordboard.Proof.Concurrency.MixedTimeouts
import Cordboard.Proof.Approval.Clock
import Cordboard.Proof.Approval.ClockRun
import Cordboard.Proof.Approval.ClockLaw
import Cordboard.Proof.Approval.Scan
import Cordboard.Proof.Approval.Shapes
import Cordboard.Proof.Approval.Isolation
import Cordboard.Proof.Archive.Checked
import Cordboard.Proof.Archive.Attributes
import Cordboard.Proof.Archive.Forest
import Cordboard.Proof.Archive.Equality
import Cordboard.Proof.Archive.Alike
import Cordboard.Proof.Archive.Reading
import Cordboard.Proof.Archive.Holding
import Cordboard.Proof.Archive.Layout
import Cordboard.Proof.Archive.FirstArrival
import Cordboard.Proof.Archive.Escalations
import Cordboard.Proof.Archive.Projection
import Cordboard.Proof.Archive.PublicReads
import Cordboard.Proof.Archive.Comparison
import Cordboard.Proof.Archive.Deadline
import Cordboard.Proof.Archive.TimeSpent
import Cordboard.Proof.Archive.ClosedHealth
import Cordboard.Proof.Archive.Below
import Cordboard.Proof.Archive.TailHealth
import Cordboard.Proof.Archive.Snapshots
import Cordboard.Proof.Archive.RecordTexts
import Cordboard.Proof.Archive.CheckLoops
import Cordboard.Proof.Archive.CheckCode
import Cordboard.Proof.Archive.Refinement
import Cordboard.Proof.Archive.Twins
import Cordboard.Proof.Archive.Rows
import Cordboard.Proof.Archive.Termination
import Cordboard.Proof.Archive.Accepting
import Cordboard.Proof.Archive.Acceptance
import Cordboard.Proof.Archive.Producer
import Cordboard.Proof.Archive.Agreement
import Cordboard.Proof.Archive.Emission
import Cordboard.Proof.Archive.ProducerReader
import Cordboard.Proof.View.WatchQueue
import Cordboard.Proof.View.LiveWatch
import Cordboard.Proof.Backend.Polling
import Cordboard.Proof.Backend.EventStream
import Cordboard.Proof.Backend.Reconnect
import Cordboard.Proof.View.Reflection
import Cordboard.Proof.View.Replay
import Cordboard.Proof.View.Terminality
import Cordboard.Proof.View.Convergence
import Cordboard.Proof.View.Entries
import Cordboard.Proof.View.Building
import Cordboard.Proof.View.Tables
import Cordboard.Proof.View.Timeline
import Cordboard.Proof.View.Assembly
import Cordboard.Proof.View.Placement
import Cordboard.Proof.View.Lossless
import Cordboard.Proof.View.InputOrder
import Cordboard.Proof.View.LosslessTree
import Cordboard.Proof.View.Conservation
import Cordboard.Proof.View.Scoping
import Cordboard.Proof.Telemetry.Leaves
import Cordboard.Proof.Telemetry.Redaction
import Cordboard.Proof.Callbacks.Duties
import Cordboard.Proof.Callbacks.Ledger
import Cordboard.Proof.Callbacks.Openings
import Cordboard.Proof.Callbacks.Discipline
import Cordboard.Proof.Callbacks.SpansEnded
import Cordboard.Proof.Web.UrlRoundTrip
import Cordboard.Proof.JsonText
import Cordboard.Proof.Web.Stream
import Cordboard.Proof.Web.Spending
import Cordboard.Proof.Web.SingleUse
import Cordboard.Proof.Web.Layering
import Cordboard.Proof.Web.Boxes
import Cordboard.Proof.Web.References
import Cordboard.Proof.Web.Expansions
import Cordboard.Proof.Web.RunOverlay
import Cordboard.Proof.Web.CallKeys
import Cordboard.Proof.Web.Observation
