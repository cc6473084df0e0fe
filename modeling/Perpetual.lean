import Perpetual.Foundation.Machine
import Perpetual.Foundation.Cells
import Perpetual.Foundation.Text
import Perpetual.Foundation.Table
import Perpetual.Foundation.Ranking
import Perpetual.Foundation.Line
import Perpetual.Foundation.Deferred
import Perpetual.Foundation.Digraph
import Perpetual.Foundation.Attempt
import Perpetual.Foundation.Recent
import Perpetual.Foundation.Utf8
import Perpetual.Foundation.Utf16
import Perpetual.Foundation.Base64url
import Perpetual.Foundation.Lines
import Perpetual.Foundation.Json
import Perpetual.Foundation.JsonArray
import Perpetual.Foundation.Search
import Perpetual.Foundation.Base64
import Perpetual.Foundation.OrderedMap
import Perpetual.Foundation.Replies
import Perpetual.Foundation.StringDecoder
import Perpetual.Proto.Enums
import Perpetual.Admission.Controller
import Perpetual.Admission.Conservation
import Perpetual.Admission.Offers
import Perpetual.Admission.Wakeup
import Perpetual.Admission.Fairness
import Perpetual.Sessions.TaskStart
import Perpetual.Sessions.Steps
import Perpetual.Sessions.OneSession
import Perpetual.Sessions.Messages
import Perpetual.Starts.Task
import Perpetual.Starts.Thread
import Perpetual.Collaboration.Store
import Perpetual.Collaboration.Coordinator
import Perpetual.Collaboration.Fencing
import Perpetual.Collaboration.Exclusivity
import Perpetual.WorkGraph.Gating
import Perpetual.WorkGraph.EdgeRequests
import Perpetual.WorkGraph.EdgeAcyclicity
import Perpetual.WorkGraph.Plan
import Perpetual.WorkGraph.PlanRun
import Perpetual.WorkGraph.PlanSteps
import Perpetual.WorkGraph.PlanFinality
import Perpetual.WorkGraph.OneDriver
import Perpetual.WorkGraph.GatePause
import Perpetual.WorkGraph.Retries
import Perpetual.WorkGraph.RetryBudget
import Perpetual.Approvals.Registry
import Perpetual.Approvals.Agreement
import Perpetual.Approvals.Remote
import Perpetual.Approvals.Delivery
import Perpetual.Scheduler.Capacity
import Perpetual.Scheduler.Retry
import Perpetual.Thread.Queue
import Perpetual.Thread.Delivery
import Perpetual.Thread.Effects
import Perpetual.Thread.Kept
import Perpetual.Thread.OrderInvariant
import Perpetual.Thread.Order
import Perpetual.Launch.Lock
import Perpetual.Launch.Exclusion
import Perpetual.Launch.OneSession
import Perpetual.Launch.Apart
import Perpetual.Collaboration.ActiveThreads
import Perpetual.Collaboration.Calls
import Perpetual.Collaboration.CallSteps
import Perpetual.Collaboration.Resolution
import Perpetual.Collaboration.Completed
import Perpetual.Collaboration.Settlement
import Perpetual.Placement.Device
import Perpetual.Placement.Runs
import Perpetual.Placement.Cloud
import Perpetual.Fallback.Thread
import Perpetual.Fallback.SwitchBack
import Perpetual.WorkLocks.Calls
import Perpetual.WorkLocks.Held
import Perpetual.Events.Bus
import Perpetual.Events.Forwarding
import Perpetual.Events.Continuity
import Perpetual.Pairing.Frames
import Perpetual.Pairing.Stream
import Perpetual.Pairing.Sides
import Perpetual.Pairing.Integrity
import Perpetual.Pairing.Host
import Perpetual.Pairing.Client
import Perpetual.Pairing.Revocation
import Perpetual.Pairing.Records
import Perpetual.Pairing.Enrolment
import Perpetual.Pairing.Stages
import Perpetual.Pairing.Recovery
import Perpetual.Attachments.Envelope
import Perpetual.Attachments.Workspace
import Perpetual.Attachments.Reading
import Perpetual.Attachments.Saving
import Perpetual.Attachments.RoundTrip
import Perpetual.WorkGraph.FinishedNodes
import Perpetual.WorkGraph.Progress
import Perpetual.WorkGraph.Blocking
import Perpetual.WorkGraph.Hierarchy
import Perpetual.WorkGraph.Forest
import Perpetual.WorkGraph.PlanOptions
import Perpetual.Collaboration.Staleness
import Perpetual.Scheduler.ThreadPhases
import Perpetual.Scheduler.StartAttempts
import Perpetual.Scheduler.AssignedThreads
import Perpetual.Worker.Job
import Perpetual.Worker.Poll
import Perpetual.Worker.Steps
import Perpetual.Worker.Polled
import Perpetual.Worker.Moves
import Perpetual.Worker.Course
import Perpetual.Worker.Registration
import Perpetual.Worker.Slots
import Perpetual.Worker.Instructions
import Perpetual.Worker.Continuation
import Perpetual.WorkGraph.LostWork
import Perpetual.WorkGraph.ContinueMode
import Perpetual.Webview.Streaming
import Perpetual.Daemon.Client
import Perpetual.Daemon.NodeClient
import Perpetual.Daemon.Chunking
import Perpetual.Codex.AppServer
import Perpetual.Context.ProgressLog
import Perpetual.Placement.Handoff
import Perpetual.Placement.Admission
import Perpetual.Placement.Reclaim
import Perpetual.Budget.Enforcement
import Perpetual.Budget.Turn
import Perpetual.Budget.ProviderLimit
import Perpetual.Accounts.Policy
import Perpetual.Accounts.Pool
import Perpetual.Events.Replay
import Perpetual.Budget.Weekly
import Perpetual.Claude.TokenUsage
import Perpetual.WorkGraph.SubtreeSize
import Perpetual.WorkGraph.Siblings
import Perpetual.WorkLocks.FailedStart
import Perpetual.Sessions.Settling
import Perpetual.Thread.Settling
import Perpetual.Thread.Editing
import Perpetual.Proto.Availability
import Perpetual.Availability.Backoff
import Perpetual.Availability.ResetTime
import Perpetual.Fallback.Models
import Perpetual.Accounts.Readiness
import Perpetual.Foundation.EachStep
import Perpetual.Foundation.Slots
import Perpetual.Foundation.Normal
import Perpetual.Foundation.Offsets
import Perpetual.Foundation.Chunks
import Perpetual.Accounts.Normalized
import Perpetual.Runtime.Diagnostics
import Perpetual.Runtime.FixedCuts
import Perpetual.Claude.ModelScan
import Perpetual.Vcs.Overwrite
import Perpetual.Vcs.Replacing
import Perpetual.Vcs.AllOrNothing
import Perpetual.Thread.Applying
import Perpetual.Thread.Offers
import Perpetual.Thread.AppliedTogether
import Perpetual.Foundation.Rewriting
import Perpetual.Foundation.Casing
import Perpetual.Foundation.Greedy
import Perpetual.Foundation.Masking
import Perpetual.Context.ManagedBlocks
import Perpetual.Pairing.Limits
import Perpetual.Pairing.Payloads
import Perpetual.Worker.Remotes
import Perpetual.Worker.Repositories
import Perpetual.Worker.Redaction
import Perpetual.Worker.RedactionScan
import Perpetual.Worker.RedactedTokens
import Perpetual.Webview.Markdown
import Perpetual.Webview.MarkdownEnds
import Perpetual.Webview.Transcript
import Perpetual.Webview.TranscriptMessages
import Perpetual.Context.FileIndex
import Perpetual.Context.FromScratch
import Perpetual.Context.FastPath
import Perpetual.Context.Packet
import Perpetual.Foundation.Rectangles
import Perpetual.Foundation.Layering
import Perpetual.Layout.Graph
import Perpetual.Layout.Layers
import Perpetual.Layout.Compute
import Perpetual.Layout.Placed
import Perpetual.Layout.Apart
import Perpetual.Layout.LeftToRight
import Perpetual.Layout.Flow
import Perpetual.Layout.Pins
