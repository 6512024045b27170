import H2a.Library.JsMap
import H2a.Library.JsString
import H2a.Library.Result
import H2a.Library.Utf8
import H2a.Library.Json
import H2a.Library.JsonRoundTrip
import H2a.Library.JsonInteger
import H2a.Library.Checker
import H2a.Library.Transition
import H2a.Track.Events.Types
import H2a.Track.Events.Validate
import H2a.Track.Events.Sound
import H2a.Track.Events.Tamper
import H2a.Track.Model.Event
import H2a.Track.Facade.Demands
import H2a.Track.Facade.Decisions
import H2a.Track.Facade.Branch
import H2a.Track.State.Aspects
import H2a.Track.Facade.Reachable
import H2a.Track.Facade.Codes
import H2a.Track.Facade.DemandLifecycle
import H2a.Track.Facade.Duplicates
import H2a.Track.Facade.Closures
import H2a.Track.Facade.Hierarchy
import H2a.Track.Facade.Gates
import H2a.Library.Concurrent
import H2a.Library.Sequential
import H2a.Track.Events.Batch
import H2a.Track.Events.Reseal
import H2a.Track.Events.ResealExact
import H2a.Track.Events.Merge
import H2a.Track.Events.Store
import H2a.Track.Events.Lock
import H2a.Track.Events.Line
import H2a.Track.Events.LogFile
import H2a.Track.Events.Crash
import H2a.Track.Events.Canonical
import H2a.LocalFiles.LocksExclusive
import H2a.LocalFiles.LeaseExclusive
import H2a.Track.Report.Traversals
import H2a.Track.Report.Clip
import H2a.Track.Report.TaskLevel
import H2a.Track.Report.RollupsAgree
import H2a.Track.Report.LabelsDistinct
import H2a.Track.Report.RunsShown
import H2a.Track.Cli.PlanApplied
import H2a.Track.Branch.Reimport
import H2a.Track.State.Snapshot
import H2a.Track.State.Reopenings
import H2a.Track.Lease.StealSafe
import H2a.Library.JsObject
import H2a.Library.Jsonl
import H2a.Library.JsonOrder
import H2a.Protocol.Canonical
import H2a.Protocol.Envelope
import H2a.Protocol.Journal
import H2a.Protocol.Authority
import H2a.LocalFiles.Keyring
import H2a.LocalFiles.Paths
import H2a.LocalFiles.Negotiation
import H2a.LocalFiles.Stabilize
import H2a.LocalFiles.Finality
import H2a.LocalFiles.Quorum
import H2a.LocalFiles.StabilizeRetry
import H2a.LocalFiles.OffboardComplete
import H2a.LocalFiles.MailboxSafe
import H2a.Protocol.ReplaySafe
import H2a.Runtime.LineageFenced
import H2a.Runtime.JobSlots
import H2a.Runtime.ManagedHost
import H2a.Mcp.AnswersKept
import H2a.Mcp.AtLeastOnce
import H2a.Loop.State
import H2a.Loop.StateKept
import H2a.Loop.CloseSound
import H2a.Loop.GateEpisode
import H2a.Remote.Apart
import H2a.Handover.Ownership
import H2a.Handover.Plans
import H2a.Handover.CommitmentKept
import H2a.Handover.LaunchFinal
import H2a.Handover.RevisionWitness
import H2a.Handover.Fencing
import H2a.Handover.FencingSafe
import H2a.Handover.BridgeRuns
import H2a.Handover.Upgrade
import H2a.Mirror.NarrowingExact
import H2a.Workspace.MergeSafe
import H2a.NativeTerminal.ControllersFenced
import H2a.NativeTerminal.ModesReset
import H2a.NativeTerminal.ResetRelay
import H2a.Drive.LineFaithful
import H2a.Drive.ConsentVerdict
import H2a.Track.Ingest.Isolated
import H2a.Library.Bisect
import H2a.Mcp.Discovery.Corpus
import H2a.Mcp.Discovery.Cursors
import H2a.Mcp.Discovery.Frames
import H2a.Mcp.Discovery.Listing
import H2a.Mcp.Discovery.Traversal
