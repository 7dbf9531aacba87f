import CrabbyKit.Compaction.Cut
import CrabbyKit.Runtime.Agreement
import CrabbyKit.Schedule.Hibernation
import CrabbyKit.TaskTracker.Dag
import CrabbyKit.TaskTracker.Integrity
import CrabbyKit.AgentCore.Supplied
import CrabbyKit.AgentCore.ToolOrder
import CrabbyKit.Providers.ToolCallIds
import CrabbyKit.Bundle.Isolation
import CrabbyKit.Capabilities.Ownership
import CrabbyKit.Client.Converge
import CrabbyKit.Bundle.ToolLoop
import CrabbyKit.Bundle.FirstRequest
import CrabbyKit.Bundle.SchemaKinds
import CrabbyKit.Providers.StreamedCalls
import CrabbyKit.Runtime.Consistency
import CrabbyKit.Token.Sound
import CrabbyKit.Dispatch.Revert
import CrabbyKit.Dispatch.Guard
import CrabbyKit.Spine.Confined
import CrabbyKit.A2A.Delivery
import CrabbyKit.A2A.Depth
import CrabbyKit.Skills.Custody
import CrabbyKit.Skills.Loadable
import CrabbyKit.Files.Saves
import CrabbyKit.Apps.Versions
import CrabbyKit.Subagent.Delivery
import CrabbyKit.Channels.Replies
import CrabbyKit.Memory.Agreement
import CrabbyKit.Browser.Cookies
import CrabbyKit.Browser.Leaks
import CrabbyKit.Batch.Agreement
import CrabbyKit.Mcp.Registration
import CrabbyKit.Peering.Agreement
import CrabbyKit.Sandbox.Truthful
import CrabbyKit.VibeCoder.DeployServer
import CrabbyKit.Workshop.Meaning
import CrabbyKit.Channels.RateLimit
import CrabbyKit.Compaction.Pairing
import CrabbyKit.Compaction.Pruning
import CrabbyKit.Compaction.Stages
import CrabbyKit.Compaction.ToolOutput
import CrabbyKit.Schedule.FieldParser
import CrabbyKit.Schedule.ZonedFire
import CrabbyKit.Session.Recency
import CrabbyKit.Session.Independence
import CrabbyKit.Runtime.ConfigAgreement
import CrabbyKit.Bundle.ConfigPaths
import CrabbyKit.Modes.ToolNames
import CrabbyKit.Providers.EventDelivery
import CrabbyKit.Providers.ReadBack
import CrabbyKit.Runtime.QueueOrder
import CrabbyKit.Spine.Checkpoint
import CrabbyKit.TaskTracker.Status
import CrabbyKit.Token.Replay
import CrabbyKit.A2A.Acceptance
import CrabbyKit.A2A.StreamCodec
import CrabbyKit.Bundle.Envelope
import CrabbyKit.Bundle.RouteOwners
import CrabbyKit.DoomLoop.Detection
import CrabbyKit.Files.Directories
import CrabbyKit.Files.Glob
import CrabbyKit.Files.Moves
import CrabbyKit.Sandbox.SessionOutput
import CrabbyKit.Batch.Verdicts
import CrabbyKit.Browser.Snapshot
import CrabbyKit.Skills.D1Registry
import CrabbyKit.Channels.Telegram
