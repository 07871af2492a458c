import InfraReplay.Recording.ImportBranches
import InfraReplay.Api.ConcurrentImport
import InfraReplay.Api.Orphans
import InfraReplay.Comparison.Faithful
import InfraReplay.Recording.Arrival
import InfraReplay.Capture.Drain
import InfraReplay.Replay.SameResponse
import InfraReplay.Replay.Resend
import InfraReplay.Replay.SafeTarget
import InfraReplay.Api.Portability
import InfraReplay.Api.Validate
import InfraReplay.Replay.SendOrder
import InfraReplay.Agent.Landed
import InfraReplay.Recording.CausalLinks
import InfraReplay.Comparison.Genuine
import InfraReplay.Capture.Forwarding
import InfraReplay.Capture.Snapshots
import InfraReplay.Agent.Isolation
import InfraReplay.Replay.Effects
import InfraReplay.Recording.ParseErrors
import InfraReplay.Dashboard.Depth
import InfraReplay.Dashboard.Verdict
import InfraReplay.Plugins.RedactedAlike
import InfraReplay.Plugins.BlobStore
import InfraReplay.Replay.Renaming
import InfraReplay.Replay.Batches
import InfraReplay.Replay.Widths
import InfraReplay.Capture.Durations
import InfraReplay.Comparison.Relation
import InfraReplay.Replay.OwnAnswer
import InfraReplay.Api.History
import InfraReplay.Agent.HandOver
import InfraReplay.Replay.SentSecrets
import InfraReplay.Replay.PortableReplay
import InfraReplay.Replay.Demo
import InfraReplay.DemoShop.Race
import InfraReplay.Api.Refusals
