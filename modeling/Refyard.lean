import Refyard.AuthBounds
import Refyard.Core.PatchCut
import Refyard.Core.PatchRoundTrip
import Refyard.Core.RefRules
import Refyard.EventStream
import Refyard.FailedRegistration
import Refyard.GitClient.EventRuns
import Refyard.GitCore.Discard
import Refyard.GitCore.NetworkHonesty
import Refyard.GitCore.Patch
import Refyard.GitCore.StatusAgreement
import Refyard.Graph.Geometry
import Refyard.Graph.Lanes
import Refyard.Graph.Reference
import Refyard.Host.FailedWrites
import Refyard.Host.Idempotency
import Refyard.Host.Layout
import Refyard.Host.Numbering
import Refyard.Host.Progress
import Refyard.Host.Release
import Refyard.Host.Starts
import Refyard.HostNode.ApprovalRuns
import Refyard.HostNode.EffectStarts
import Refyard.HostNode.Idempotency
import Refyard.HostNode.JournalCompaction
import Refyard.HostNode.JournalTail
import Refyard.HostNode.PathIds
import Refyard.HostNode.RecoveryRuns
import Refyard.HostNode.Restarts
import Refyard.HostNode.TerminalRuns
import Refyard.HostNode.WorktreeEffects
import Refyard.HostNode.WorktreeRuns
import Refyard.Http.Assets
import Refyard.Http.TargetLifetime
import Refyard.Http.Withdrawal
import Refyard.Jobs.CrashConsistency
import Refyard.Jobs.Digest
import Refyard.LoopbackOrigin
import Refyard.PreviewOrder
import Refyard.Pty.Ghosts
import Refyard.Reads.Boundaries
import Refyard.Reads.Diff
import Refyard.Reads.RemoteUrls
import Refyard.Reads.Worktrees
import Refyard.Ssh.Expansion
import Refyard.Ssh.Glob
import Refyard.Ssh.Quote
import Refyard.Writes.HalfDone
import Refyard.Writes.Squash
import Refyard.Writes.Stage
