import OpenGameAgent.Extensions.ScheduleClock
import OpenGameAgent.Storage.TranscriptHistory
import OpenGameAgent.Storage.AuthorityHosts
import OpenGameAgent.Extensions.ScheduledSignalDelivery
import OpenGameAgent.Storage.FailedCalls
import OpenGameAgent.Delegation.SupersededRuns
import OpenGameAgent.Storage.SignalAgreement
import OpenGameAgent.Integrations.ProviderAnswers
import OpenGameAgent.Storage.ReusedSequences
import OpenGameAgent.Devtools.ProvenanceRecorders
import OpenGameAgent.Actions.ApprovalRuns
import OpenGameAgent.Agent.ExactToolRepeat
import OpenGameAgent.Media.ConfirmedCancellations
import OpenGameAgent.Agent.TranscriptCapture
import OpenGameAgent.Storage.TerminalPurges
import OpenGameAgent.Media.MediaCallPermits
import OpenGameAgent.Agent.ToolSnapshotExtension
import OpenGameAgent.ExtensionKit.ExtensionSets
import OpenGameAgent.Artifacts.ArtifactPages
import OpenGameAgent.Client.SseLimits
import OpenGameAgent.Memory.UsearchSnapshots
import OpenGameAgent.Agent.ToolErrorTruncation
import OpenGameAgent.Integrations.McpServing
import OpenGameAgent.Png.PngFiles
import OpenGameAgent.Realtime.UtteranceSegmentation
