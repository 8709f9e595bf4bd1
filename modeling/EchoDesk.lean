import EchoDesk.AgentKernel.ToolResults
import EchoDesk.AgentKernel.TurnProtocol
import EchoDesk.AgentRuntime.Replacement
import EchoDesk.Agents.ProjectedOnce
import EchoDesk.Capabilities.Containment
import EchoDesk.Capabilities.Freeze
import EchoDesk.Capabilities.LocalHosts
import EchoDesk.Desktop.Attempts
import EchoDesk.Desktop.Convergence
import EchoDesk.Desktop.Echo
import EchoDesk.Desktop.Reapply
import EchoDesk.Desktop.RoundTrip
import EchoDesk.Events.Admission
import EchoDesk.Events.Delivery
import EchoDesk.Events.Isolation
import EchoDesk.Meeting.Boundary
import EchoDesk.Meeting.Complete
import EchoDesk.Meeting.Ending
import EchoDesk.Meeting.Minutes
import EchoDesk.Meeting.Published
import EchoDesk.Memory.ActiveKeys
import EchoDesk.ModelRuntime.HostRequest
import EchoDesk.ModelRuntime.StreamDecoding
import EchoDesk.Outbox.Order
import EchoDesk.Outbox.Pruning
import EchoDesk.Rag.ByteLimit
import EchoDesk.Rag.Chunking
import EchoDesk.Rag.Projection
import EchoDesk.Rag.Reconcile
import EchoDesk.Renderer.SyncCursor
import EchoDesk.Renderer.SyncWorker
import EchoDesk.Renderer.TaskCards
import EchoDesk.Renderer.Transcript
import EchoDesk.Runtime.CheckpointChecksum
import EchoDesk.Runtime.LeasedRuntimes
import EchoDesk.Runtime.NewestCheckpoint
import EchoDesk.Security.Budget
import EchoDesk.Security.Cleanup
import EchoDesk.Security.Frames
import EchoDesk.Security.PreAuth
import EchoDesk.Stt.Followers
import EchoDesk.Stt.Probes
import EchoDesk.Stt.Turns
import EchoDesk.Workflow.Ownership
import EchoDesk.Workflow.Retry
import EchoDesk.Workflow.UnitOfWork
