import Rimz.Lib.Bytes
import Rimz.Lib.Utf8
import Rimz.EventLog.Frame
import Rimz.EventLog.Scan
import Rimz.Ids
import Rimz.Lib.Keyed
import Rimz.Lib.Run
import Rimz.Lib.Text
import Rimz.Queue.Claims
import Rimz.Follow.Order
import Rimz.Ingress.Drain
import Rimz.Ingress.History
import Rimz.Ingress.Safety
import Rimz.Agents.Lifecycle
import Rimz.Agents.Observation
import Rimz.Agents.Petname
import Rimz.Follow.Agree
import Rimz.Disk.Lock
import Rimz.Lib.Sort
import Rimz.Schedule.Backlog
import Rimz.Schedule.Conservation
import Rimz.Throttle.Caps
import Rimz.Lib.Graph
import Rimz.Workflow.Engine
import Rimz.Workflow.Interleavings
import Rimz.Workflow.Bounded
import Rimz.Workflow.Laps
import Rimz.Queue.Effort
import Rimz.Queue.Wake
import Rimz.Lib.Walk
import Rimz.Reply.Cycle
import Rimz.Reply.Deadlock
import Rimz.Lib.Emit
import Rimz.Lib.Json
import Rimz.Lsp.Adaptation
import Rimz.Lsp.Clients
import Rimz.Lsp.Documents
import Rimz.Lsp.Ownership
import Rimz.Lib.Ledger
import Rimz.Lsp.Notices
import Rimz.Lsp.Requests
import Rimz.Lib.Timer
import Rimz.Presence.Attribution
import Rimz.Queue.Alignment
import Rimz.EventLog.Repair
import Rimz.Disk.Incremental
import Rimz.Disk.Lease
import Rimz.Queue.History
import Rimz.Snapshot.Allocation
import Rimz.Workflow.Calm
import Rimz.Workflow.Sessions
import Rimz.Lib.JsonPath
import Rimz.Lib.Spans
import Rimz.Schedule.Coalesce
import Rimz.Schedule.Pending
import Rimz.Trust.Diff
import Rimz.Workflow.Held
import Rimz.Workflow.Rested
import Rimz.Sandbox.View
import Rimz.Agents.ActiveTime
import Rimz.Lsp.Snippet
