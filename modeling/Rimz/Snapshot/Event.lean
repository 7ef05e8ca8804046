import Rimz.Agents.State
import Rimz.Queue.Message

/-!
# Events

The decoded event envelopes the fold walks. Reading an envelope's parameters is serde's; an event
that no typed variant takes is `other`.
-/

namespace Rimz.Snapshot
open Rimz.Agents Rimz.Queue

structure AgentLifecyclePayload where
  eventName : Option String
  observation : AgentLifecycleObservation

inductive AgentLaunchState where
  | starting
  | bound
  | failed
  deriving DecidableEq

structure AgentLaunchPayload where
  agentId : AgentSessionId
  launchId : Option AgentSessionId := none
  systemPromptDigest : Option String := none
  agentName : String
  agentNameExplicit : Bool := false
  launch : LaunchParams := {}
  state : AgentLaunchState := .starting
  paneId : Option PaneId := none
  runtimeOwner : Option RuntimeOwner := none
  worktreePath : Option String := none
  worktreeBranch : Option String := none
  prompt : Option String := none
  description : Option String := none

structure AgentAttachPayload where
  record : Option LaunchRecord := none
  tier : Option TierStamp := none
  mode : Option PermissionMode := none
  agentId : AgentSessionId
  isolation : Option Isolation := none
  effectiveIsolation : Option Isolation := none
  launchId : Option AgentSessionId := none
  login : Option LoginName := none
  paneId : PaneId
  panePid : Option Nat := none
  runtimeOwner : RuntimeOwner

structure AgentLaunchWarningsPayload where
  agentId : AgentSessionId
  warnings : List String

structure AgentWorkflowClearedPayload where
  agentId : AgentSessionId
  workflow : WorkflowAttemptRef

structure MessageEventPayload where
  messageId : MessageId
  kind : AgentKind
  agentId : AgentSessionId
  agentName : Option String
  gate : DeliveryGate
  status : MessageStatus
  body : MessageBody
  enqueuedAt : Option Timestamp
  compactedContextTokens : Option Nat
  softCompact : Option SoftCompactStep

inductive SignalSource where
  | cli
  | watch
  | lifecycle
  | forge
  | git
  | worktree
  | team
  deriving DecidableEq

/-- `SignalEventPayload`, its JSON object as text. -/
structure SignalEventPayload where
  name : String
  payload : String
  source : SignalSource

inductive EventKind where
  | agentLifecycle (payload : AgentLifecyclePayload)
  | signal (payload : SignalEventPayload)
  | agentAttach (payload : AgentAttachPayload)
  | agentLaunchWarnings (payload : AgentLaunchWarningsPayload)
  | agentWorkflowCleared (payload : AgentWorkflowClearedPayload)
  | agentLaunch (payload : AgentLaunchPayload)
  | message (payload : MessageEventPayload)
  | sessionRebirth
  | sessionDeath
  | other (method : String)

/-- An envelope beside its decoded kind. -/
structure Event where
  eventId : EventId
  workspaceId : WorkspaceId
  source : AgentKind
  timestamp : Timestamp
  kind : EventKind

end Rimz.Snapshot
