import Rimz.Ids
import Rimz.Lib.Text

/-!
# Message records

The durable message vocabulary of `store/message.rs`: the record, its statuses and the predicates
the queue decides by. The provenance fields `in_reply_to` and `about_run` are left out: no queue
transaction reads or writes them.
-/

namespace Rimz.Queue
open Rimz.Lib

inductive HarnessNotice where
  | cacheKeepalive
  | deadline
  | subagentReport
  | agentReport
  | wait
  | signal
  | stage
  | teamReport
  | subagentPaused
  | subagentStalled
  | teamStalled
  | messageUndelivered
  | messageQueued
  | other (notice : String)
  deriving DecidableEq

def HarnessNotice.isFleetDigest : HarnessNotice → Bool
  | .subagentReport | .agentReport => true
  | _ => false

def HarnessNotice.headerType : HarnessNotice → String
  | .cacheKeepalive => "CACHE_KEEPALIVE"
  | .subagentReport => "SUBAGENT_REPORT"
  | .agentReport => "AGENT_REPORT"
  | .teamReport => "TEAM_REPORT"
  | .subagentPaused => "SUBAGENT_PAUSED"
  | .subagentStalled => "SUBAGENT_STALLED"
  | .teamStalled => "TEAM_STALLED"
  | .messageUndelivered => "MESSAGE_UNDELIVERED"
  | .messageQueued => "MESSAGE_QUEUED"
  | .deadline => "DEADLINE"
  | .wait => "WAIT"
  | .signal => "SIGNAL"
  | .stage => "STAGE"
  | .other notice => String.ofList (notice.toList.map Char.toUpper)

inductive MessageSender where
  | human
  | agent (kind : AgentKind) (agentId : Option AgentSessionId) (name profile role channel : Option String)
  | harness (notice : HarnessNotice)
  | subagent (kind : AgentKind) (name : String)
  | system
  deriving DecidableEq

/-- The sender is an agent. -/
def MessageSender.isAgent : MessageSender → Bool
  | .agent .. => true
  | _ => false

inductive DeliveryGate where
  | done
  | any
  | resume
  deriving DecidableEq

inductive AutoCompact where
  | percent (p : Nat)
  | tokens (n : Nat)
  deriving DecidableEq

inductive MessageStatus where
  | queued
  | claimed
  | sent
  | delivered
  | timedOut
  | errored
  | canceled
  | abandoned
  | expired
  | archived
  deriving DecidableEq

def MessageStatus.isTerminal : MessageStatus → Bool
  | .delivered | .timedOut | .errored | .canceled | .abandoned | .expired | .archived => true
  | .queued | .claimed | .sent => false

def MessageStatus.isOpen : MessageStatus → Bool
  | .queued | .claimed => true
  | _ => false

def MessageStatus.asStr : MessageStatus → String
  | .queued => "queued"
  | .claimed => "claimed"
  | .sent => "sent"
  | .delivered => "delivered"
  | .timedOut => "timed_out"
  | .errored => "errored"
  | .canceled => "canceled"
  | .abandoned => "abandoned"
  | .expired => "expired"
  | .archived => "archived"

inductive MessageBody where
  | prompt
  | command
  deriving DecidableEq

def MessageBody.resendsUnconfirmed : MessageBody → Bool
  | .prompt => true
  | .command => false

structure AfterCondition where
  kind : AgentKind
  agentId : AgentSessionId
  agentName : Option String
  address : String
  metAt : Option Timestamp
  deriving DecidableEq

structure WhenCondition where
  kind : AgentKind
  agentId : AgentSessionId
  agentName : Option String
  address : String
  status : AgentStatus
  dwellSecs : Nat
  metAt : Option Timestamp
  deriving DecidableEq

def WhenCondition.cardRef (c : WhenCondition) : AgentCardRef := ⟨c.kind, c.agentId, c.agentName⟩

def formatDwell (secs : Nat) : String :=
  if 86400 ≤ secs ∧ secs % 86400 = 0 then toString (secs / 86400) ++ "d"
  else if 3600 ≤ secs ∧ secs % 3600 = 0 then toString (secs / 3600) ++ "h"
  else if 60 ≤ secs ∧ secs % 60 = 0 then toString (secs / 60) ++ "m"
  else toString secs ++ "s"

def WhenCondition.expiryReason (c : WhenCondition) : String :=
  "watched agent " ++ c.address ++ " ended before '" ++ c.status.asStr ++ " "
    ++ formatDwell c.dwellSecs ++ "' was met"

inductive TypingHoldReplay where
  | steer
  | interrupt
  deriving DecidableEq

/-- `Option<TypingHoldReplay>::max`: `None`, then `Steer`, then `Interrupt`. -/
def maxReplay : Option TypingHoldReplay → Option TypingHoldReplay → Option TypingHoldReplay
  | some .interrupt, _ | _, some .interrupt => some .interrupt
  | some .steer, _ | _, some .steer => some .steer
  | none, none => none

structure TypingHold where
  until_ : Timestamp
  replay : Option TypingHoldReplay
  force : Bool
  deriving DecidableEq

def TypingHold.withReplay (hold : TypingHold) (replay : Option TypingHoldReplay) (force : Bool) :
    TypingHold :=
  { hold with replay := maxReplay hold.replay replay, force := hold.force || force }

inductive SoftCompactStep where
  | wrapUp
  | continue_
  deriving DecidableEq

structure MessageRecord where
  messageId : MessageId
  workspaceId : WorkspaceId
  kind : AgentKind
  agentId : AgentSessionId
  agentName : Option String
  address : Option String
  channel : Option String
  sender : MessageSender
  automated : Bool
  replyWait : Bool
  body : MessageBody
  text : String
  enter : Bool
  gate : DeliveryGate
  force : Bool
  paneId : Option PaneId
  status : MessageStatus
  enqueuedAt : Timestamp
  updatedAt : Timestamp
  registerBy : Option Timestamp
  attempts : Nat
  unconfirmedSends : Nat
  lastAttemptAt : Option Timestamp
  lastSentAt : Option Timestamp
  lastError : Option String
  deliveredAt : Option Timestamp
  notBefore : Option Timestamp
  after : List AfterCondition
  when_ : List WhenCondition
  retryAfter : Option Timestamp
  typingHold : Option TypingHold
  queuedNoticeAt : Option Timestamp
  autoCompact : Option AutoCompact
  softCompact : Option SoftCompactStep
  compactedContextTokens : Option Nat
  idleSince : Option Timestamp
  batchId : Option MessageId
  deriving DecidableEq

/-- What a queue transaction reads of a row of the agent snapshot. `holdsOpenTurn` and `channel` are
the values of the row's methods of those names. -/
structure AgentRow where
  kind : AgentKind
  agentId : AgentSessionId
  name : Option String
  identityIds : List AgentSessionId
  endedAt : Option Timestamp
  resumedAt : Option Timestamp
  turnEndedAt : Option Timestamp
  compactingSince : Option Timestamp
  holdsOpenTurn : Bool
  channel : Option String

def AgentRow.cardRef (agent : AgentRow) : AgentCardRef := ⟨agent.kind, agent.agentId, agent.name⟩

def AgentRow.answersTo (agent : AgentRow) (id : AgentSessionId) : Bool :=
  agent.identityIds.contains id

/-- The delivery limits the environment may override, in milliseconds and with the source's
defaults, and jiff's text of an instant. -/
structure Limits where
  deliveryWindowMs : Nat := 30000
  commandDeliveryWindowMs : Nat := 180000
  commandValidityMs : Nat := 600000
  showTimestamp : Timestamp → String

def MessageBody.deliveryWindow (limits : Limits) : MessageBody → Duration
  | .prompt => fromMillis limits.deliveryWindowMs
  | .command => fromMillis limits.commandDeliveryWindowMs

def maxDeliveryAttempts : Nat := 5

/-- `CLAIM_TTL`, in seconds. -/
def claimTtlSecs : Nat := 15

/-- `u32::saturating_add(1)`. -/
def satSucc (n : Nat) : Nat := min (n + 1) u32Max

/-- `claim_expired`. An instant in the future counts as expired. -/
def claimExpired (lastAttemptAt : Option Timestamp) (now : Timestamp) : Bool :=
  match lastAttemptAt with
  | none => true
  | some last => now - last < 0 || claimTtlSecs ≤ (now - last).toNat / 1000000000

namespace MessageRecord

def cardRef (m : MessageRecord) : AgentCardRef := ⟨m.kind, m.agentId, m.agentName⟩

def sameCard (m : MessageRecord) (card : AgentCardRef) : Bool := m.cardRef.matches card

def sameAgentCard (m : MessageRecord) (agent : AgentRow) : Bool := m.sameCard agent.cardRef

def wantsUndeliveredNotice (m : MessageRecord) : Bool :=
  m.sender.isAgent && !m.replyWait
    && match m.status with
      | .archived | .timedOut | .abandoned | .expired => true
      | _ => false

def awaitingRegistration (m : MessageRecord) (agents : List AgentRow) : Bool :=
  m.status == .queued && m.registerBy.isSome
    && (agents.filter m.sameAgentCard).all fun agent =>
      agent.endedAt.any fun endedAt => endedAt ≤ m.enqueuedAt

def isReady (m : MessageRecord) (now : Timestamp) : Bool := m.notBefore.all fun t => t ≤ now

def afterMet (m : MessageRecord) : Bool := m.after.all fun c => c.metAt.isSome

def whenMet (m : MessageRecord) : Bool := m.when_.all fun c => c.metAt.isSome

def conditionsMet (m : MessageRecord) : Bool := m.afterMet && m.whenMet

def perishable (m : MessageRecord) : Bool := m.body == .command && m.automated

def expiresAt (limits : Limits) (m : MessageRecord) : Option Timestamp :=
  if m.perishable then some (m.enqueuedAt + fromMillis limits.commandValidityMs) else none

def expired (limits : Limits) (m : MessageRecord) (now : Timestamp) : Bool :=
  m.status == .queued && (m.expiresAt limits).any fun t => t ≤ now

def isDeliverable (limits : Limits) (m : MessageRecord) (now : Timestamp) : Bool :=
  m.softCompact != some .wrapUp && m.isReady now && m.conditionsMet && !m.expired limits now

def sentReconcileDeadline (limits : Limits) (m : MessageRecord) : Option Timestamp :=
  if m.status = .sent then
    some (m.retryAfter.getD (m.lastSentAt.getD m.updatedAt + m.body.deliveryWindow limits))
  else none

def sentHoldExpired (limits : Limits) (m : MessageRecord) (now : Timestamp) : Bool :=
  (m.sentReconcileDeadline limits).any fun deadline => deadline ≤ now

def heldByCompaction (m : MessageRecord) (agent : AgentRow) : Bool :=
  m.status == .sent && agent.compactingSince.isSome && m.sameAgentCard agent

def awaitingLateAck (m : MessageRecord) : Bool :=
  m.status == .queued && decide (0 < m.unconfirmedSends) && m.lastSentAt.isSome

def inFlight (m : MessageRecord) : Bool := m.status == .sent || m.awaitingLateAck

def batchKey (m : MessageRecord) : Option String :=
  match m.sender with
  | .agent _ _ _ _ _ channel => channel
  | .harness _ => none
  | .human | .subagent .. | .system => m.channel

def batchable (m : MessageRecord) : Bool :=
  m.body == .prompt && m.enter && (trimStart m.text.toList).head? != some '/'
    && match m.sender with
      | .harness notice => !notice.isFleetDigest
      | _ => true

def requeue (m : MessageRecord) (now : Timestamp) (error : String) : MessageRecord :=
  { m with
    status := .queued, paneId := none, batchId := none, lastError := some error, updatedAt := now }

end MessageRecord

/-- A record as the constructors of `MessageRecord` make it: queued, never attempted, never sent. -/
structure NewMessage extends MessageRecord where
  isQueued : status = .queued
  unattempted : attempts = 0
  unclaimed : lastAttemptAt = none
  unsent : lastSentAt = none
  confirmed : unconfirmedSends = 0

end Rimz.Queue
