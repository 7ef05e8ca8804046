import Rimz.Lib.Walk
import Rimz.Queue.Message

/-!
# Wait cycles

The deadlock guard of `message/reply.rs`: the edges between agents that wait for each other's reply,
the search for a cycle through one's own wait, and the legs an agent gives up because its wait is
the youngest of the cycle it found. `agent_handle` is a parameter: a hop's handle is only shown.
-/

namespace Rimz.Reply
open Rimz.Lib Rimz.Queue

/-- What the guard reads of a row of the snapshot; `turnOpenedBy` is the field of the row's context,
if it has one. -/
structure PeerRow where
  kind : AgentKind
  agentId : AgentSessionId
  name : Option String
  status : AgentStatus
  turnOpenedBy : Option (List MessageId)

def PeerRow.cardRef (agent : PeerRow) : AgentCardRef := ⟨agent.kind, agent.agentId, agent.name⟩

structure WaitEdge where
  sender : Nat
  receiver : Nat
  messageId : MessageId
  deriving DecidableEq

structure WaitCycleHop where
  handle : String
  messageId : MessageId

/-- `ReplyTarget`, as far as it names an agent. -/
structure ReplyTarget where
  kind : AgentKind
  agentId : AgentSessionId
  agentName : Option String

def ReplyTarget.matches (target : ReplyTarget) (agent : PeerRow) : Bool :=
  AgentCardRef.matches ⟨target.kind, target.agentId, target.agentName⟩ agent.cardRef

/-- `Leg`, as far as the guard reads it; `done` says that the leg has a result. -/
structure Leg where
  target : ReplyTarget
  messageId : MessageId
  done : Bool

def runningSenderIndex (record : MessageRecord) (agents : List PeerRow) : Option Nat :=
  match record.sender with
  | .agent kind _ (some name) _ _ _ =>
    agents.findIdx? fun agent =>
      agent.kind == kind && agent.name == some name && agent.status == .running
  | _ => none

/-- The edge of a live record, in the first loop of `wait_cycle`. -/
def liveEdge (agents : List PeerRow) (record : MessageRecord) : Option WaitEdge :=
  if record.replyWait && (record.status == .queued || record.status == .claimed
      || record.status == .sent) then do
    let sender ← runningSenderIndex record agents
    let receiver ← agents.findIdx? fun agent => record.sameCard agent.cardRef
    pure ⟨sender, receiver, record.messageId⟩
  else none

/-- The edges into one agent by the delivered waits that opened its turn, in the second loop. -/
def turnEdges (history : List MessageRecord) (agents : List PeerRow) (receiver : Nat)
    (agent : PeerRow) : List WaitEdge :=
  if agent.status = .running then
    (agent.turnOpenedBy.getD []).filterMap fun messageId => do
      let record ← history.find? fun record =>
        record.messageId == messageId && record.replyWait && record.status == .delivered
      let sender ← runningSenderIndex record agents
      pure ⟨sender, receiver, record.messageId⟩
  else []

/-- The edges `wait_cycle` collects. -/
def waitEdges (live history : List MessageRecord) (agents : List PeerRow) : List WaitEdge :=
  live.filterMap (liveEdge agents)
    ++ agents.zipIdx.flatMap fun row => turnEdges history agents row.2 row.1

section Guard
variable (agentHandle : PeerRow → List PeerRow → String)

/-- The hop `walk_edges` pushes for an edge. -/
def hop (agents : List PeerRow) (edge : WaitEdge) : WaitCycleHop :=
  ⟨agents[edge.sender]?.elim "" fun agent => agentHandle agent agents, edge.messageId⟩

/-- `walk_edges` from scratch: the hops of the first path from `current` to `destination`, in the
order of the edges, entering no agent twice. A path enters each agent once at most, so the search
never goes deeper than there are agents. -/
def walkEdges (edges : List WaitEdge) (agents : List PeerRow) (current destination : Nat) :
    Option (List WaitCycleHop) :=
  (firstPath WaitEdge.sender WaitEdge.receiver edges destination (agents.length + 1) current []).1.map
    fun path => path.map (hop agentHandle agents)

def waitCycle (live history : List MessageRecord) (agents : List PeerRow) (selfKind : AgentKind)
    (selfName : String) (target : PeerRow) : Option (List WaitCycleHop) := do
  let selfIndex ← agents.findIdx? fun agent => agent.kind == selfKind && agent.name == some selfName
  let targetIndex ← agents.findIdx? fun agent => agent.cardRef.matches target.cardRef
  walkEdges agentHandle (waitEdges live history agents) agents targetIndex selfIndex

/-- `youngest_wait_message`: the last of the greatest ids. -/
def youngestWaitMessage (cycle : List WaitCycleHop) (own : MessageId) : MessageId :=
  match cycle.map WaitCycleHop.messageId ++ [own] with
  | [] => own
  | id :: ids => ids.foldl (fun best id => if best ≤ id then id else best) id

/-- The cycle that fails a leg, if any: the body of `deadlocked_legs`. -/
def deadlockedLeg (live history : List MessageRecord) (agents : List PeerRow) (selfKind : AgentKind)
    (selfName : String) (leg : Leg) : Option (List WaitCycleHop) :=
  if leg.done then none
  else do
    let target ← agents.find? leg.target.matches
    let cycle ← waitCycle agentHandle live history agents selfKind selfName target
    if youngestWaitMessage cycle leg.messageId == leg.messageId then pure cycle else none

/-- `deadlocked_legs`: the indices of the failed legs with their cycles. -/
def deadlockedLegs (legs : List Leg) (live history : List MessageRecord) (agents : List PeerRow)
    (selfKind : AgentKind) (selfName : String) : List (Nat × List WaitCycleHop) :=
  legs.zipIdx.filterMap fun leg =>
    (deadlockedLeg agentHandle live history agents selfKind selfName leg.1).map fun cycle =>
      (leg.2, cycle)

end Guard

end Rimz.Reply
