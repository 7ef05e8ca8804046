import Rimz.Snapshot.Project

/-!
# The fold of the event follower

`EventFollower::fold` keeps the lifecycle of each session beside the cursor and turns lifecycle
frames into public events. It calls the machine's `step` itself, where the rollup goes through
`AgentState::transition`.
-/

namespace Rimz.Follow
open Rimz.Lib Rimz.Agents Rimz.Snapshot

structure FollowState where
  lifecycle : LifecycleState
  openAskKey : Option String
  turnIds : PriorTurnIds

/-- The state `EventFollower::open` takes from a row of the rollup. -/
def FollowState.ofRow (row : AgentState) : FollowState :=
  ⟨row.lifecycle, row.openAskKey, row.turnIds⟩

def endedStatesRetained : Nat := 256

/-- `EventFollower`, without its files and cursor. -/
structure EventFollower where
  states : Std.ExtTreeMap AgentKey FollowState pairCmp := ∅
  ended : List AgentKey := []

structure LifecycleEvent where
  eventId : EventId
  at_ : Timestamp
  workspaceId : WorkspaceId
  kind : AgentKind
  agentId : AgentSessionId
  agentName : Option String
  parentAgentId : Option AgentSessionId
  signal : LifecycleSignal
  priorStatus : Option AgentStatus
  status : AgentStatus
  phase : TurnPhase
  transition : TransitionKind
  compactionClosed : Bool
  waitingCleared : Bool

structure SignalEvent where
  eventId : EventId
  at_ : Timestamp
  workspaceId : WorkspaceId
  payload : SignalEventPayload

inductive FollowEvent where
  | lifecycle (event : LifecycleEvent)
  | signal (event : SignalEvent)

namespace EventFollower

/-- `prune_ended`: the oldest ends beyond the bound are forgotten with their states. -/
def pruneEnded (f : EventFollower) : EventFollower :=
  let excess := f.ended.length - endedStatesRetained
  { states := (f.ended.take excess).foldl (fun states key => states.erase key) f.states
    ended := f.ended.drop excess }

/-- The key of the open ask after a signal. -/
def askKeyAfter (prior : Option FollowState) (signal : LifecycleSignal) (status : AgentStatus) :
    Option String :=
  match signal with
  | .awaitingInput _ (some _) _ _ nativeKey => nativeKey
  | .awaitingInput _ none _ _ _ => none
  | _ => if status ≠ .waiting then none else prior.bind (·.openAskKey)

/-- A report of the current state is folded and not published. -/
def foldSnapshot (f : EventFollower) (key : AgentKey) (signal : LifecycleSignal) : EventFollower :=
  let prior := f.states[key]?
  let next := (snapshotTransition (prior.map (·.lifecycle)) signal).next
  let state : FollowState := ⟨next, none, (prior.map (·.turnIds)).getD {}⟩
  { states := f.states.insert key state
    ended := f.ended.filter (· ≠ key) }

/-- The machine's step on the stored state; a reaper's end rests at idle. -/
def stepped (prior : Option FollowState) (eventName : Option String) (signal : LifecycleSignal) :
    Transition :=
  let transition := step (prior.map (·.lifecycle)) (prior.bind (·.openAskKey))
    ((prior.map (·.turnIds)).getD {}) signal
  if signal = .ended ∧ reapedEndRestsAtIdle eventName (prior.map (·.lifecycle.status)) = true then
    { transition with next := { transition.next with status := .idle } }
  else transition

/-- One envelope of `fold`, and what it publishes. -/
def foldOne (f : EventFollower) (event : Event) : EventFollower × Option FollowEvent :=
  match event.kind with
  | .signal payload =>
    (f, some (.signal ⟨event.eventId, event.timestamp, event.workspaceId, payload⟩))
  | .agentLifecycle payload =>
    let observation := payload.observation
    if observation.origin = some .sideConversation then (f, none)
    else
      match observation.agentId with
      | none => (f, none)
      | some agentId =>
        let key := (event.source, agentId)
        let prior := f.states[key]?
        if observation.stateSnapshot = some true then (f.foldSnapshot key observation.signal, none)
        else
          let transition := stepped prior payload.eventName observation.signal
          let published : LifecycleEvent :=
            { eventId := event.eventId
              at_ := event.timestamp
              workspaceId := event.workspaceId
              kind := event.source
              agentId
              agentName := observation.agentName
              parentAgentId := observation.parentAgentId
              signal := observation.signal
              priorStatus := prior.map (·.lifecycle.status)
              status := transition.next.status
              phase := transition.next.phase
              transition := transition.kind
              compactionClosed := transition.compactionClosed
              waitingCleared := transition.waitingCleared }
          let state : FollowState :=
            { lifecycle := transition.next
              openAskKey := askKeyAfter prior observation.signal transition.next.status
              turnIds := turnIdsAfter ((prior.map (·.turnIds)).getD {}) observation.signal
                transition.openedTurn }
          let ended := f.ended.filter (· ≠ key)
          (pruneEnded
            { states := f.states.insert key state
              ended := if observation.signal = .ended then ended ++ [key] else ended },
            some (.lifecycle published))
  | _ => (f, none)

/-- `fold`, as the state it leaves. -/
def fold (f : EventFollower) (events : List Event) : EventFollower :=
  events.foldl (fun f event => (f.foldOne event).1) f

end EventFollower

end Rimz.Follow
