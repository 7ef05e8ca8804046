import Rimz.Queue.Header
import Rimz.Snapshot.Identity

/-!
# One row after one event

The field rules of `store/snapshot/project.rs`: what a row carries forward, what a launch or an
observation stamps on it, and how the lifecycle transition lands in its fields.
-/

namespace Rimz.Snapshot
open Rimz.Lib Rimz.Agents Rimz.Queue

/-- `canonical_model`: a trailing capability tag is dropped. -/
def canonicalModel (model : String) : String :=
  match splitOncePat ['['] model.toList with
  | some (base, _) => String.ofList (trimEnd base)
  | none => model

/-- `carried_base`: carried fields from the prior row, everything else fresh. -/
def carriedBase (kind : AgentKind) (agentId : AgentSessionId) (prior : Option AgentState)
    (eventTs : Timestamp) : AgentState :=
  let state := AgentState.seed kind agentId .idle eventTs
  match prior with
  | none => state
  | some prior =>
    { state with
      launchId := prior.launchId
      priorLaunchIds := prior.priorLaunchIds
      systemPromptDigest := prior.systemPromptDigest
      launchWarnings := prior.launchWarnings
      mode := prior.mode
      isolation := prior.isolation
      effectiveIsolation := prior.effectiveIsolation
      launchGroup := prior.launchGroup
      launchOrdinal := prior.launchOrdinal
      moltedFrom := prior.moltedFrom
      pane := prior.pane
      runtimeOwner := prior.runtimeOwner
      parentAgentId := prior.parentAgentId
      parentAgentKind := prior.parentAgentKind
      launchDepth := prior.launchDepth
      launchedBy := prior.launchedBy
      profileScope := prior.profileScope
      task := prior.task
      firstPrompt := prior.firstPrompt
      prompt := prior.prompt
      promptWakeOnly := prior.promptWakeOnly
      description := prior.description
      transcriptPath := prior.transcriptPath
      worktreePath := prior.worktreePath
      worktreeBranch := prior.worktreeBranch
      worktreeBranches := prior.worktreeBranches
      accountKey := prior.accountKey
      role := prior.role
      team := prior.team
      loopTask := prior.loopTask
      workflow := prior.workflow
      automation := prior.automation
      channel := prior.channel
      profile := prior.profile
      login := prior.login
      tier := prior.tier
      record := prior.record
      checkout := prior.checkout
      addDirs := prior.addDirs
      untrustedCheckout := prior.untrustedCheckout
      origin := prior.origin
      compactedFrom := prior.compactedFrom
      model := prior.model
      effort := prior.effort
      budget := prior.budget
      usage := prior.usage
      compactionCount := prior.compactionCount
      softCompact := prior.softCompact
      toolCalls := prior.toolCalls
      backgroundShells := prior.backgroundShells
      lastCompactCommandTokens := prior.lastCompactCommandTokens
      retiredContextTokens := prior.retiredContextTokens
      compactedUnmeasured := prior.compactedUnmeasured
      compactedAwaitingPrompt := prior.compactedAwaitingPrompt
      turnStartedAt := prior.turnStartedAt
      userTurnStartedAt := prior.userTurnStartedAt
      lastPromptAt := prior.lastPromptAt
      keepaliveSince := prior.keepaliveSince
      pingedAt := prior.pingedAt
      registeredAt := prior.registeredAt.or (some eventTs)
      onScreenAt := prior.onScreenAt }

def foldLaunchParams (state : AgentState) (launch : LaunchParams) : AgentState :=
  { state with
    automation := launch.automation.or state.automation
    workflow := launch.workflow.or state.workflow
    moltedFrom := launch.moltedFrom.or state.moltedFrom
    record := launch.record.or state.record
    parentAgentId := launch.parentAgentId.or state.parentAgentId
    parentAgentKind := launch.parentAgentKind.or state.parentAgentKind
    launchDepth := launch.launchDepth.or state.launchDepth
    launchedBy := launch.launchedBy.or state.launchedBy
    profile := launch.profile.or state.profile
    profileScope := launch.profileScope.or state.profileScope
    login := launch.login.or state.login
    tier := launch.tier.or state.tier
    mode := launch.mode.or state.mode
    isolation := launch.isolation.or state.isolation
    checkout := launch.checkout.or state.checkout
    addDirs := if launch.addDirs.isEmpty then state.addDirs else launch.addDirs
    untrustedCheckout := state.untrustedCheckout || launch.untrustedCheckout
    role := launch.role.or state.role
    team := launch.team.or state.team
    loopTask := launch.loopTask.or state.loopTask
    launchGroup := launch.launchGroup.or state.launchGroup
    launchOrdinal := launch.launchOrdinal.or state.launchOrdinal
    channel := launch.channel.or state.channel
    model := (launch.model.map canonicalModel).or state.model
    effort := launch.effort.or state.effort
    budget := launch.budget.or state.budget }

/-- `carry_across_ping`: the row reads as `prior` left it; only the open-ping flag and the ping's
close time move. -/
def carryAcrossPing (state prior : AgentState) (timestamp : Timestamp) (edge : PingEdge) :
    AgentState :=
  { state with
    pingTurn := edge != .close
    pingedAt := if edge = .close then some timestamp else prior.pingedAt
    keepaliveSince :=
      if edge = .open_ then prior.keepaliveSince.or prior.lastRequestAt else state.keepaliveSince
    status := prior.status
    phase := prior.phase
    lastActivity := prior.lastActivity
    compactingSince := prior.compactingSince
    compactedAwaitingPrompt := prior.compactedAwaitingPrompt
    turnStartedAt := prior.turnStartedAt
    turnEndedAt := prior.turnEndedAt
    userTurnStartedAt := prior.userTurnStartedAt
    lastPromptAt := prior.lastPromptAt
    waitingSince := prior.waitingSince
    openAsk := prior.openAsk
    queuedAsks := prior.queuedAsks
    startedTurnId := prior.startedTurnId
    supersededTurnId := prior.supersededTurnId
    closedTurnId := prior.closedTurnId
    compactionRetired := prior.compactionRetired }

/-- The branch of `fold_lifecycle` for a report of the current state. -/
def foldSnapshot (state : AgentState) (prior : Option AgentState) (timestamp : Timestamp)
    (transition : Transition) : AgentState :=
  let state := { state with status := transition.next.status, phase := transition.next.phase }
  let state := match prior with
    | none => state
    | some prior =>
      { state with
        registeredAt := prior.registeredAt
        turnEndedAt := prior.turnEndedAt
        lastToolAt := prior.lastToolAt
        startedTurnId := prior.startedTurnId
        supersededTurnId := prior.supersededTurnId
        closedTurnId := prior.closedTurnId
        compactingSince := prior.compactingSince
        compactionRetired := prior.compactionRetired
        pingTurn := prior.pingTurn }
  if transition.openedTurn then { state with turnStartedAt := some timestamp } else state

def isActive (status : AgentStatus) : Bool := status == .running || status == .waiting

/-- `compacted_awaiting_prompt` after a signal. -/
def awaitingPromptAfter (state : AgentState) (signal : LifecycleSignal) (transition : Transition)
    (timestamp : Timestamp) : Option Timestamp :=
  match signal with
  | .compactionEnded auto false =>
    if auto == some false
        || (!isActive transition.next.status && (auto.isSome || transition.compactionClosed)) then
      some timestamp
    else state.compactedAwaitingPrompt
  | .turnStarted _ => none
  | _ => state.compactedAwaitingPrompt

/-- `tool_calls` after a signal: a named call counts once. -/
def toolCallsAfter (calls : Std.ExtTreeMap String Nat) (signal : LifecycleSignal) :
    Std.ExtTreeMap String Nat :=
  match signal with
  | .toolUsed _ _ (some name) _ _ =>
    let name := String.ofList (trim name.toList)
    if name = "" then calls else calls.insert name (satSucc (calls[name]?.getD 0))
  | _ => calls

/-- `open_ask` after a signal. -/
def openAskAfter (prior : Option AgentState) (signal : LifecycleSignal) (status : AgentStatus)
    (timestamp : Timestamp) : Option OpenAsk :=
  match signal with
  | .awaitingInput kind (some id) detail extraQuestions nativeKey =>
    some ⟨id, kind, detail, extraQuestions, nativeKey, timestamp⟩
  | .awaitingInput _ none _ _ _ => none
  | _ => if status = .waiting then prior.bind (·.openAsk) else none

/-- `soft_compact` after a signal: an interruption or a registration drops the mark, and a clean
turn end closes the wrap-up it was steered to. -/
def softCompactAfter (mark : Option SoftCompactMark) (signal : LifecycleSignal)
    (closesRequest : Bool) (timestamp : Timestamp) : Option SoftCompactMark :=
  match signal with
  | .turnInterrupted _ | .registered => none
  | .turnEnded false _ _ => mark.map fun mark =>
    if closesRequest = true ∧ mark.steeredAt ≤ timestamp ∧ mark.progress = .wrappingUp then
      { mark with progress := .turnEnded }
    else mark
  | _ => mark

def closesTurn : LifecycleSignal → Bool
  | .turnEnded .. | .turnInterrupted _ | .compactionEnded _ false => true
  | _ => false

def isCompactionEnd : LifecycleSignal → Bool
  | .compactionEnded .. => true
  | _ => false

def isFailedCompaction : LifecycleSignal → Bool
  | .compactionEnded _ true => true
  | _ => false

def resetsAtRest : LifecycleSignal → Bool
  | .compactionEnded _ false | .registered => true
  | _ => false

/-- The branch of `fold_lifecycle` for a real edge, and whether it retires the usage measured before
a compaction. -/
def foldEdge (state : AgentState) (prior : Option AgentState) (timestamp : Timestamp)
    (signal : LifecycleSignal) (prompt : Option String) (askQueue : Option AskQueueEdit)
    (transition : Transition) : AgentState × Bool :=
  let next := transition.next
  let openedTurn := transition.openedTurn
  let completedCompaction := transition.compactionClosed && !isFailedCompaction signal
  let resetsContext := prior.any (·.turnStartedAt.isSome) && !isActive next.status
    && resetsAtRest signal
  let closesRequest := !transition.kind.isIgnored && closesTurn signal
  let harnessPrompt := signal.isTurnStarted && prompt.any promptIsHarnessDelivered
  let keepaliveTurn := signal.isTurnStarted && prompt.any promptIsKeepaliveOnly
  let queued := (askQueue.elim id fun edit asks => edit.apply asks timestamp)
    ((prior.map (·.queuedAsks)).getD [])
  let turnIds := turnIdsAfter ((prior.map (·.turnIds)).getD {}) signal openedTurn
  let alreadyRetired := prior.any (·.compactionRetired)
  let retiresUsage := completedCompaction
    || (!alreadyRetired && isCompactionEnd signal && !isFailedCompaction signal)
  ({ state with
      status := next.status
      phase := next.phase
      compactingSince := if next.compacting then some timestamp else none
      compactionCount := state.compactionCount + completedCompaction.toNat
      softCompact := softCompactAfter state.softCompact signal closesRequest timestamp
      compactedAwaitingPrompt := awaitingPromptAfter state signal transition timestamp
      toolCalls := toolCallsAfter state.toolCalls signal
      turnStartedAt := if openedTurn || resetsContext then some timestamp else state.turnStartedAt
      turnEndedAt := if closesRequest then some timestamp else prior.bind (·.turnEndedAt)
      -- a ping stays open across a report the machine ignored
      pingTurn := prior.any (·.pingTurn) && transition.kind.isIgnored
      userTurnStartedAt :=
        if (openedTurn && !harnessPrompt) || resetsContext then some timestamp
        else state.userTurnStartedAt
      lastPromptAt :=
        if signal.isTurnStarted && !keepaliveTurn then some timestamp else state.lastPromptAt
      keepaliveSince :=
        if resetsContext || ((openedTurn || signal.isTurnStarted) && !keepaliveTurn) then none
        else if openedTurn then
          some ((prior.bind fun prior => prior.keepaliveSince.or prior.lastRequestAt).getD timestamp)
        else state.keepaliveSince
      waitingSince := match signal with
        | .awaitingInput .. => some timestamp
        | _ => if next.status = .waiting then prior.bind (·.waitingSince) else none
      openAsk := openAskAfter prior signal next.status timestamp
      queuedAsks := if isActive next.status then queued else []
      startedTurnId := turnIds.started
      supersededTurnId := turnIds.superseded
      closedTurnId := turnIds.closed
      compactionRetired := retiresUsage || (alreadyRetired && isCompactionEnd signal) },
    retiresUsage)

def foldLifecycle (state : AgentState) (prior : Option AgentState) (timestamp : Timestamp)
    (signal : LifecycleSignal) (prompt : Option String) (askQueue : Option AskQueueEdit)
    (stateSnapshot : Bool) : AgentState × Bool :=
  let transition :=
    AgentState.transition prior signal (prompt.any promptIsKeepaliveOnly) stateSnapshot
  match transition.ping, prior with
  | some edge, some prior => (carryAcrossPing state prior timestamp edge, false)
  | _, _ =>
    if stateSnapshot then (foldSnapshot state prior timestamp transition, false)
    else foldEdge state prior timestamp signal prompt askQueue transition

def finishClock (prior : Option AgentState) (status : AgentStatus) (phase : TurnPhase)
    (at_ : Timestamp) : Option Timestamp :=
  if status == .success || status == .failed || (status == .running && phase == .parked) then
    some ((prior.bind (·.finishedAt)).getD at_)
  else none

/-- `reaped_end_rests_at_idle`: a reaper's end is a guess, no failed turn. -/
def reapedEndRestsAtIdle (eventName : Option String) (priorStatus : Option AgentStatus) : Bool :=
  (eventName == some "ReapedSuperseded" || eventName == some "ReapedDead"
      || eventName == some "ReapedStale" || eventName == some "WorktreeRemoved")
    && (priorStatus == some .running || priorStatus == some .waiting)

/-! ### Projections of the observation -/

/-- `worktree_projection`: the path, and the branch if the observation speaks of that path. -/
def worktreeProjection (observation : AgentLifecycleObservation) (prior : Option AgentState)
    (establishesIdentity : Bool) (eventName : Option String) : Option String × Option String :=
  let priorPath := prior.bind (·.worktreePath)
  let path :=
    if establishesIdentity || eventName.isNone then observation.worktreePath.or priorPath
    else priorPath.or observation.worktreePath
  (path, observation.worktreeBranch.filter fun branch =>
    branch != "" && observation.worktreePath.all (some · == path))

/-- `runtime_projection`: a daemon's stamp does not displace the session's own process. -/
def runtimeProjection (observation : AgentLifecycleObservation) (prior : Option AgentState)
    (agentId : AgentSessionId) : Option RuntimeOwner :=
  let eventOwner := observation.runtimeOwner.or (observation.agentPid.map fun pid =>
    ⟨.agent, agentId, pid, observation.agentProcessStart⟩)
  match eventOwner, prior.bind (·.runtimeOwner) with
  | some event, some prior =>
    if event.kind = .daemon ∧ prior.kind = .agent ∧ prior.subjectId = agentId then some prior
    else some event
  | some event, none => some event
  | none, prior => prior

def taskProjection (observation : AgentLifecycleObservation) (prior : Option AgentState)
    (isSubagent : Bool) (eventTask : Option String) : Option String :=
  if isSubagent then eventTask.or (prior.bind (·.task)) else nonEmptyString observation.task

/-- `pane_projection`: a bare id of the pane already known keeps the fuller stamp. -/
def paneProjection (observation : AgentLifecycleObservation) (prior : Option AgentState) :
    Option PaneRef :=
  match observation.paneStamp.or (observation.paneId.map PaneRef.fromId), prior.bind (·.pane) with
  | some observed, some prior =>
    if observed.paneId = prior.paneId ∧ observed.panePid = none then some prior else some observed
  | some observed, none => some observed
  | none, prior => prior

end Rimz.Snapshot
