import Rimz.Snapshot.Assemble

/-!
# The agent-lifecycle reducer

`store/snapshot/project.rs`: events are walked in log order over a map of rows and a ledger of card
identities. The source finds launch predecessors through an index that it keeps equal to a scan of
the map; the scan stands here.
-/

namespace Rimz.Snapshot
open Rimz.Lib Rimz.Agents Rimz.Queue

/-! ### Assembling rows -/

/-- The usage after a compaction may have retired the carried reading, and what is remembered of the
retired occupancy. -/
def foldUsage (kind : AgentKind) (state : AgentState) (prior : Option AgentState)
    (observed : AgentUsageSummary) (retiresUsage : Bool) : AgentState :=
  let carried := prior.map (·.usage)
  let retired := match retiresUsage, carried with
    | true, some carried =>
      match carried.contextUsedTokens with
      | some occupancy =>
        if carried.inputContextTokens.any (· > 0) || state.retiredContextTokens.isNone then
          some occupancy
        else state.retiredContextTokens
      | none => state.retiredContextTokens
    | _, _ => state.retiredContextTokens
  let carried := if retiresUsage then carried.map (·.clearCurrentWindow) else carried
  let observed :=
    if retired.isSome && observed.contextUsedTokens == retired then observed.clearCurrentWindow
    else observed
  { state with
    retiredContextTokens := retired
    compactedUnmeasured := (state.compactedUnmeasured || retiresUsage)
      && !observed.inputContextTokens.any (· > 0)
    usage := observed.merge carried (defaultContextWindow kind) }

/-- The parent a row names after an event: established lineage stands, and only the explicit
adoption turns a root into a child. -/
def parentAfter (prior : Option AgentState) (eventName : Option String)
    (eventParent : Option AgentSessionId) : Option AgentSessionId :=
  match prior with
  | none => eventParent
  | some prior =>
    if prior.parentAgentId.isSome then prior.parentAgentId
    else if eventName = some "SubagentAdopted" then eventParent
    else none

/-- The carried row with the launch parameters of the observation. -/
def observedBase (kind : AgentKind) (agentId : AgentSessionId) (timestamp : Timestamp)
    (payload : AgentLifecyclePayload) (prior : Option AgentState) : AgentState :=
  { foldLaunchParams (carriedBase kind agentId prior timestamp) payload.observation.launch with
    resumedAt := if payload.eventName = some "rimz.agent-resumed" then some timestamp else none }

/-- The end stamp, a reaped end's rest and the finish clock. -/
def settle (state : AgentState) (payload : AgentLifecyclePayload) (prior : Option AgentState)
    (timestamp : Timestamp) : AgentState :=
  let ended := payload.observation.signal = .ended
  let status :=
    if ended ∧ reapedEndRestsAtIdle payload.eventName (prior.map (·.status)) = true then .idle
    else state.status
  { state with
    status
    endedAt := if ended then some timestamp else none
    finishedAt := finishClock prior status state.phase timestamp }

/-- The card, the lineage and the placement of an observed row. -/
def place (state : AgentState) (agentId : AgentSessionId) (timestamp : Timestamp)
    (payload : AgentLifecyclePayload) (prior : Option AgentState) (card : CardIdentity) :
    AgentState :=
  let observation := payload.observation
  let parent := parentAfter prior payload.eventName (nonEmptyString observation.parentAgentId)
  let worktree := worktreeProjection observation prior observation.signal.establishesIdentity
    payload.eventName
  let providerSubagent := parent.isSome && prior.all (·.launchDepth.isNone)
  let pane := paneProjection observation prior
  let runtimeOwner := runtimeProjection observation prior agentId
  { state with
    name := some card.name
    nameExplicit := card.nameExplicit
    kindOrdinal := some card.kindOrdinal
    pane, runtimeOwner
    parentAgentId := parent
    worktreePath := worktree.1
    worktreeBranches := worktree.2.elim state.worktreeBranches state.worktreeBranches.insert
    worktreeBranch := worktree.2.or state.worktreeBranch
    task := taskProjection observation prior providerSubagent (nonEmptyString observation.task)
    onScreenAt :=
      if observation.onScreen = some true then some timestamp
      else if prior.any fun (prior : AgentState) =>
          !sameInstancePlacement (prior.pane, prior.runtimeOwner) (pane, runtimeOwner) then none
      else state.onScreenAt }

/-- An open ping's prompt is the harness's, not the agent's latest ask. -/
def notePrompt (state : AgentState) (prompt : Option String) : AgentState :=
  match prompt with
  | some prompt =>
    if state.pingTurn then state else state.observePrompt prompt (promptIsWakeOnly prompt)
  | none => state

/-- What else an observation reports. A shell never outlives its session: an end or a registration
drops the list before the event's own report lands. -/
def noteReport (state : AgentState) (observation : AgentLifecycleObservation) : AgentState :=
  let stateSnapshot := observation.stateSnapshot == some true
  let shells :=
    if !stateSnapshot && (observation.signal == .ended || observation.signal == .registered) then []
    else state.backgroundShells
  { state with
    description := observation.description.or state.description
    transcriptPath := observation.transcriptPath.or state.transcriptPath
    origin := observation.origin.or state.origin
    accountKey := observation.accountKey.or state.accountKey
    compactedFrom := observation.compactedFrom.or state.compactedFrom
    backgroundShells := match stateSnapshot, observation.backgroundShells with
      | false, some report => report.apply shells
      | _, _ => shells }

def assembleAgentState (kind : AgentKind) (agentId : AgentSessionId) (timestamp : Timestamp)
    (payload : AgentLifecyclePayload) (prior : Option AgentState) (card : CardIdentity) :
    AgentState :=
  let observation := payload.observation
  let folded := foldLifecycle (observedBase kind agentId timestamp payload prior) prior timestamp
    observation.signal observation.prompt observation.askQueue (observation.stateSnapshot == some true)
  let state := settle folded.1 payload prior timestamp
  let state := foldUsage kind state prior observation.usage folded.2
  let state := place state agentId timestamp payload prior card
  let state := notePrompt state observation.prompt
  (noteReport state observation).trimEndedText

def assembleLaunchState (kind : AgentKind) (timestamp : Timestamp) (payload : AgentLaunchPayload)
    (prior : Option AgentState) (card : CardIdentity) : AgentState :=
  let state := carriedBase kind payload.agentId prior timestamp
  let state := { state with
    systemPromptDigest := payload.systemPromptDigest.or state.systemPromptDigest }
  let state := payload.launchId.elim state state.setLaunchId
  let state := foldLaunchParams state payload.launch
  let state := { state with
    workflow := match payload.state, prior with
      | .bound, some prior => prior.workflow
      | _, _ => state.workflow
    mode := payload.launch.mode
    pane := (payload.paneId.map PaneRef.fromId).or state.pane
    runtimeOwner := payload.runtimeOwner.or state.runtimeOwner }
  let state := payload.prompt.elim state fun prompt =>
    state.observePrompt prompt (promptIsWakeOnly prompt)
  let running := payload.state ≠ .failed ∧ payload.prompt.isSome
  let status : AgentStatus :=
    if payload.state = .failed then .failed else if payload.prompt.isSome then .running else .idle
  let phase : TurnPhase := if running then .reasoning else .idle
  let state := { state with
    name := some card.name
    nameExplicit := card.nameExplicit
    kindOrdinal := some card.kindOrdinal
    task := state.prompt
    description := payload.description.or state.description
    worktreePath := payload.worktreePath.or state.worktreePath
    worktreeBranch := payload.worktreeBranch.or state.worktreeBranch
    worktreeBranches := match payload.worktreeBranch with
      | some branch => if branch = "" then state.worktreeBranches else state.worktreeBranches.insert branch
      | none => state.worktreeBranches
    status, phase
    finishedAt := finishClock prior status phase timestamp
    turnStartedAt := if running then some timestamp else state.turnStartedAt
    userTurnStartedAt := if running then some timestamp else state.userTurnStartedAt
    keepaliveSince := if running then none else state.keepaliveSince }
  if prior.any fun prior => !prior.sameAgentInstance state then { state with onScreenAt := none }
  else state

/-! ### Links to other rows -/

def launchInstanceKey (state : AgentState) : Option (AgentKind × PaneId × Nat) :=
  match state.pane, state.runtimeOwner with
  | some pane, some owner =>
    if owner.kind = .agent then some (state.kind, pane.paneId, owner.pid) else none
  | _, _ => none

/-- What `LaunchIdentityIndex::predecessor` accepts. -/
def isLaunchPredecessor (successor candidate : AgentState) : Bool :=
  (launchInstanceKey candidate).isSome && launchInstanceKey candidate == launchInstanceKey successor
    && candidate.kind == successor.kind && candidate.agentId != successor.agentId
    && candidate.launchId.isSome && !candidate.isProviderSubagent
    && candidate.sameAgentInstance successor

/-- `(registered_at.is_none(), registered_at, agent_id)`: dated rows first, the oldest in front. -/
def registrationRank (row : AgentState) : Bool × Option Timestamp × AgentSessionId :=
  (row.registeredAt.isNone, row.registeredAt, row.agentId)

/-- The order of two ranks. -/
def registrationLe (a b : AgentState) : Bool :=
  (compareLex (compareOn (·.1)) (compareLex (compareOn (·.2.1)) (compareOn (·.2.2)))
    (registrationRank a) (registrationRank b)).isLE

/-- `Iterator::min_by_key`: the first of the least. -/
def firstMinBy {α : Type*} (le : α → α → Bool) : List α → Option α
  | [] => none
  | a :: rest =>
    match firstMinBy le rest with
    | none => some a
    | some best => some (if le a best then a else best)

/-- `LaunchIdentityIndex::predecessor`. -/
def launchPredecessor (map : Rows) (successor : AgentState) : Option AgentState :=
  firstMinBy registrationLe ((map.toList.map (·.2)).filter (isLaunchPredecessor successor))

/-- `inherit_launch_identity`, from a predecessor found. -/
def inheritFrom (successor predecessor : AgentState) : AgentState :=
  { successor with
    launchId := predecessor.launchId
    priorLaunchIds := predecessor.priorLaunchIds
    launchWarnings := predecessor.launchWarnings
    profile := predecessor.profile
    profileScope := predecessor.profileScope
    login := predecessor.login
    tier := predecessor.tier
    record := predecessor.record
    mode := predecessor.mode
    isolation := predecessor.isolation
    checkout := predecessor.checkout
    addDirs := predecessor.addDirs
    untrustedCheckout := predecessor.untrustedCheckout
    effectiveIsolation := predecessor.effectiveIsolation
    role := predecessor.role
    team := predecessor.team
    loopTask := predecessor.loopTask
    workflow := predecessor.workflow
    automation := predecessor.automation
    launchGroup := predecessor.launchGroup
    launchOrdinal := predecessor.launchOrdinal
    moltedFrom := predecessor.moltedFrom
    channel := predecessor.channel
    launchDepth := predecessor.launchDepth
    launchedBy := predecessor.launchedBy
    parentAgentId := predecessor.parentAgentId
    parentAgentKind := predecessor.parentAgentKind }

def inheritLaunchIdentity (map : Rows) (successor : AgentState) : AgentState :=
  if successor.launchId.isSome || successor.pane.isNone || successor.isProviderSubagent
      || successor.runtimeOwner.all (·.kind != .agent) then successor
  else (launchPredecessor map successor).elim successor (inheritFrom successor)

/-- The row a compacted continuation names, if the map has it. -/
def compactionPredecessor (map : Rows) (kind : AgentKind) (compactedFrom : Option AgentSessionId) :
    Option AgentState :=
  compactedFrom.bind fun id => map[(kind, id)]?

/-- The marks a first event that ends a compaction takes over from its predecessor. -/
def inheritCompactionMarks (predecessor : Option AgentState) (prior : Option AgentState)
    (signal : LifecycleSignal) (state : AgentState) : AgentState :=
  if prior.isNone && isCompactionEnd signal then
    { state with
      compactedAwaitingPrompt :=
        state.compactedAwaitingPrompt.or (predecessor.bind (·.compactedAwaitingPrompt))
      softCompact := (predecessor.bind (·.softCompact)).map fun mark =>
        { mark with compactions := none } }
  else state

def inheritCompactionRegistration (predecessor : Option AgentState) (continuation : AgentState) :
    AgentState :=
  match predecessor with
  | none => continuation
  | some predecessor =>
    { continuation with
      lastPromptAt := maxInstant continuation.lastPromptAt predecessor.lastPromptAt
      registeredAt := match predecessor.registeredAt, continuation.registeredAt with
        | some older, some registeredAt => some (if older < registeredAt then older else registeredAt)
        | _, registeredAt => registeredAt }

/-! ### The reducer -/

structure ReducerState where
  map : Rows
  identity : CardIdentityAllocator

namespace ReducerState

def retireProvisional (s : ReducerState) (key : AgentKey) : ReducerState × Option AgentState :=
  ({ map := s.map.erase key
     identity := (s.identity.releaseKey key).consumeLaunchKey key }, s.map[key]?)

/-- `adopt_provisional`: by name first, and by pane when that finds no row. -/
def adoptProvisional (s : ReducerState) (kind : AgentKind) (key : AgentKey)
    (observation : AgentLifecycleObservation) : ReducerState × Option AgentState :=
  let byName := observation.agentName.bind fun name =>
    s.identity.adoptableOwnerForName s.map kind name key
  let s := match byName with
    | some owner => s.retireProvisional owner
    | none => (s, none)
  match s.2 with
  | some prior => (s.1, some prior)
  | none =>
    match observation.paneId.bind fun paneId =>
        CardIdentityAllocator.adoptableOwnerForPane s.1.map kind paneId key with
    | some owner => s.1.retireProvisional owner
    | none => (s.1, none)

/-- What an existing row takes over from a placeholder on its pane. -/
def absorb (existing provisional : AgentState) : AgentState :=
  let existing := provisional.launchId.elim existing existing.setLaunchId
  { existing with
    record := provisional.record
    tier := provisional.tier
    mode := provisional.mode
    isolation := provisional.isolation
    effectiveIsolation := provisional.effectiveIsolation.or existing.effectiveIsolation }

def releaseStampedProvisionalForExisting (s : ReducerState) (kind : AgentKind) (key : AgentKey)
    (observation : AgentLifecycleObservation) : ReducerState :=
  match s.map[key]? with
  | none => s
  | some existing =>
    if existing.isProviderSubagent || (existing.pane.isSome && existing.endedAt.isNone) then s
    else
      match observation.paneId.bind fun paneId =>
          CardIdentityAllocator.adoptableOwnerForPane s.map kind paneId key with
      | none => s
      | some owner =>
        let (s, provisional) := s.retireProvisional owner
        match provisional with
        | none => s
        | some provisional => { s with map := s.map.modify key (absorb · provisional) }

/-- `quarantine_reason`: a first event that proves no session is folded to nothing. -/
def quarantineReason (signal : LifecycleSignal) (prior : Option AgentState)
    (observation : AgentLifecycleObservation) : Option String :=
  if prior.isSome then none
  else
    match signal with
    | .lost => some "lost marker for unknown session ignored by agent-state reducer"
    | .compacting | .compactionEnded .. =>
      if observation.compactedFrom.isSome then none
      else some "compaction signal for unknown session ignored by agent-state reducer"
    | .subagentStopped _ =>
      if (nonEmptyString observation.parentAgentId).isSome
          && (nonEmptyString observation.task).isNone then
        some "typeless SubagentStop for unknown child — ignored"
      else none
    | _ => none

/-- The effect of a side conversation's first sight: its id is marked and its row goes. -/
def markSide (s : ReducerState) (key : AgentKey) (observation : AgentLifecycleObservation) :
    ReducerState :=
  if observation.origin = some .sideConversation then
    { map := s.map.erase key
      identity := (s.identity.markSideSession key.2).releaseKey key }
  else s

/-- The placeholder an observation adopts or releases, and the row it is folded onto. -/
def resolvePrior (s : ReducerState) (kind : AgentKind) (key : AgentKey)
    (observation : AgentLifecycleObservation) : ReducerState × Option AgentState :=
  if observation.parentAgentId.isSome then (s, s.map[key]?)
  else if s.map.contains key then
    let s := s.releaseStampedProvisionalForExisting kind key observation
    (s, s.map[key]?)
  else
    let (s, provisional) := s.adoptProvisional kind key observation
    (s, s.map[key]?.or provisional)

/-- The row of a lifecycle event, linked to the row its compaction names. -/
def continuedRow (map : Rows) (kind : AgentKind) (agentId : AgentSessionId) (timestamp : Timestamp)
    (payload : AgentLifecyclePayload) (prior : Option AgentState) (card : CardIdentity) :
    AgentState :=
  let observation := payload.observation
  let state := assembleAgentState kind agentId timestamp payload prior card
  let state :=
    inheritCompactionMarks (compactionPredecessor map kind observation.compactedFrom) prior
    observation.signal state
  inheritCompactionRegistration (compactionPredecessor map kind state.compactedFrom) state

/-- The row of a lifecycle event, links to other rows included. -/
def lifecycleRow (map : Rows) (kind : AgentKind) (agentId : AgentSessionId) (timestamp : Timestamp)
    (payload : AgentLifecyclePayload) (prior : Option AgentState) (card : CardIdentity) :
    AgentState :=
  inheritLaunchIdentity map (continuedRow map kind agentId timestamp payload prior card)

def reduceLifecycleEvent (env : NamingEnv) (s : ReducerState) (event : Event)
    (payload : AgentLifecyclePayload) : Option ReducerState :=
  let kind := event.source
  let observation := payload.observation
  match observation.agentId with
  | none => some s
  | some agentId =>
    let key := (kind, agentId)
    let s := s.markSide key observation
    if s.identity.sideSessions.contains agentId then some s
    else
      let (s, prior) := s.resolvePrior kind key observation
      if (quarantineReason observation.signal prior observation).isSome then some s
      else
        (s.identity.assign env kind agentId observation prior).map fun (identity, card) =>
          { map := s.map.insert key
              (lifecycleRow s.map kind agentId event.timestamp payload prior card)
            identity }

/-- A placeholder whose name another session of the kind bears by now. -/
def launchSuperseded (s : ReducerState) (kind : AgentKind) (payload : AgentLaunchPayload) : Bool :=
  isProvisional payload.agentId && s.identity.names[payload.agentName]?.any fun owner =>
    owner.1 == kind && owner != (kind, payload.agentId) && s.map.contains owner

/-- A failure of a launch that nothing else tells of. -/
def launchMoot (s : ReducerState) (kind : AgentKind) (payload : AgentLaunchPayload) : Bool :=
  payload.state == .failed && !s.map.contains (kind, payload.agentId)
    && !s.identity.names.contains payload.agentName

def reduceAgentLaunch (env : NamingEnv) (s : ReducerState) (event : Event)
    (payload : AgentLaunchPayload) : Option ReducerState :=
  let kind := event.source
  let key := (kind, payload.agentId)
  if !validAgentName env payload.agentName then some s
  else if s.identity.consumedLaunches.contains payload.agentId then some s
  else if s.launchSuperseded kind payload then
    some { s with identity := s.identity.consumeLaunchKey key }
  else if s.launchMoot kind payload then some s
  else
    let prior := s.map[key]?
    (s.identity.assignLaunch env kind payload.agentId payload prior).map fun (identity, card) =>
      { map := s.map.insert key (assembleLaunchState kind event.timestamp payload prior card)
        identity }

/-- What an attach stamps on the row. -/
def attachRow (state : AgentState) (payload : AgentAttachPayload) : AgentState :=
  let state := payload.launchId.elim state state.setLaunchId
  let pane : PaneRef := { PaneRef.fromId payload.paneId with panePid := payload.panePid }
  { state with
    login := match payload.login with
      | some login => if LoginName.isDefault login then none else some login
      | none => state.login
    isolation := payload.isolation.or state.isolation
    effectiveIsolation := payload.effectiveIsolation.or state.effectiveIsolation
    record := payload.record.or state.record
    tier := if payload.record.isSome then payload.tier else state.tier
    mode := if payload.record.isSome || payload.mode.isSome then payload.mode else state.mode
    pane := some pane
    runtimeOwner := some payload.runtimeOwner
    onScreenAt :=
      if sameInstancePlacement (state.pane, state.runtimeOwner)
          (some pane, some payload.runtimeOwner) then state.onScreenAt
      else none }

/-- `reduce_agent_attach`: a resume wrapper may seed a session no event has named yet. -/
def reduceAgentAttach (s : ReducerState) (event : Event) (payload : AgentAttachPayload) :
    ReducerState :=
  let key := (event.source, payload.agentId)
  match s.map[key]?, payload.launchId with
  | none, none => s
  | prior, _ =>
    let row := prior.getD (AgentState.seed event.source payload.agentId .idle event.timestamp)
    { s with map := s.map.insert key (attachRow row payload) }

end ReducerState

/-- `unstamp_for_rebirth`, one row. -/
def unstamp (row : AgentState) : AgentState :=
  { row with pane := none, onScreenAt := none, kindOrdinal := none }

/-- A compaction command on its way, or a step of a soft compaction. -/
def concernsCompaction (payload : MessageEventPayload) : Bool :=
  (payload.body == .command && (payload.status == .sent || payload.status == .delivered))
    || (payload.softCompact == some .wrapUp && payload.status == .sent)
    || (payload.softCompact == some .continue_ && payload.status == .queued)

/-- `message_agent_key`: the receiver of such a message, by id and else by name. -/
def messageAgentKey (agents : List AgentState) (payload : MessageEventPayload) : Option AgentKey :=
  if !concernsCompaction payload then none
  else
    ((agents.find? fun agent =>
        agent.kind == payload.kind && agent.agentId == payload.agentId).or
      (payload.agentName.bind fun name =>
        agents.find? fun agent => agent.kind == payload.kind && agent.name == some name)).map
      AgentState.key

/-- The stamps of `stamp_message`. -/
def stampMessageRow (payload : MessageEventPayload) (timestamp : Timestamp) (agent : AgentState) :
    AgentState :=
  let agent := match payload.softCompact, payload.status with
    | some .wrapUp, .sent =>
      { agent with softCompact := some ⟨timestamp, some agent.compactionCount, .wrappingUp⟩ }
    | some .continue_, .queued =>
      { agent with softCompact := agent.softCompact.map fun mark =>
        { mark with progress := .continued } }
    | _, _ => agent
  if payload.body = .command then
    { agent with
      lastCompactCommandTokens := payload.compactedContextTokens.or agent.lastCompactCommandTokens
      compactedAwaitingPrompt :=
        if payload.status = .sent then some timestamp else agent.compactedAwaitingPrompt }
  else agent

def stampMessage (map : Rows) (payload : MessageEventPayload) (timestamp : Timestamp) : Rows :=
  match messageAgentKey (map.toList.map (·.2)) payload with
  | none => map
  | some key => map.modify key (stampMessageRow payload timestamp)

/-- One round of `reduce_agent_states_seeded_with_identity`. -/
def ReducerState.reduce (env : NamingEnv) (s : ReducerState) (event : Event) : Option ReducerState :=
  match event.kind with
  | .sessionRebirth =>
    some { map := s.map.map fun _ row => unstamp row
           identity := s.identity.resetOrdinals }
  | .agentLaunch payload => s.reduceAgentLaunch env event payload
  | .agentAttach payload => some (s.reduceAgentAttach event payload)
  | .agentLaunchWarnings payload =>
    some { s with map := s.map.modify (event.source, payload.agentId) fun agent =>
      { agent with launchWarnings := payload.warnings } }
  | .agentLifecycle payload => s.reduceLifecycleEvent env event payload
  | .agentWorkflowCleared payload =>
    some { s with map := s.map.modify (event.source, payload.agentId) fun agent =>
      if agent.workflow = some payload.workflow then { agent with workflow := none } else agent }
  | .message payload => some { s with map := stampMessage s.map payload event.timestamp }
  | .sessionDeath | .signal _ | .other _ => some s

/-- The reducer's state before the first event of a delta. -/
def ReducerState.ofSeed (env : NamingEnv) (seed : Rows) (identity : AgentIdentityState) :
    ReducerState :=
  ⟨seed, CardIdentityAllocator.fromMapAndState env seed identity⟩

/-- `reduce_agent_states_seeded_with_identity`; `none` when a search for a card identity has no
end. -/
def reduceAgentStatesSeededWithIdentity (env : NamingEnv) (seed : Rows)
    (identity : AgentIdentityState) (events : List Event) : Option (Rows × AgentIdentityState) :=
  (events.foldlM (ReducerState.reduce env) (ReducerState.ofSeed env seed identity)).map fun s =>
    (s.map, s.identity.state)

end Rimz.Snapshot
