import Rimz.Agents.Observation
import Rimz.Lib.OrderedMap

/-!
# The agent rollup row

`AgentState` with every field the event fold writes. The enrichment that read paths join later
(context sidecars, budget parks, pending waits, subagent descriptions) is never reduced from events
and is left out, and so is `root_lane`, which is a function of the row's lane and the project root.
-/

namespace Rimz.Agents
open Rimz.Lib

abbrev AgentKey := AgentKind × AgentSessionId

/-- `AgentSessionId::is_provisional`: a launch-time placeholder. -/
def isProvisional (id : AgentSessionId) : Bool := "launch_".toList.isPrefixOf id.toList

inductive SoftCompactProgress where
  | wrappingUp
  | turnEnded
  | continued
  deriving DecidableEq

structure SoftCompactMark where
  steeredAt : Timestamp
  compactions : Option Nat
  progress : SoftCompactProgress

structure AgentState where
  kind : AgentKind
  agentId : AgentSessionId
  status : AgentStatus
  lastSeen : Timestamp
  lastActivity : Timestamp
  registeredAt : Option Timestamp
  phase : TurnPhase
  moltedFrom : Option AgentSessionId := none
  launchId : Option AgentSessionId := none
  priorLaunchIds : List AgentSessionId := []
  systemPromptDigest : Option String := none
  launchWarnings : List String := []
  name : Option String := none
  nameExplicit : Bool := false
  kindOrdinal : Option Nat := none
  profile : Option String := none
  profileScope : Option ProfileScope := none
  login : Option LoginName := none
  tier : Option TierStamp := none
  record : Option LaunchRecord := none
  mode : Option PermissionMode := none
  isolation : Option Isolation := none
  effectiveIsolation : Option Isolation := none
  role : Option String := none
  team : Option String := none
  loopTask : Option String := none
  workflow : Option WorkflowAttemptRef := none
  automation : Option Automation := none
  launchGroup : Option String := none
  launchOrdinal : Option Nat := none
  channel : Option String := none
  endedAt : Option Timestamp := none
  resumedAt : Option Timestamp := none
  finishedAt : Option Timestamp := none
  pane : Option PaneRef := none
  runtimeOwner : Option RuntimeOwner := none
  parentAgentId : Option AgentSessionId := none
  parentAgentKind : Option AgentKind := none
  launchDepth : Option Nat := none
  launchedBy : Option LaunchedBy := none
  worktreePath : Option String := none
  checkout : Option String := none
  addDirs : List String := []
  untrustedCheckout : Bool := false
  worktreeBranch : Option String := none
  worktreeBranches : Std.ExtTreeSet String := ∅
  task : Option String := none
  firstPrompt : Option String := none
  prompt : Option String := none
  promptWakeOnly : Bool := false
  description : Option String := none
  transcriptPath : Option String := none
  origin : Option SessionOrigin := none
  accountKey : Option String := none
  compactedFrom : Option AgentSessionId := none
  model : Option String := none
  effort : Option String := none
  budget : Option String := none
  usage : AgentUsageSummary := {}
  backgroundShells : List BackgroundShell := []
  turnStartedAt : Option Timestamp := none
  turnEndedAt : Option Timestamp := none
  lastToolAt : Option Timestamp := none
  userTurnStartedAt : Option Timestamp := none
  lastPromptAt : Option Timestamp := none
  keepaliveSince : Option Timestamp := none
  pingTurn : Bool := false
  pingedAt : Option Timestamp := none
  waitingSince : Option Timestamp := none
  openAsk : Option OpenAsk := none
  queuedAsks : List QueuedAsk := []
  startedTurnId : Option String := none
  supersededTurnId : Option String := none
  closedTurnId : Option String := none
  compactingSince : Option Timestamp := none
  compactionCount : Nat := 0
  softCompact : Option SoftCompactMark := none
  toolCalls : Std.ExtTreeMap String Nat := ∅
  lastCompactCommandTokens : Option Nat := none
  retiredContextTokens : Option Nat := none
  compactionRetired : Bool := false
  compactedUnmeasured : Bool := false
  compactedAwaitingPrompt : Option Timestamp := none
  onScreenAt : Option Timestamp := none

/-- The derived order on `Option<Timestamp>`, `None` first. -/
def maxInstant : Option Timestamp → Option Timestamp → Option Timestamp
  | none, b => b
  | a, none => a
  | some a, some b => some (max a b)

namespace AgentState

def seed (kind : AgentKind) (agentId : AgentSessionId) (status : AgentStatus) (at_ : Timestamp) :
    AgentState :=
  { kind, agentId, status
    lastSeen := at_
    lastActivity := at_
    registeredAt := some at_
    phase := if status = .running then .reasoning else .idle }

def key (s : AgentState) : AgentKey := (s.kind, s.agentId)

/-- `is_provider_subagent`: a paneless child of the provider's own. -/
def isProviderSubagent (s : AgentState) : Bool := s.parentAgentId.isSome && s.launchDepth.isNone

def setLaunchId (s : AgentState) (id : AgentSessionId) : AgentState :=
  if s.launchId = some id then s
  else
    { s with
      launchId := some id
      priorLaunchIds := s.priorLaunchIds.filter (· ≠ id) ++ s.launchId.toList }

def lifecycle (s : AgentState) : LifecycleState := ⟨s.status, s.phase, s.compactingSince.isSome⟩

def turnIds (s : AgentState) : PriorTurnIds := ⟨s.startedTurnId, s.supersededTurnId, s.closedTurnId⟩

def openAskKey (s : AgentState) : Option String := s.openAsk.bind (·.nativeKey)

def restsInLifecycle (s : AgentState) : Bool :=
  s.status == .idle || s.status == .success || (s.status == .running && s.phase == .parked)

def lastRequestAt (s : AgentState) : Option Timestamp :=
  let real := s.turnEndedAt.bind fun ended =>
    (maxInstant s.turnStartedAt s.lastToolAt).map fun request => min request ended
  maxInstant real s.pingedAt

def trimEndedText (s : AgentState) : AgentState :=
  if s.endedAt.isNone then s
  else
    { s with
      pane := s.pane.map fun pane => { pane with spawnCommand := none, foregroundCmdline := none } }

def sameAgentInstance (older newer : AgentState) : Bool :=
  sameInstancePlacement (older.pane, older.runtimeOwner) (newer.pane, newer.runtimeOwner)

/-- The turn a signal opens, closes or reports on while only a cache keepalive runs. -/
def pingEdge (prior : AgentState) (signal : LifecycleSignal) (keepalivePrompt stale : Bool) :
    Option PingEdge :=
  match signal with
  | .turnStarted _ =>
    if !stale && (prior.pingTurn || (prior.restsInLifecycle && prior.compactingSince.isNone))
        && keepalivePrompt then some .open_
    else none
  | .turnEnded _ _ turnId | .turnInterrupted turnId =>
    if prior.pingTurn then
      if stale || (turnId.isSome && prior.startedTurnId == turnId) then some .report else some .close
    else none
  | _ => none

/-- `AgentState::transition`, the step the writer and the fold take. -/
def transition (prior : Option AgentState) (signal : LifecycleSignal)
    (keepalivePrompt stateSnapshot : Bool) : Transition :=
  if stateSnapshot then snapshotTransition (prior.map lifecycle) signal
  else
    let stepped := step (prior.map lifecycle) (prior.bind openAskKey)
      ((prior.map turnIds).getD {}) signal
    match prior with
    | none => stepped
    | some prior =>
      let stale := stepped.kind.isIgnored
      match prior.pingEdge signal keepalivePrompt stale with
      | none => stepped
      | some edge =>
        { next := prior.lifecycle
          kind :=
            if stale then stepped.kind
            else if edge = .report then
              .ignored "turn report for a real turn while a cache keepalive is open"
            else .ignored "cache keepalive turn"
          compactionClosed := false
          waitingCleared := false
          openedTurn := false
          ping := some edge }

end AgentState

/-! ### Prompt labels -/

/-- `char::is_control`: the category `Cc`. -/
def isControl (c : Char) : Bool := c.toNat < 0x20 || (0x7F ≤ c.toNat && c.toNat ≤ 0x9F)

def promptLabelMaxChars : Nat := 160

/-- The loop of `single_line_prefix`, over the room left and whether a space is owed. -/
def singleLine : Nat → Bool → List Char → List Char → List Char
  | _, _, out, [] => out
  | room, pendingSpace, out, c :: rest =>
    if isWhitespace c then singleLine room (pendingSpace || !out.isEmpty) out rest
    else if isControl c then singleLine room pendingSpace out rest
    else if room < pendingSpace.toNat + 1 then out
    else
      singleLine (room - (pendingSpace.toNat + 1)) false
        (out ++ (if pendingSpace then [' '] else []) ++ [c]) rest

def singleLinePrefix (value : String) (maxChars : Nat) : Option String :=
  match singleLine maxChars false [] value.toList with
  | [] => none
  | out => some (String.ofList out)

/-- `CONTROL_TAG_PREFIXES`. -/
def controlTags : List String :=
  ["<task-notification>", "<system-reminder>", "<system_reminder>", "<previous-attempt-failure>",
    "<command-message>", "<command-name>", "<local-command-stdout>", "<skill name="]

def usableDescription (value : String) : Bool :=
  value.toList.any (fun c => !isWhitespace c && !isControl c)
    && !controlTags.any fun tag => tag.toList.isPrefixOf (trimStart value.toList)

/-- `observe_prompt`: the first usable prompt is set once. -/
def AgentState.observePrompt (s : AgentState) (prompt : String) (wakeOnly : Bool) : AgentState :=
  let label := singleLinePrefix prompt promptLabelMaxChars
  { s with
    firstPrompt := if s.firstPrompt.isNone && usableDescription prompt then label else s.firstPrompt
    prompt := label
    promptWakeOnly := wakeOnly }

end Rimz.Agents
