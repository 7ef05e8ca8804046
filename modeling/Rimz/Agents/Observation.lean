import Rimz.Agents.Lifecycle
import Rimz.Lib.Text

/-!
# What an event reports of an agent

The payload types of `agents/observation.rs`, `pane.rs` and `store/event.rs` that the rollup folds:
launch parameters, panes and owners, usage readings, asks, background shells and the lifecycle
observation itself. A field that no fold reads is left out.
-/

namespace Rimz.Agents
open Rimz.Lib

inductive PermissionMode where
  | auto
  | ask
  | yolo
  | plan
  deriving DecidableEq

inductive Isolation where
  | host
  | scoped
  | sandbox
  deriving DecidableEq

inductive ProfileScope where
  | agents
  | subagents
  deriving DecidableEq

/-- `LoginName`; the provider's own home is called `default`. -/
abbrev LoginName := String

def LoginName.isDefault (name : LoginName) : Bool := name == "default"

structure LaunchedBy where
  kind : AgentKind
  agentId : AgentSessionId

structure LaunchRecord where
  model : Option String
  effort : Option String
  agent : Option String
  fast : Bool
  autoCompact : Option Nat
  notes : Option String
  loopSection : Option String

/-- `TierStamp`: the model the launch walk chose. -/
structure TierStamp where
  model : String

inductive Automation where
  | loop
  | workflow (workflow step : String)

inductive WorkflowAttemptRole where
  | step
  | judge
  deriving DecidableEq

structure WorkflowAttemptRef where
  run : String
  seq : Nat
  role : WorkflowAttemptRole
  deriving DecidableEq

structure LaunchParams where
  automation : Option Automation := none
  workflow : Option WorkflowAttemptRef := none
  checkout : Option String := none
  addDirs : List String := []
  untrustedCheckout : Bool := false
  moltedFrom : Option AgentSessionId := none
  record : Option LaunchRecord := none
  tier : Option TierStamp := none
  parentAgentId : Option AgentSessionId := none
  parentAgentKind : Option AgentKind := none
  launchDepth : Option Nat := none
  launchedBy : Option LaunchedBy := none
  profile : Option String := none
  profileScope : Option ProfileScope := none
  login : Option LoginName := none
  mode : Option PermissionMode := none
  isolation : Option Isolation := none
  role : Option String := none
  model : Option String := none
  effort : Option String := none
  budget : Option String := none
  team : Option String := none
  loopTask : Option String := none
  launchGroup : Option String := none
  launchOrdinal : Option Nat := none
  channel : Option String := none
  kindOrdinal : Option Nat := none

/-- `PaneRef`: the pane, its process and the command texts an ended row drops. -/
structure PaneRef where
  paneId : PaneId
  panePid : Option Nat := none
  paneProcessStart : Option Timestamp := none
  spawnCommand : Option String := none
  foregroundCmdline : Option String := none

def PaneRef.fromId (paneId : PaneId) : PaneRef := { paneId }

inductive RuntimeOwnerKind where
  | agent
  | daemon
  | script
  deriving DecidableEq

structure RuntimeOwner where
  kind : RuntimeOwnerKind
  subjectId : String
  pid : Nat
  processStart : Option String

def compatibleTokens {α : Type*} [DecidableEq α] : Option α → Option α → Bool
  | some older, some newer => older == newer
  | _, _ => true

/-- `same_instance_placement`: one pane and one agent process. -/
def sameInstancePlacement (older newer : Option PaneRef × Option RuntimeOwner) : Bool :=
  match older, newer with
  | (some olderPane, some olderOwner), (some newerPane, some newerOwner) =>
    olderPane.paneId == newerPane.paneId
      && compatibleTokens olderPane.paneProcessStart newerPane.paneProcessStart
      && olderOwner.kind == .agent && newerOwner.kind == .agent
      && olderOwner.pid == newerOwner.pid
      && compatibleTokens olderOwner.processStart newerOwner.processStart
  | _, _ => false

/-! ### Usage -/

structure AgentUsageSummary where
  contextPct : Option Nat := none
  contextWindow : Option Nat := none
  contextCapacity : Option Nat := none
  totalTokens : Option Nat := none
  runTotalTokens : Option Nat := none
  cacheReadInputTokens : Option Nat := none
  cacheWriteInputTokens : Option Nat := none
  freshInputTokens : Option Nat := none
  outputTokens : Option Nat := none

namespace AgentUsageSummary

/-- `input_context_tokens`. An all-zero split beside a nonzero total is an estimate. -/
def inputContextTokens (u : AgentUsageSummary) : Option Nat := do
  let fresh ← u.freshInputTokens
  let input := u.cacheReadInputTokens.getD 0 + u.cacheWriteInputTokens.getD 0 + fresh
  if input > 0 ∨ ¬ u.totalTokens.any (· > 0) = true then some input else none

def contextUsedTokens (u : AgentUsageSummary) : Option Nat := u.inputContextTokens.or u.totalTokens

def resolvedContextPct (u : AgentUsageSummary) (defaultWindow : Option Nat) : Option Nat :=
  u.contextPct.or do
    let used ← u.contextUsedTokens
    let window ← u.contextWindow.or defaultWindow
    if window > 0 then some (min (min (used * 100) u64Max / window) 100) else none

/-- `merge`: sparse readings carry forward, and capacity stays beside its window. -/
def merge (u : AgentUsageSummary) (prior : Option AgentUsageSummary) (defaultWindow : Option Nat) :
    AgentUsageSummary :=
  let prior := prior.getD {}
  let merged : AgentUsageSummary :=
    { contextPct := none
      contextWindow := u.contextWindow.or prior.contextWindow
      contextCapacity := if u.contextWindow.isSome then u.contextCapacity else prior.contextCapacity
      totalTokens := u.totalTokens.or prior.totalTokens
      runTotalTokens := u.runTotalTokens.or prior.runTotalTokens
      cacheReadInputTokens := u.cacheReadInputTokens.or prior.cacheReadInputTokens
      cacheWriteInputTokens := u.cacheWriteInputTokens.or prior.cacheWriteInputTokens
      freshInputTokens := u.freshInputTokens.or prior.freshInputTokens
      outputTokens := u.outputTokens.or prior.outputTokens }
  { merged with
    contextPct := (u.contextPct.or (merged.resolvedContextPct defaultWindow)).or prior.contextPct }

def clearCurrentWindow (u : AgentUsageSummary) : AgentUsageSummary :=
  { contextWindow := u.contextWindow
    contextCapacity := u.contextCapacity
    runTotalTokens := u.runTotalTokens }

end AgentUsageSummary

/-! ### Asks and shells -/

structure OpenAsk where
  id : String
  kind : AskKind
  detail : Option String
  extraQuestions : Nat
  nativeKey : Option String
  since : Timestamp

structure QueuedAsk where
  id : String
  detail : String
  nativeKey : String
  since : Timestamp

structure QueuedQuestion where
  askId : Option String
  nativeKey : String
  detail : String

/-- `AskQueueEdit`, with the answered questions by their keys. -/
structure AskQueueEdit where
  clearAll : Bool
  queued : List QueuedQuestion
  answered : List String

/-- The edit of `queued_asks` in `fold_lifecycle`. -/
def AskQueueEdit.apply (edit : AskQueueEdit) (asks : List QueuedAsk) (at_ : Timestamp) :
    List QueuedAsk :=
  let kept := (if edit.clearAll then [] else asks).filter fun ask =>
    !edit.answered.contains ask.nativeKey
  edit.queued.foldl (fun asks question =>
    match question.askId with
    | none => asks
    | some id =>
      if asks.any (·.nativeKey == question.nativeKey) then asks
      else asks ++ [⟨id, question.detail, question.nativeKey, at_⟩]) kept

structure BackgroundShell where
  id : String
  command : Option String
  description : Option String
  startedAt : Timestamp

inductive BackgroundShellReport where
  | started (shell : BackgroundShell)
  | snapshot (shells : List BackgroundShell)
  | finished (ids : List String)

/-- `BackgroundShellReport::apply`. A listed shell keeps its first `started_at`. -/
def BackgroundShellReport.apply (report : BackgroundShellReport) (shells : List BackgroundShell) :
    List BackgroundShell :=
  match report with
  | started shell => if shells.any (·.id == shell.id) then shells else shells ++ [shell]
  | snapshot reported => reported.map fun shell =>
    { shell with
      startedAt := ((shells.find? (·.id == shell.id)).map (·.startedAt)).getD shell.startedAt }
  | finished ids => shells.filter fun known => !ids.contains known.id

/-! ### The observation -/

inductive SessionOrigin where
  | fresh
  | forked
  | sideConversation
  deriving DecidableEq

structure AgentLifecycleObservation where
  agentId : Option AgentSessionId
  signal : LifecycleSignal
  onScreen : Option Bool := none
  stateSnapshot : Option Bool := none
  agentName : Option String := none
  launch : LaunchParams := {}
  askQueue : Option AskQueueEdit := none
  agentPid : Option Nat := none
  accountKey : Option String := none
  agentProcessStart : Option String := none
  runtimeOwner : Option RuntimeOwner := none
  worktreePath : Option String := none
  worktreeBranch : Option String := none
  task : Option String := none
  prompt : Option String := none
  description : Option String := none
  transcriptPath : Option String := none
  origin : Option SessionOrigin := none
  compactedFrom : Option AgentSessionId := none
  usage : AgentUsageSummary := {}
  paneId : Option PaneId := none
  paneStamp : Option PaneRef := none
  parentAgentId : Option AgentSessionId := none
  backgroundShells : Option BackgroundShellReport := none

def nonEmptyString (value : Option String) : Option String :=
  value.bind fun s =>
    let trimmed := trim s.toList
    if trimmed = [] then none else some (String.ofList trimmed)

end Rimz.Agents
