import Rimz.Ids

/-!
# The agent lifecycle machine

`agents/lifecycle.rs`: the signal a native event carries, and the pure `step` that folds it onto the
reduced state. Every pair has a successor; an unexpected one takes the signal's natural edge and is
tagged `reconciled`, and one that must not touch the row is tagged `ignored`.
-/

namespace Rimz.Agents

inductive AskKind where
  | permission
  | planApproval
  | question
  deriving DecidableEq

/-- `LifecycleSignal`, the intent of one native event. -/
inductive LifecycleSignal where
  | registered
  | turnStarted (turnId : Option String)
  | turnEnded (errored parkedOnBackground : Bool) (turnId : Option String)
  | turnInterrupted (turnId : Option String)
  | subagentStarted
  | subagentStopped (errored : Bool)
  | toolUsed (mutates edits : Bool) (name nativeKey turnId : Option String)
  | awaitingInput (kind : AskKind) (askId detail : Option String) (extraQuestions : Nat)
      (nativeKey : Option String)
  | askResolved (nativeKey : Option String)
  | compacting
  | compactionEnded (auto : Option Bool) (failed : Bool)
  | ended
  | lost
  deriving DecidableEq

namespace LifecycleSignal

def establishesIdentity : LifecycleSignal → Bool
  | registered | subagentStarted => true
  | _ => false

def isTurnStarted : LifecycleSignal → Bool
  | turnStarted _ => true
  | _ => false

end LifecycleSignal

/-- `TurnPhase`, the shape of a running turn; `idle` outside `running`. -/
inductive TurnPhase where
  | idle
  | reasoning
  | acting
  | parked
  deriving DecidableEq

structure LifecycleState where
  status : AgentStatus
  phase : TurnPhase
  compacting : Bool

inductive TransitionKind where
  | normal
  | reconciled (origin : AgentStatus) (reason : String)
  | ignored (reason : String)

def TransitionKind.isIgnored : TransitionKind → Bool
  | ignored _ => true
  | _ => false

/-- `PingEdge`: how a signal touches a turn that a cache keepalive opened. -/
inductive PingEdge where
  | open_
  | close
  | report
  deriving DecidableEq

structure Transition where
  next : LifecycleState
  kind : TransitionKind
  compactionClosed : Bool
  waitingCleared : Bool
  openedTurn : Bool
  ping : Option PingEdge

/-- `PriorTurnIds`, the provider turn ids a record remembers. -/
structure PriorTurnIds where
  started : Option String := none
  superseded : Option String := none
  closed : Option String := none

/-- `turn_ids_after`. Only a turn start moves the first two, and a repeated start for the open turn
keeps both. -/
def turnIdsAfter (prior : PriorTurnIds) (signal : LifecycleSignal) (openedTurn : Bool) :
    PriorTurnIds :=
  let moved := match signal with
    | .turnStarted turnId =>
      if turnId ≠ prior.started then (turnId, prior.started.or prior.superseded)
      else (prior.started, prior.superseded)
    | _ => (prior.started, prior.superseded)
  let closed := match signal with
    | .turnInterrupted turnId | .turnEnded _ false turnId => turnId
    | .registered | .turnStarted _ => none
    | _ => if openedTurn then none else prior.closed
  ⟨moved.1, moved.2, closed⟩

/-- `stale_turn_report`: a report for the turn a later start superseded came late, and a cancel
cannot take back a verdict its turn already reported. -/
def staleTurnReport (signal : LifecycleSignal) (priorStatus : Option AgentStatus)
    (turnIds : PriorTurnIds) : Option String :=
  let check (report : String) (cancel : Bool) : Option String :=
    if turnIds.started ≠ some report then
      if turnIds.superseded = some report then some "turn report for a turn a later start superseded"
      else none
    else if cancel = true ∧ (priorStatus = some .success ∨ priorStatus = some .failed) then
      some "turn cancel after its turn already reported"
    else none
  match signal with
  | .turnEnded _ _ (some report) => check report false
  | .turnInterrupted (some report) => check report true
  | _ => none

/-- `stale_ask_close`: only a waiting row has an ask to close, and a keyed close for another ask
leaves the open one waiting. -/
def staleAskClose (priorStatus : Option AgentStatus) (openAskKey nativeKey : Option String) :
    Option String :=
  if priorStatus ≠ some .waiting then some "ask resolved outside a waiting row"
  else if openAskKey.isSome = true ∧ nativeKey.isSome = true ∧ openAskKey ≠ nativeKey then
    some "ask resolved for another open ask"
  else none

/-- Why `step` leaves the row alone, if it does. -/
def ignoredReason (priorStatus : Option AgentStatus) (openAskKey : Option String)
    (turnIds : PriorTurnIds) (signal : LifecycleSignal) : Option String :=
  match signal with
  | .lost => some "session lost (legacy replay marker)"
  | .askResolved nativeKey => staleAskClose priorStatus openAskKey nativeKey
  | .toolUsed _ _ _ nativeKey turnId =>
    if priorStatus = some .waiting ∧ openAskKey.isSome = true ∧ openAskKey ≠ nativeKey then
      some "sibling tool completed while a keyed ask is open"
    else if turnId.isSome = true ∧ turnIds.closed = turnId then
      some "tool reported after its turn closed"
    else none
  | _ => staleTurnReport signal priorStatus turnIds

def openedTurn (signal : LifecycleSignal) (priorStatus : Option AgentStatus)
    (priorPhase : TurnPhase) (status : AgentStatus) : Bool :=
  match signal with
  | .turnStarted _ => !(priorStatus == some .running && priorPhase == .parked)
  | .subagentStarted => status == .running
  | .toolUsed .. =>
    status == .running && priorStatus != some .running && priorStatus != some .waiting
  | _ => false

/-- `reconcile_activity`: proof of activity wakes a resting row and leaves every other verdict. -/
def reconcileActivity (priorStatus : Option AgentStatus) (reason : String) (kind : TransitionKind) :
    AgentStatus × TransitionKind :=
  match priorStatus with
  | some .running | some .waiting => (.running, kind)
  | some .idle => (.running, .reconciled .idle reason)
  | some .success => (.running, .reconciled .success reason)
  | some other => (other, kind)
  | none => (.running, .reconciled .idle reason)

/-- `map_status`, with the tag the source keeps in a mutable argument. `lost` never arrives here:
`step` returns before. -/
def mapStatus (signal : LifecycleSignal) (priorStatus : Option AgentStatus) :
    AgentStatus × TransitionKind :=
  match signal with
  | .registered => (.idle, .normal)
  | .turnStarted _ => (.running, .normal)
  | .subagentStarted =>
    match priorStatus with
    | some .success => (.success, .ignored "subagent start after a terminal stop")
    | some .failed => (.failed, .ignored "subagent start after a terminal stop")
    | _ => (.running, .normal)
  | .awaitingInput .. => (.waiting, .normal)
  | .askResolved _ => (.running, .normal)
  | .subagentStopped errored => (if errored then .failed else .success, .normal)
  | .turnEnded errored parkedOnBackground _ =>
    (if errored then .failed else if parkedOnBackground then .running else .success, .normal)
  | .turnInterrupted _ => (.idle, .normal)
  | .toolUsed .. =>
    reconcileActivity priorStatus
      (if priorStatus.isSome then "tool used outside a running turn"
        else "tool used before session registered") .normal
  | .compacting =>
    match priorStatus with
    | some .waiting => (.running, .reconciled .waiting "compaction began while an ask was open")
    | other => (other.getD .idle, .normal)
  | .compactionEnded auto failed =>
    match auto, failed, priorStatus with
    | _, true, some .waiting | none, false, some .waiting => (.running, .normal)
    | _, true, other | none, false, other => (other.getD .idle, .normal)
    | some true, false, some .running | some true, false, some .waiting => (.running, .normal)
    | some true, false, other => (other.getD .idle, .normal)
    | some false, false, some .waiting => (.running, .normal)
    | some false, false, some .running | some false, false, none => (.idle, .normal)
    | some false, false, some resting => (resting, .normal)
  | .ended =>
    match priorStatus with
    | some .running | some .waiting => (.failed, .normal)
    | other => (other.getD .idle, .normal)
  | .lost => (priorStatus.getD .idle, .normal)

/-- `map_phase`. The phase exists only inside a running turn. -/
def mapPhase (signal : LifecycleSignal) (priorPhase : TurnPhase) (status : AgentStatus) :
    TurnPhase :=
  let phase := match signal with
    | .turnStarted _ | .subagentStarted => TurnPhase.reasoning
    | .awaitingInput .. => .idle
    | .askResolved _ => .acting
    | .toolUsed _ edits _ _ _ =>
      if !edits && priorPhase == .reasoning then .reasoning else .acting
    | .turnEnded false true _ => .parked
    | .compacting | .compactionEnded .. => priorPhase
    | .registered | .ended | .turnEnded .. | .turnInterrupted _ | .subagentStopped _ | .lost => .idle
  if status = .running then if phase = .idle then .reasoning else phase else .idle

def step (prev : Option LifecycleState) (openAskKey : Option String) (turnIds : PriorTurnIds)
    (signal : LifecycleSignal) : Transition :=
  let priorStatus := prev.map (·.status)
  let priorPhase := (prev.map (·.phase)).getD .idle
  let wasCompacting := prev.any (·.compacting)
  match ignoredReason priorStatus openAskKey turnIds signal with
  | some reason =>
    let status := priorStatus.getD .idle
    { next := ⟨status, if status = .running then priorPhase else .idle, wasCompacting⟩
      kind := .ignored reason
      compactionClosed := false
      waitingCleared := false
      openedTurn := false
      ping := none }
  | none =>
    -- compaction is a head over the status it interrupts; every other signal clears it
    let compacting := signal == .compacting
    let mapped := mapStatus signal priorStatus
    let status := mapped.1
    let phase := mapPhase signal priorPhase status
    let kind := match signal, mapped.2 with
      | .compactionEnded .., .normal =>
        if wasCompacting = false ∧ priorStatus = some status ∧ priorPhase = phase then
          .ignored "compaction end without an open bracket"
        else .normal
      | _, kind => kind
    { next := ⟨status, phase, compacting⟩
      kind
      compactionClosed := wasCompacting && !compacting
      waitingCleared := priorStatus == some .waiting && status != .waiting
      openedTurn := openedTurn signal priorStatus priorPhase status
      ping := none }

/-- `AgentState::snapshot_transition`: a report of the current state takes no edge and closes no
compaction bracket. -/
def snapshotTransition (prior : Option LifecycleState) (signal : LifecycleSignal) : Transition :=
  let before := prior.getD ⟨.idle, .idle, false⟩
  let status := match signal, before.status with
    | .turnStarted _, _ => .running
    | .registered, .running | .registered, .waiting => .idle
    | _, status => status
  let phase :=
    if status = before.status then before.phase
    else if status = .running then .reasoning
    else .idle
  { next := ⟨status, phase, before.compacting⟩
    kind := .normal
    compactionClosed := false
    waitingCleared := before.status == .waiting && status != .waiting
    openedTurn := status == .running && before.status != .running && before.status != .waiting
    ping := none }

end Rimz.Agents
