import Rimz.Ids
import Rimz.Lib.Keyed
import Rimz.Lib.Sort
import Mathlib.Data.List.Dedup
import Mathlib.Data.Prod.Lex
import Mathlib.Data.String.Basic

/-!
# The start gate's queue

`harness/schedule/throttle.rs`: the tickets of the starts, what keeps a start from its turn, and the
sweep of tickets that are over. Starts that may not wait are left out. A ticket's owner is the start
that wrote it, and its file name is the instant of its enqueueing followed by a nonce of its own, so
the name is the pair of the two.

What a pass reads outside the queue comes in as an argument: the workflow limits, the stagger, the
pressure, memory and disk readings, the census of the agents, and the rows of a launch.
-/

namespace Rimz.Throttle
open Rimz.Lib

inductive HoldKind where
  | capacity
  | checkFailed
  | queue
  | machineCap
  | automationCap
  | stagger
  | workflowLimit
  | stepLimit
  | pressure
  | memory
  | disk
  | store
  deriving DecidableEq

def HoldKind.needsFix : HoldKind → Bool
  | checkFailed | disk | store => true
  | _ => false

/-- The kinds of a hold that waits for a provider's capacity. -/
def HoldKind.waitsForProvider : HoldKind → Bool
  | capacity | checkFailed => true
  | _ => false

structure Hold where
  kind : HoldKind
  text : String
  kinds : List AgentKind
  deriving DecidableEq

inductive TicketState where
  | waiting (reason : Option Hold)
  | admitted
  | launched (atMs : Nat) (workspace : WorkspaceId) (agent : AgentSessionId)
  deriving DecidableEq

structure LimitScope where
  workflow : String
  step : String

structure StartGroup where
  kind : AgentKind
  account : Option String
  agents : Nat

/-- `WorkflowStart` of a start that may wait: its scope, and whether the workflow has a limit of its
own. -/
structure WorkflowStart where
  workflow : String
  step : String
  workflowLimited : Bool

structure Run where
  workspace : WorkspaceId
  groups : List StartGroup
  machineGated : Bool
  limits : Option WorkflowStart

/-- The fields of `ThrottleConfig` that the queue reads; `check` says that a capacity check is
configured. -/
structure ThrottleConfig where
  maxParallelAgents : Option Nat
  maxParallelAutomation : Option Nat
  check : Bool

structure Ticket where
  owner : Nat
  enqueuedMs : Nat
  machineGated : Bool
  agents : Nat
  limit : Option LimitScope
  kinds : List AgentKind
  state : TicketState

/-- `kinds.sort(); kinds.dedup()`. -/
def sortDedup (kinds : List AgentKind) : List AgentKind := (sortByKey id kinds).dedup

namespace Run

def kinds (run : Run) : List AgentKind := sortDedup (run.groups.map StartGroup.kind)

/-- The agents a start opens. -/
def agents (run : Run) : Nat := (run.groups.map StartGroup.agents).sum

/-- The scope of a limited start. -/
def limitScope (run : Run) : Option LimitScope :=
  run.limits.map fun start => ⟨start.workflow, start.step⟩

end Run

namespace Ticket

def new (owner : Nat) (run : Run) (enqueuedMs : Nat) : Ticket :=
  ⟨owner, enqueuedMs, run.machineGated, run.agents, run.limitScope, run.kinds, .waiting none⟩

def sharesLimit (t u : Ticket) : Bool :=
  match t.limit, u.limit with
  | some mine, some theirs => mine.workflow == theirs.workflow
  | _, _ => false

def sharesScope (t u : Ticket) : Bool := (t.machineGated && u.machineGated) || t.sharesLimit u

def isWaiting (t : Ticket) : Bool :=
  match t.state with
  | .waiting _ => true
  | _ => false

def reason (t : Ticket) : Option Hold :=
  match t.state with
  | .waiting reason => reason
  | _ => none

/-- The file name of a ticket, as it sorts. -/
def path (t : Ticket) : Nat ×ₗ Nat := toLex (t.enqueuedMs, t.owner)

/-- The ticket waits for a provider that `mine` does not use. -/
def standsAsideFor (t mine : Ticket) : Bool :=
  t.reason.any fun hold =>
    hold.kind.waitsForProvider && !hold.kinds.isEmpty && !mine.kinds.isEmpty
      && mine.kinds.all fun kind => !hold.kinds.contains kind

/-- `blocks_me` of `queue_hold`. -/
def blocks (t mine : Ticket) : Bool :=
  t.sharesScope mine
    && (!t.isWaiting
      || (mine.machineGated && t.machineGated && !t.standsAsideFor mine))

end Ticket

/-! ### Holds -/

def launching (queue : List Ticket) (mine : Ticket) : Nat :=
  (queue.filter fun t => t.owner ≠ mine.owner && t.sharesLimit mine && !t.isWaiting).length

def turnHeld (queue : List Ticket) (mine : Ticket) : Bool :=
  queue.any fun t => t.owner ≠ mine.owner && t.sharesScope mine && !t.isWaiting

/-- What `queue_hold` gathers from the tickets ahead. -/
structure Ahead where
  ahead : Nat := 0
  capacityOnly : Bool := true
  kind : HoldKind := .capacity
  kinds : List AgentKind := []
  text : Option String := none
  needsFix : Option Hold := none

/-- The loop body of `queue_hold`. -/
def Ahead.add (a : Ahead) (t : Ticket) : Ahead :=
  let a := { a with
    ahead := a.ahead + 1
    needsFix := a.needsFix.or (t.reason.filter fun hold => hold.kind.needsFix) }
  match t.reason.filter fun hold => hold.kind.waitsForProvider && !hold.kinds.isEmpty with
  | some hold =>
    let a := if hold.kind = .checkFailed && a.kind ≠ .checkFailed then
        { a with kind := .checkFailed, text := some hold.text }
      else a
    { a with text := a.text.or (some hold.text), kinds := a.kinds ++ hold.kinds }
  | none => { a with capacityOnly := false }

/-- The text of a start that queues. -/
def queuedText (starts : Nat) : String :=
  s!"queued: {starts} start" ++ (if starts = 1 then "" else "s") ++ " ahead"

/-- `queue_hold`: the tickets in front of `mine` are the first `position` ones. -/
def queueHold (queue : List Ticket) (position : Nat) (mine : Ticket) : Option Hold :=
  let held := turnHeld queue mine
  let a := ((queue.take position).filter (·.blocks mine)).foldl Ahead.add {}
  if !held && a.ahead = 0 then none
  else
    let starts := max a.ahead 1
    let a := if held || !a.capacityOnly then
        { a with kind := .queue, kinds := [], text := none }
      else a
    let a := match a.needsFix with
      | some hold => { a with kind := hold.kind, text := some hold.text }
      | none => a
    some ⟨a.kind, a.text.getD (queuedText starts), sortDedup a.kinds⟩

def storeHold (text : String) : Hold := ⟨.store, "cannot count open agents: " ++ text, []⟩

/-- `limits::launching`. -/
def limitsLaunching (start : WorkflowStart) (count : Nat) : Hold :=
  let plural := if count = 1 then "" else "s"
  if start.workflowLimited then
    ⟨.workflowLimit, s!"workflow {start.workflow}: {count} start{plural} launching", []⟩
  else ⟨.stepLimit, s!"step {start.step}: {count} start{plural} launching", []⟩

/-- The hold of a limited start; `evaluated` is the answer of `limits::evaluate`. -/
def limitedHold (run : Run) (queue : List Ticket) (mine : Ticket)
    (evaluated : Except String (Option Hold)) : Option Hold :=
  match run.limits with
  | none => none
  | some start =>
    match launching queue mine with
    | 0 =>
      match evaluated with
      | .ok hold => hold
      | .error error => some (storeHold error)
    | count => some (limitsLaunching start count)

/-- A hold that waits on the providers of the run: one that was sampled. -/
def Hold.of (run : Run) (hold : Hold) : Hold := { hold with kinds := run.kinds }

/-- The hold that `pass` returns; one taken from the queue without providers gets those of the
run. -/
def Hold.returned (run : Run) (hold : Hold) : Hold :=
  if hold.kinds.isEmpty then hold.of run else hold

/-- What `pass` finds in the queue, before it samples the machine. -/
def standingHold (run : Run) (queue : List Ticket) (position : Nat) (mine : Ticket)
    (evaluated : Except String (Option Hold)) : Option Hold :=
  (limitedHold run queue mine evaluated).or
    (if run.machineGated then queueHold queue position mine else none)

/-- The agents of the other admitted tickets, `in_flight` of `pass`. -/
def inFlight (queue : List Ticket) (mine : Nat) : Nat :=
  ((queue.filter fun t => t.owner ≠ mine && t.state = .admitted).map Ticket.agents).sum

def ThrottleConfig.caps (config : ThrottleConfig) : Bool :=
  config.maxParallelAgents.isSome || config.maxParallelAutomation.isSome

def capHold (kind : HoldKind) (cap count incoming inFlight : Nat) (names : List String) :
    Option Hold :=
  if count + inFlight + incoming ≤ cap then none
  else
    let names := if count > names.length then names ++ [s!"+{count - names.length}"] else names
    let automated := if kind = .automationCap then "automated " else ""
    let suffix := if names.isEmpty then "" else " (" ++ ", ".intercalate names ++ ")"
    let text := s!"{count} of {cap} {automated}agents open{suffix}"
    let text := if inFlight > 0 then text ++ s!", {inFlight} more starting" else text
    let text := if incoming > 1 then text ++ s!"; this start opens {incoming}" else text
    some ⟨kind, text, []⟩

/-- What the census of one pass has counted: open agents and automated ones, with the few it
names. -/
structure Census where
  agents : Nat
  automated : Nat
  agentNames : List String
  automatedNames : List String

/-- The cap of one kind, if it is set and would be passed. -/
def oneCapHold (kind : HoldKind) (cap : Option Nat) (count incoming inFlight : Nat)
    (names : List String) : Option Hold :=
  cap.bind fun cap => capHold kind cap count incoming inFlight names

/-- `limit_hold` behind `machine_counts`; `rest` is the hold of the stagger, pressure, memory and
disk readings. -/
def limitHold (config : ThrottleConfig) (run : Run) (inFlight : Nat) (census : Census)
    (rest : Option Hold) : Option Hold :=
  (oneCapHold .machineCap config.maxParallelAgents census.agents run.agents inFlight
      census.agentNames).or
    ((oneCapHold .automationCap config.maxParallelAutomation census.automated run.agents inFlight
        census.automatedNames).or
      (if run.machineGated then rest else none))

/-- `check_group_size`, as far as it refuses. -/
def oversized (config : ThrottleConfig) (run : Run) : Bool :=
  config.maxParallelAgents.any (run.agents > ·) || config.maxParallelAutomation.any (run.agents > ·)

/-! ### The sweep -/

/-- `TURN_CEILING` and `CHECK_CEILING`, in milliseconds. -/
def turnCeiling : Nat := 10000

def checkCeiling : Nat := 120000

/-- What a sweep reads: the clock, the owners that run, and for a launch the two answers
`provider_reported` and `limits::reported` when its workspace can be read. -/
structure SweepReading where
  now : Nat
  live : Nat → Bool
  reported : WorkspaceId → AgentSessionId → Option (Bool × Bool)

/-- The release of a launched ticket's scopes. -/
def releaseScopes (r : SweepReading) (ceiling : Option Nat) (t : Ticket) (atMs : Nat)
    (workspace : WorkspaceId) (agent : AgentSessionId) : Ticket :=
  match ceiling with
  | none => t
  | some ceiling =>
    let elapsed := r.now - atMs
    let (machine, limit) := (r.reported workspace agent).getD (false, false)
    let machineDone := !t.machineGated || elapsed ≥ ceiling || machine
    let limitDone := t.limit.isNone || elapsed ≥ checkCeiling || limit
    { t with
      machineGated := t.machineGated && !machineDone
      limit := if limitDone then none else t.limit }

/-- One ticket of the sweep; without a result it is removed. -/
def sweepTicket (r : SweepReading) (ceiling : Option Nat) (t : Ticket) : Option Ticket :=
  match t.state with
  | .waiting _ | .admitted => if r.live t.owner then some t else none
  | .launched atMs workspace agent =>
    let t := releaseScopes r ceiling t atMs workspace agent
    if !t.machineGated && t.limit.isNone then none else some t

/-- `sweep`: the tickets in the order of their names, without those that are over. -/
def sweep (r : SweepReading) (ceiling : Option Nat) (tickets : List Ticket) : List Ticket :=
  (sortByKey Ticket.path tickets).filterMap (sweepTicket r ceiling)

/-- The ceiling of a `pass`. -/
def ThrottleConfig.ceiling (config : ThrottleConfig) : Nat :=
  if config.check then checkCeiling else turnCeiling

end Rimz.Throttle
