import Rimz.Lib.Run
import Rimz.Throttle.Queue

/-!
# Starts at the gate

`admit`, `try_admit_in`, `Turn::report_launch`, the drop of a `Turn` and the sweeps, as steps of any
number of starts on one queue. A section under the queue lock that only reads and writes tickets is
one step. A pass also reads agent rows that other processes commit without the lock, so it is
several: the start takes the lock and sweeps, counts the rows of one workspace after another, and
decides.

Clocks, interrupts, capacity scripts and readings answer as they like. A process may die at any
point; it then keeps its ticket and the kernel frees its lock. The file system does what it is told.
-/

namespace Rimz.Throttle
open Rimz.Lib

/-- `admit` waits for its turn, `try_admit_in` asks once. -/
inductive Entry where
  | admitRun
  | tryAdmit
  deriving DecidableEq

/-- One call of the gate. -/
structure Start where
  run : Run
  entry : Entry

/-- How a start ends without a launch: the ends of `Admission` and `Attempt`, an error, and a turn
that is dropped before the launch. -/
inductive Outcome where
  | held
  | skipped
  | interrupted
  | expired
  | failed
  | dropped
  deriving DecidableEq

/-- The locals of a pass. `fresh` marks the first pass of `try_admit_in`, whose ticket is not in the
queue, and `recheck` the pass behind the capacity scripts. -/
structure Passing where
  config : ThrottleConfig
  fresh : Bool
  recheck : Bool
  ticket : Ticket
  hold : Option Hold
  inFlight : Nat
  census : Census
  todo : List WorkspaceId

/-- Where a start stands. -/
inductive Pc where
  | idle
  | looping
  | passing (p : Passing)
  | scripts (config : ThrottleConfig)
  | demoting (hold : Hold)
  | turn
  | committed
  | reported
  | opened
  | leaving (outcome : Outcome)
  | ended (outcome : Outcome)
  | dead

/-- An agent row that counts as open. -/
structure Row where
  workspace : WorkspaceId
  automated : Bool

/-- The ticket files, the holder of the queue lock, the starts and the open agent rows. `launched`
are the starts that have committed their rows. -/
structure World where
  tickets : List Ticket
  lock : Option Nat
  pc : Nat → Pc
  rows : List Row
  launched : Nat → Bool

namespace World

def goto (w : World) (c : Nat) (pc : Pc) : World := { w with pc := Function.update w.pc c pc }

def writeTicket (w : World) (t : Ticket) : World :=
  { w with tickets := upsertBy Ticket.owner t w.tickets }

def removeTicket (w : World) (c : Nat) : World :=
  { w with tickets := w.tickets.filter (·.owner ≠ c) }

/-- The lock guard of the start is dropped. -/
def unlock (w : World) (c : Nat) : World :=
  { w with lock := if w.lock = some c then none else w.lock }

/-- No start has been made and no agent is open. -/
def Fresh (w : World) : Prop :=
  w.tickets = [] ∧ w.lock = none ∧ w.pc = (fun _ => .idle) ∧ w.rows = [] ∧
    w.launched = fun _ => false

/-- A process that runs is seen to run. -/
def Sound (w : World) (r : SweepReading) : Prop :=
  ∀ t ∈ w.tickets, (∀ at_ ws agent, t.state ≠ .launched at_ ws agent) → w.pc t.owner ≠ .dead →
    r.live t.owner = true

/-- The rows of one workspace enter the census. -/
def countRows (w : World) (census : Census) (workspace : WorkspaceId)
    (agentNames automatedNames : List String) : Census where
  agents := census.agents + w.rows.countP (·.workspace = workspace)
  automated := census.automated + w.rows.countP fun row => row.workspace = workspace && row.automated
  agentNames := census.agentNames ++ agentNames
  automatedNames := census.automatedNames ++ automatedNames

end World

/-- Whether the gate has anything to ask of a start. -/
def Run.gated (run : Run) (config : ThrottleConfig) : Bool :=
  run.machineGated || config.caps || run.limits.isSome

/-- The points at which a start makes a pass. -/
inductive EntersPass (start : Start) : Pc → ThrottleConfig → (fresh recheck : Bool) → Prop where
  | loop {config} (entry : start.entry = .admitRun) (gated : start.run.gated config = true) :
      EntersPass start .looping config false false
  | tail {config} (entry : start.entry = .tryAdmit) (gated : start.run.gated config = true) :
      EntersPass start .idle config true false
  | recheck {config} (gated : start.run.machineGated = true) (check : config.check = true) :
      EntersPass start (.scripts config) config false true

/-- The ticket a pass is about and its position: a new one at the tail, or its own in the queue. -/
def FindsMine (queue : List Ticket) (c : Nat) (run : Run) (fresh : Bool) (ticket : Ticket)
    (position : Nat) : Prop :=
  if fresh then position = queue.length ∧ ∃ now, ticket = .new c run now
  else queue[position]? = some ticket ∧ ticket.owner = c

/-- Where a pass that holds the start leads. -/
def Passing.held (p : Passing) (entry : Entry) (hold : Hold) : Pc :=
  match entry with
  | .admitRun => if p.recheck then .demoting hold else .looping
  | .tryAdmit => .leaving .held

/-- Where a pass that admits the start leads. -/
def Passing.admits (p : Passing) : Pc := if p.recheck then .turn else .scripts p.config

/-- The hold a pass ends with; `unreadable` is the failure of `machine_counts`. -/
def Passing.verdict (p : Passing) (run : Run) (unreadable : Option String) (rest : Option Hold) :
    Option Hold :=
  p.hold.or (((unreadable.map storeHold).or (limitHold p.config run p.inFlight p.census rest)).map
    (Hold.of run))

/-- The points at which a start gives up. -/
def Pc.leaves : Pc → Bool
  | looping | passing _ | scripts _ | demoting _ | turn => true
  | _ => false

/-- One step of the start `c`, or of the agents. `allowed` are the configurations in force; with
`outside` agents may also open past the gate. -/
inductive Step (starts : Nat → Start) (allowed : ThrottleConfig → Prop) (outside : Bool) :
    World → Nat → World → Prop where
  /-- Nothing is configured to gate on. -/
  | open_ {w c config} (h : w.pc c = .idle) (ok : allowed config)
      (ungated : (starts c).run.gated config = false) :
      Step starts allowed outside w c (w.goto c .opened)
  /-- The configuration has changed and nothing is left to gate on. -/
  | openLate {w c config} (h : w.pc c = .looping) (ok : allowed config)
      (ungated : (starts c).run.gated config = false) :
      Step starts allowed outside w c ((w.removeTicket c).goto c .opened)
  | enqueue {w c config} (now : Nat) (h : w.pc c = .idle) (entry : (starts c).entry = .admitRun)
      (ok : allowed config) (gated : (starts c).run.gated config = true) (free : w.lock = none) :
      Step starts allowed outside w c ((w.writeTicket (.new c (starts c).run now)).goto c .looping)
  /-- A pass takes the lock, sweeps and looks at the queue. `cached` is a hold sampled before,
  `listing` names the known workspaces. -/
  | enter {w c config fresh recheck} (r : SweepReading) (ticket : Ticket) (position : Nat)
      (evaluated : Except String (Option Hold)) (cached : Option Hold) (listing : List WorkspaceId)
      (h : EntersPass (starts c) (w.pc c) config fresh recheck) (ok : allowed config)
      (free : w.lock = none) (sound : w.Sound r)
      (sized : oversized config (starts c).run = false)
      (mine : FindsMine (sweep r (some config.ceiling) w.tickets) c (starts c).run fresh ticket position)
      (known : ∀ row ∈ w.rows, row.workspace ∈ listing) :
      Step starts allowed outside w c
        ({ w with tickets := sweep r (some config.ceiling) w.tickets, lock := some c }.goto c
          (.passing
            { config, fresh, recheck, ticket
              hold := (standingHold (starts c).run (sweep r (some config.ceiling) w.tickets) position
                ticket evaluated).or (cached.map (Hold.of (starts c).run))
              inFlight := inFlight (sweep r (some config.ceiling) w.tickets) c
              census := ⟨0, 0, [], []⟩
              todo := listing }))
  /-- The census reads one workspace. -/
  | count {w c p workspace rest} (agentNames automatedNames : List String) (h : w.pc c = .passing p)
      (todo : p.todo = workspace :: rest) :
      Step starts allowed outside w c (w.goto c (.passing { p with
        census := w.countRows p.census workspace agentNames automatedNames, todo := rest }))
  /-- A pass ends with a hold. -/
  | hold {w c p hold} (unreadable : Option String) (rest : Option Hold) (h : w.pc c = .passing p)
      (held : p.verdict (starts c).run unreadable rest = some hold) :
      Step starts allowed outside w c
        (((if p.fresh then w else w.writeTicket { p.ticket with state := .waiting (some hold) }).unlock
          c).goto c (p.held (starts c).entry (hold.returned (starts c).run)))
  /-- A pass ends with an admission. -/
  | admitRun {w c p} (rest : Option Hold) (h : w.pc c = .passing p)
      (counted : p.todo = [] ∨ p.config.caps = false)
      (clear : p.verdict (starts c).run none rest = none) :
      Step starts allowed outside w c
        (((w.writeTicket { p.ticket with state := .admitted }).unlock c).goto c p.admits)
  /-- The capacity scripts find no room. -/
  | scriptsHold {w c config} (hold : Hold) (h : w.pc c = .scripts config) :
      Step starts allowed outside w c (w.goto c
        (match (starts c).entry with
          | .admitRun => .demoting hold
          | .tryAdmit => .leaving .held))
  /-- The start gets its turn without a second pass. -/
  | scriptsPass {w c config} (h : w.pc c = .scripts config)
      (unchecked : (starts c).run.machineGated = false ∨ config.check = false) :
      Step starts allowed outside w c (w.goto c .turn)
  | demote {w c hold t} (h : w.pc c = .demoting hold) (free : w.lock = none) (mine : t ∈ w.tickets)
      (owner : t.owner = c) :
      Step starts allowed outside w c
        ((w.writeTicket { t with state := .waiting (some hold) }).goto c .looping)
  /-- The start gives up, fails, or its turn is dropped unreported. -/
  | leave {w c} (outcome : Outcome) (h : (w.pc c).leaves = true) :
      Step starts allowed outside w c ((w.unlock c).goto c (.leaving outcome))
  /-- The drop of the turn removes the ticket. -/
  | drop {w c outcome} (h : w.pc c = .leaving outcome) :
      Step starts allowed outside w c ((w.removeTicket c).goto c (.ended outcome))
  /-- The launch commits all its rows. -/
  | commit {w c} (batch : List Row) (h : w.pc c = .turn)
      (size : batch.length = (starts c).run.agents) : Step starts allowed outside w c
        ({ w with rows := w.rows ++ batch, launched := Function.update w.launched c true }.goto c
          .committed)
  | commitOpen {w c} (batch : List Row) (h : w.pc c = .opened) :
      Step starts allowed outside w c
        ({ w with rows := w.rows ++ batch, launched := Function.update w.launched c true }.goto c
          .reported)
  /-- `report_launch`. -/
  | report {w c t} (now : Nat) (workspace : WorkspaceId) (agent : AgentSessionId)
      (h : w.pc c = .committed) (free : w.lock = none) (mine : t ∈ w.tickets) (owner : t.owner = c) :
      Step starts allowed outside w c
        ((w.writeTicket { t with state := .launched now workspace agent }).goto c .reported)
  /-- `report_launch` that finds no ticket or cannot stamp it. -/
  | reportFails {w c} (h : w.pc c = .committed) :
      Step starts allowed outside w c ((w.removeTicket c).goto c .reported)
  /-- `reap`. -/
  | reap {w c} (r : SweepReading) (free : w.lock = none) (sound : w.Sound r) :
      Step starts allowed outside w c { w with tickets := sweep r none w.tickets }
  /-- An agent ends. -/
  | agentEnds {w c before row after} (h : w.rows = before ++ row :: after) :
      Step starts allowed outside w c { w with rows := before ++ after }
  /-- An agent that is not automated opens past the gate. -/
  | agentOpens {w c} (workspace : WorkspaceId) (h : outside = true) :
      Step starts allowed outside w c { w with rows := w.rows ++ [⟨workspace, false⟩] }
  | die {w c} (h : ∀ outcome, w.pc c ≠ .ended outcome) :
      Step starts allowed outside w c ((w.unlock c).goto c .dead)

end Rimz.Throttle
