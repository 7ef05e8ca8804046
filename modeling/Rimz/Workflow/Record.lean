import Rimz.Workflow.Spec

/-!
# Workflow records

`RunRecord` and the journal of `store/workflow.rs`, as far as the engine and the trail read them. A
check's answer is a JSON value: an object keeps its fields, and a nested value keeps only its text.
Costs, digests, logs, heads, children and the identity of a hosted child are left out.
-/

namespace Rimz.Workflow
open Std

inductive Key where
  | string (s : String)
  | integer (n : Int)
  deriving DecidableEq

/-- The JSON value of an object's field. A string that reads as an RFC 3339 instant carries it. -/
inductive Field where
  | null
  | string (s : String)
  | instant (s : String) (at_ : Timestamp)
  | integer (n : Int)
  | other (s : String)

namespace Field

def asStr : Field → Option String
  | .string s => some s
  | .instant s _ => some s
  | _ => none

/-- `from_value::<Key>`. -/
def asKey : Field → Option Key
  | .string s => some (.string s)
  | .instant s _ => some (.string s)
  | .integer n => some (.integer n)
  | _ => none

/-- The string read as an instant. -/
def asInstant : Field → Option Timestamp
  | .instant _ t => some t
  | _ => none

/-- `json!(key)`. -/
def ofKey : Key → Field
  | .string s => .string s
  | .integer n => .integer n

/-- `json!` of an optional string. -/
def ofOption : Option String → Field
  | some s => .string s
  | none => .null

end Field

inductive Value where
  | null
  | object (fields : List (String × Field))
  | other (s : String)

namespace Value

def get (v : Value) (name : String) : Option Field :=
  match v with
  | .object fields => (fields.find? fun f => f.1 = name).map Prod.snd
  | _ => none

/-- `value[name].as_str()`. -/
def text (v : Value) (name : String) : Option String := (v.get name).bind Field.asStr

/-- `value[name] = field` on an object. -/
def set (v : Value) (name : String) (field : Field) : Value :=
  match v with
  | .object fields => .object ((name, field) :: fields.filter fun f => f.1 ≠ name)
  | v => v

/-- `value["key"]` read as a key. -/
def key (v : Value) : Option Key := (v.get "key").bind Field.asKey

end Value

inductive RunState where
  | active
  | parked
  | done
  | failed
  | canceled
  deriving DecidableEq

def RunState.isTerminal (s : RunState) : Bool := s = .done ∨ s = .failed ∨ s = .canceled

inductive ParkReason where
  | user
  | cap
  | deadline
  | timeout
  | invalid
  | asked
  | check
  deriving DecidableEq

structure Park where
  reason : ParkReason
  text : Option String
  at_ : Timestamp

/-- `AttemptKind`, of the runners the engine starts. -/
inductive AttemptKind where
  | script
  | agent
  | judge
  deriving DecidableEq

inductive AttemptOutcome where
  | ended
  | died
  | timeout
  | asked
  | limited
  | canceled
  deriving DecidableEq

def AttemptOutcome.asStr : AttemptOutcome → String
  | .ended => "ended"
  | .died => "died"
  | .timeout => "timeout"
  | .asked => "asked"
  | .limited => "limited"
  | .canceled => "canceled"

inductive EndCause where
  | lifecycle
  | timeout
  | deadline
  | cancel
  | restart (continued : Bool)
  deriving DecidableEq

structure Verdict where
  node : String
  enteredAt : Timestamp
  at_ : Option Timestamp
  target : String
  object : Value
  reason : ParkReason

structure Ending where
  outcome : AttemptOutcome
  cause : EndCause
  route : Option Verdict := none
  reason : Option String := none

/-- `Host`: the process that owns an attempt. -/
abbrev Host := Nat

structure AttemptRun where
  runId : String
  handle : String

/-- `Asking`, with the text of the ask. -/
structure Asking where
  since : Timestamp
  text : String
  deriving DecidableEq

structure TurnEnd where
  agentId : AgentSessionId
  startedAt : Timestamp
  endedAt : Timestamp
  deriving DecidableEq

structure PushBack where
  message : MessageId
  queued : Bool

structure LiveAttempt where
  kind : AttemptKind
  lifecycle : StepLifecycle
  seq : Nat
  node : String
  visit : Option Nat
  startedAt : Timestamp
  host : Host
  run : Option AttemptRun := none
  ending : Option Ending := none
  retry : Option Value := none
  woken : Bool := false
  asking : Option Asking := none
  heldSince : Option Timestamp := none
  askedMs : Nat := 0
  judged : Option TurnEnd := none
  push : Option PushBack := none

structure HeldSession where
  attempt : LiveAttempt
  enteredAt : Timestamp
  verdict : Option Verdict

structure Restart where
  resume : Option AgentSessionId
  settled : Option Nat
  deriving DecidableEq

structure PreviousAttempt where
  step : String
  outcome : AttemptOutcome
  seq : Nat
  visit : Nat
  key : Option Key
  routedBy : Option String
  startedAt : Timestamp
  endedAt : Timestamp
  handle : Option String
  runId : Option String
  asked : Option String := none

structure Wait where
  node : String
  outcome : String
  case_ : Option Nat
  detail : Option String
  givesUpAt : Option Timestamp
  first : Timestamp
  last : Timestamp
  count : Nat
  recheckAt : Option Timestamp

def Wait.isHold (w : Wait) : Bool := w.outcome = "hold"

/-- A routed outcome and key. -/
abbrev Bucket := Option String × Option Key

/-- `StepVisits`, with its `OutcomeVisits` rows. -/
structure StepVisits where
  total : Nat := 0
  outcomes : List (Bucket × Nat) := []

namespace StepVisits

def forBucket (v : StepVisits) (b : Bucket) : Nat :=
  ((v.outcomes.find? fun row => row.1 = b).map Prod.snd).getD 0

/-- One more visit in the bucket's row, or a first one in a new row. -/
def bumpRow (b : Bucket) : List (Bucket × Nat) → List (Bucket × Nat)
  | [] => [(b, 1)]
  | row :: rows => if row.1 = b then (b, row.2 + 1) :: rows else row :: bumpRow b rows

def bump (v : StepVisits) (b : Bucket) : StepVisits :=
  ⟨v.total + 1, bumpRow b v.outcomes⟩

end StepVisits

structure RunRecord where
  task : Option String := none
  manual : Bool := false
  state : RunState := .active
  park : Option Park := none
  node : String
  enteredAt : Timestamp
  input : Option Value := none
  key : Option Key := none
  recheckAt : Option Timestamp := none
  wait : Option Wait := none
  visits : ExtTreeMap String StepVisits := ∅
  visitGrant : Nat := 0
  deadline : Option Timestamp
  deadlineFired : Bool := false
  nextSeq : Nat := 1
  attempt : Option LiveAttempt := none
  held : Option HeldSession := none
  restart : Option Restart := none
  prevAttempt : Option PreviousAttempt := none
  terminalAt : Option Timestamp := none
  checkRetry : Nat := 0
  checkRetryContext : Option Value := none

namespace RunRecord

def visitBucket (r : RunRecord) : Bucket :=
  (r.input.bind fun input =>
    if input.text "outcome" = some "cap" ∧ input.text "step" = some r.node then
      input.text "routed_by"
    else input.text "outcome", r.key)

def sessionAttempt (r : RunRecord) : Option LiveAttempt :=
  ((r.held.map HeldSession.attempt).or r.attempt).filter fun a => a.kind = .agent

/-- The record that `create` initialises. -/
def create (spec : WorkflowSpec) (task : Option String) (manual : Bool) (now : Timestamp) :
    RunRecord :=
  { task, manual, node := spec.start, enteredAt := now, deadline := spec.deadline }

end RunRecord

/-- `Step::tripped_visit_bound`: the first exhausted bound, with its count and limit. -/
def Step.trippedVisitBound (step : Step) (r : RunRecord) : Option (String × Nat × Nat) :=
  let visits := r.visits[r.node]?
  let bounds : List (String × Nat × Option Nat) :=
    [("max-visits", (visits.map StepVisits.total).getD 0, step.maxVisits),
      ("max-visits-per-outcome", (visits.map fun v => v.forBucket r.visitBucket).getD 0,
        step.maxVisitsPerOutcome.map OutcomeCap.limit)]
  (bounds.filterMap fun (bound, used, max) =>
      max.map fun max => (bound, used, max + r.visitGrant)).find?
    fun (_, used, max) => decide (max ≤ used)

inductive EvaluationOrigin where
  | check
  | engine
  deriving DecidableEq

inductive TurnEndAction where
  | kept
  | pushed
  | closed
  | discarded
  | interrupted
  deriving DecidableEq

inductive JournalEvent where
  | turnEnd (action : TurnEndAction) (turn : TurnEnd) (check : String) (outcome : Option String)
      (target : Option String) (reason : Option String) (visit : Option Nat)
      (message : Option MessageId)
  | evaluation (origin : EvaluationOrigin) (outcome : String) (object : Value)
      (startedAt endedAt : Timestamp) (retry : Option Value)
  | attempt (outcome : AttemptOutcome) (visit : Nat) (key : Option Key) (routedBy : Option String)
      (startedAt endedAt : Timestamp) (handle runId asked reason : Option String)
  | visitsReset (step outcome : String) (all : Bool)
  | restart (step : String) (continued : Bool)
  | wait (outcome : String) (detail : Option String) (first last : Timestamp) (count : Nat)
      (recheckAt : Option Timestamp)
  | route (outcome : String) (input : Value)
  | park (reason : ParkReason) (text : Option String)
  | terminal (state : RunState)
  | cancel (reason : Option String)
  | resume (visitGrant : Nat) (deadline : Option Timestamp)
  | wake (signal : String)

structure JournalEntry where
  seq : Option Nat
  at_ : Timestamp
  node : String
  event : JournalEvent

end Rimz.Workflow
