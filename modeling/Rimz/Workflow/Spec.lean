import Rimz.Ids
import Rimz.Lib.OrderedMap

/-!
# Workflow definitions

The fields of a parsed `WorkflowSpec` that the engine and the validation read, and the routes of
`graph.rs`. Durations and the deadline are read as spans and instants. The texts that only the
launch of a step or the evaluation of a check reads (prompt files, conditions, summaries) are left
out.
-/

namespace Rimz.Workflow
open Std

inductive CapacityWait where
  | forever
  | duration (span : Duration)

inductive StepLifecycle where
  | turn
  | stay
  | until_
  deriving DecidableEq

def StepLifecycle.isTurn (l : StepLifecycle) : Bool := l = .turn

/-- `Route`: a target, and the delay of a closing verdict. -/
structure Route where
  target : String
  delay : Option Duration := none

structure Case where
  outcome : String
  hold : Option Duration := none

inductive CheckKind where
  | run
  | shell
  | agent
  | condition
  | sleep
  deriving DecidableEq

structure Check where
  run : Option String := none
  shell : Option String := none
  agent : Option String := none
  sleep : Option Duration := none
  when_ : Option (List String) := none
  hold : Option Duration := none
  then_ : Option String := none
  promptFile : Option String := none
  window : Option String := none
  cases : List Case := []
  elseOutcome : Option String := none
  on : ExtTreeMap String Route := ∅
  timeout : Option Duration := none

namespace Check

def kind (c : Check) : Option CheckKind :=
  match c.run, c.shell, c.agent, c.sleep, c.cases with
  | some _, none, none, none, [] => some .run
  | none, some _, none, none, [] => some .shell
  | none, none, some _, none, [] => some .agent
  | none, none, none, none, _ :: _ => some .condition
  | none, none, none, some _, [] => some .sleep
  | _, _, _, _, _ => none

def isSleep (c : Check) : Bool := c.kind = some .sleep

def conditionCases (c : Check) : List Case :=
  match c.kind with
  | some .condition => c.cases
  | some .sleep => if c.when_.isSome then [⟨"then", c.hold⟩] else []
  | _ => []

/-- `Check::edges`: each outcome's target. -/
def edges (c : Check) : ExtTreeMap String String :=
  if c.isSleep then
    let edges : ExtTreeMap String String :=
      (∅ : ExtTreeMap String String).insert "sleeping" "@wait" |>.insert "invalid" "@user"
    let edges := match c.then_ with
      | some target => edges.insert "then" target
      | none => edges
    if c.when_.isSome then edges.insert "unknown" "@wait" else edges
  else
    let edges := c.on.map fun _ route => route.target
    let edges := edges.insertIfNew "timeout" "@user" |>.insertIfNew "invalid" "@user"
    if c.kind = some .condition then edges.insertIfNew "unknown" "@wait" else edges

end Check

structure OutcomeCap where
  limit : Nat
  resetOn : List String := []

structure StepEdges where
  asked : Option String := none
  cap : Option String := none
  capacity : Option String := none

inductive StepKind where
  | agent
  | run
  | shell
  deriving DecidableEq

structure Step where
  agent : Option String := none
  run : Option String := none
  shell : Option String := none
  lifecycle? : Option StepLifecycle := none
  keep : Bool := false
  promptFile : Option String := none
  window : Option String := none
  takeover : Bool := false
  capacityWait : Option CapacityWait := none
  limit : Bool := false
  then_ : List String := []
  on : StepEdges := {}
  maxVisits : Option Nat := none
  maxVisitsPerOutcome : Option OutcomeCap := none
  timeout : Option Duration := none

namespace Step

def kind (s : Step) : Option StepKind :=
  match s.agent, s.run, s.shell with
  | some _, none, none => some .agent
  | none, some _, none => some .run
  | none, none, some _ => some .shell
  | _, _, _ => none

def lifecycle (s : Step) : StepLifecycle :=
  s.lifecycle?.getD (if s.kind = some .agent then .until_ else .turn)

/-- A row of `Step::edges`: the target the definition names for an outcome, or the default. -/
def edgeRow (edges : ExtTreeMap String (String × Bool)) :
    String × Option String × Option String → ExtTreeMap String (String × Bool)
  | (outcome, some target, _) => edges.insert outcome (target, true)
  | (outcome, none, some default) => edges.insert outcome (default, false)
  | (_, none, none) => edges

/-- `Step::edges`: each outcome's target, and whether the definition names it. -/
def edges (s : Step) : ExtTreeMap String (String × Bool) :=
  [("then", s.then_.head?, none), ("asked", s.on.asked, none), ("cap", s.on.cap, some "@user"),
    ("capacity", s.on.capacity, some "@failed")].foldl edgeRow ∅

end Step

/-- `WorkflowSpec`, with the fields of its header. -/
structure WorkflowSpec where
  start : String
  deadline : Option Timestamp := none
  limit : Bool := false
  onDeadline : Option String := none
  checks : ExtTreeMap String Check := ∅
  steps : ExtTreeMap String Step := ∅

def reservedOutcomes : List String :=
  ["timeout", "invalid", "cap", "capacity", "deadline", "unknown", "hold"]

/-- The targets that are no node. -/
def reservedTargets : List String := ["@wait", "@done", "@failed", "@user"]

def checkTriggers : List String := ["unknown", "timeout", "invalid", "deadline"]

def stepTriggers : List String := ["then", "asked", "cap", "capacity", "deadline"]

inductive EdgeSource where
  | explicit
  | default
  deriving DecidableEq

inductive Fireability where
  | yes
  | never
  | withDeadline
  | inLoopRuns
  deriving DecidableEq

/-- `Edge`, without the marks that only the display reads. -/
structure Edge where
  outcome : String
  target : String
  source : EdgeSource
  fires : Fireability

namespace WorkflowSpec
variable (spec : WorkflowSpec)

def fireability (node outcome : String) : Fireability :=
  if outcome = "deadline" then
    if spec.deadline.isSome then .yes else .withDeadline
  else match spec.checks[node]?, spec.steps[node]? with
    | some check, _ =>
      if (outcome = "timeout" ∧ check.timeout = none)
          ∨ (outcome = "invalid" ∧ check.kind = some .agent) then .never else .yes
    | none, none => .yes
    | none, some step =>
      if outcome = "cap" ∧ step.maxVisits = none ∧ step.maxVisitsPerOutcome.isNone then .never
      else if outcome ≠ "capacity" then .yes
      else match step.capacityWait with
        | some (.duration _) => .inLoopRuns
        | _ => .never

def nodeEdges (node : String) : Option (ExtTreeMap String (String × Bool)) :=
  let edges := match spec.checks[node]? with
    | some check => some (check.edges.map fun outcome target =>
        (target, check.on.contains outcome || (outcome = "then" && check.isSleep)))
    | none => spec.steps[node]?.map Step.edges
  edges.map fun edges =>
    edges.insert "deadline" (spec.onDeadline.getD "@user", spec.onDeadline.isSome)

/-- The outcomes of a node in display order. -/
def outcomes (node : String) : List String :=
  match spec.checks[node]? with
  | some check =>
    if check.isSleep then ["then", "sleeping", "unknown", "invalid", "deadline"]
    else check.cases.map Case.outcome ++ check.elseOutcome.toList
      ++ (check.on.keys.filter fun outcome => outcome ∉ checkTriggers) ++ checkTriggers
  | none => stepTriggers

/-- `WorkflowSpec::resolved_edges`: each outcome once, at its first place in the order. -/
def resolvedEdges (node : String) : Option (List Edge) :=
  (spec.nodeEdges node).map fun edges =>
    (spec.outcomes node).eraseDups.filterMap fun outcome =>
      edges[outcome]?.map fun (target, explicit) =>
        { outcome, target, source := if explicit then .explicit else .default,
          fires := spec.fireability node outcome }

def edges (node : String) : List Edge :=
  ((spec.resolvedEdges node).getD []).filter fun edge =>
    match spec.steps[node]? with
    | none => true
    | some step =>
      if edge.outcome = "asked" then step.kind = some .agent ∧ step.lifecycle.isTurn
      else if edge.outcome = "capacity" then step.kind = some .agent
      else true

/-- The target of the first edge with this outcome. -/
def edgeTarget (edges : List Edge) (outcome : String) : Option String :=
  (edges.find? fun edge => edge.outcome = outcome).map Edge.target

def target (node outcome : String) : Option String :=
  (spec.resolvedEdges node).bind fun edges =>
    if spec.checks.contains node then
      if outcome = "hold" then some "@wait" else edgeTarget edges outcome
    else
      let outcome :=
        if outcome ∈ ["ended", "died", "canceled", "limited", "timeout"] then "then" else outcome
      (edgeTarget edges outcome).or
        (if outcome = "then" ∨ outcome = "asked" then some "@user" else none)

end WorkflowSpec

end Rimz.Workflow
