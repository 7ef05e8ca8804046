import Rimz.Workflow.Record

/-!
# Transitions

`Transition` of `state.rs`: the edits of one record under the workspace lock, with the journal
entries they stage. A panic of the source (an `expect`, an index) is `none`: it leaves the section
unwritten.
-/

namespace Rimz.Workflow
open Std

def timeoutAt (spec : WorkflowSpec) (r : RunRecord) : Option Timestamp :=
  match spec.checks[r.node]? with
  | some check => check.timeout.map fun span => r.enteredAt + span
  | none =>
    r.attempt.bind fun attempt =>
      if !attempt.lifecycle.isTurn || attempt.heldSince.isSome || attempt.asking.isSome then none
      else (spec.steps[r.node]?.bind Step.timeout).map fun span =>
        attempt.startedAt + fromMillis attempt.askedMs + span

def holdUntil (spec : WorkflowSpec) (r : RunRecord) (case_ : Nat) (now : Timestamp) :
    Option Timestamp :=
  (spec.checks[r.node]?.bind fun check => check.conditionCases[case_]?.bind Case.hold).map
    fun span =>
      ((r.wait.filter fun w => w.isHold ∧ w.case_ = some case_).map Wait.first).getD now + span

/-- The instant of `first_bound` without a hold case. -/
def firstBound (spec : WorkflowSpec) (r : RunRecord) : Option Timestamp :=
  let deadline := r.deadline.filter fun _ => !r.deadlineFired
  match deadline, timeoutAt spec r with
  | some a, some b => some (min a b)
  | a, b => a.or b

def caseIndex (object : Value) : Option Nat :=
  match object.get "case" with
  | some (.integer n) => if 0 ≤ n ∧ n < 2 ^ 32 then some n.toNat else none
  | _ => none

def normalizeObject (object : Value) (check : Check) (key : Option Key) (edges : List Edge) :
    Except String Value :=
  match object with
  | .object fields =>
    let object := Value.object fields
    match object.text "outcome" with
    | none => .error "outcome must be a string"
    | some outcome =>
      if (outcome ∈ reservedOutcomes
            ∧ ¬(outcome = "unknown" ∧ (check.kind = some .condition ∨ check.kind = some .sleep)))
          ∨ ¬edges.any (fun edge => edge.outcome = outcome) then
        .error ("reserved or unrouted outcome " ++ outcome.quote)
      else if (object.get "reason").any fun v => v.asStr.isNone then
        .error "reason must be a string"
      else if (object.get "recheck_at").any fun v => v.asInstant.isNone then
        .error "recheck_at must be an RFC 3339 instant"
      else match object.get "key", key with
        | some field, _ =>
          if field.asKey.isNone then .error "key must be a string or integer" else .ok object
        | none, some key => .ok (object.set "key" (.ofKey key))
        | none, none => .ok object
  | _ => .error "stdout must contain one JSON object"

structure Transition where
  record : RunRecord
  now : Timestamp
  entries : List JournalEntry := []

/-- What a judge's evaluation reports: its object, the outcome of its failure, and a limit's
reset. -/
structure Evaluation where
  object : Except String Value
  failure : String := "invalid"
  limited : Option (Option Timestamp) := none

namespace Transition
variable (spec : WorkflowSpec) (t : Transition)

def current (seq : Nat) : Bool :=
  t.record.state = .active ∧ t.record.attempt.any fun a => a.seq = seq

def push (seq : Option Nat) (event : JournalEvent) : Transition :=
  { t with entries := t.entries ++ [⟨seq, t.now, t.record.node, event⟩] }

def edit (f : RunRecord → RunRecord) : Transition := { t with record := f t.record }

def closeWait : Transition :=
  match t.record.wait with
  | some w =>
    { t with
      entries := t.entries ++ [⟨none, t.now, w.node,
        .wait w.outcome w.detail w.first w.last w.count w.recheckAt⟩]
      record := { t.record with wait := none, recheckAt := none } }
  | none => t.edit fun r => { r with recheckAt := none }

def boundedRecheck (requested : Option Timestamp) : Option Timestamp :=
  requested.map fun at_ => match firstBound spec t.record with
    | some limit => min at_ limit
    | none => at_

/-- The detail of a waiting answer: the held case, or why the answer is unknown. -/
def waitDetail (object : Value) (outcome : String) : Option Nat → Option (Option String)
  | some case_ => do
    let check ← spec.checks[t.record.node]?
    let held ← check.conditionCases[case_]?
    some (some held.outcome)
  | none => some (if outcome = "unknown" then object.text "reason" else none)

def mergeWait (object : Value) (at_ : Timestamp) : Option Transition := do
  let outcome := (object.text "outcome").getD ""
  let case_ := if outcome = "hold" then caseIndex object else none
  let detail ← t.waitDetail spec object outcome case_
  let requested := match case_ with
    | some case_ => holdUntil spec t.record case_ t.now
    | none => (object.get "recheck_at").bind Field.asInstant
  let recheckAt := t.boundedRecheck spec requested
  let t := if t.record.wait.any fun w => (w.outcome, w.case_) ≠ (outcome, case_) then t.closeWait
    else t
  let wait := t.record.wait.getD
    { node := t.record.node, outcome, case_, detail := none, givesUpAt := none, first := at_,
      last := at_, count := 0, recheckAt }
  some (t.edit fun r =>
    { r with wait := some { wait with last := at_, count := wait.count + 1, detail, recheckAt },
             recheckAt })

/-- The move of `Transition::route` to a target other than `@wait`. -/
def moveTo (target : String) (object : Value) (reason : ParkReason) : Transition :=
  if target = "@done" ∨ target = "@failed" then
    let state : RunState := if target = "@done" then .done else .failed
    (t.edit fun r => { r with state, terminalAt := some t.now }).push none (.terminal state)
  else if target = "@user" then
    let text := object.text "reason"
    (t.edit fun r => { r with state := .parked, park := some ⟨reason, text, t.now⟩ }).push none
      (.park reason text)
  else t.edit fun r =>
    { r with node := target, enteredAt := t.now, checkRetry := 0, checkRetryContext := none }

/-- The edit of `Transition::route` at a target: a wait at the node, or a move once the wait is
closed. -/
def arrive (target : String) (object : Value) (reason : ParkReason) : Option Transition :=
  if target = "@wait" then t.mergeWait spec object t.now
  else some (t.closeWait.moveTo target object reason)

def route (target : String) (object : Value) (reason : ParkReason) : Option Transition :=
  if t.record.state.isTerminal then some t
  else match t.record.held with
    | some held =>
      let verdict : Verdict :=
        ⟨t.record.node, t.record.enteredAt, some t.now, target, object, reason⟩
      some (t.edit fun r =>
        { r with held := some { held with verdict := some verdict }, attempt := none })
    | none => do
      let sleep := spec.checks[t.record.node]?.any Check.isSleep
      let t ← t.arrive spec target object reason
      let t := t.edit fun r => { r with attempt := none }
      if sleep || t.record.wait.any Wait.isHold then some t
      else some (t.edit fun r => { r with key := object.key, input := some object })

def engineObject (object : Value) : Value :=
  match t.record.key with
  | some key => object.set "key" (.ofKey key)
  | none => object

def capRoute (bound : String) (visits max : Nat) : Option (Transition × Verdict) := do
  let object := t.engineObject (.object [("outcome", .string "cap"),
    ("step", .string t.record.node), ("bound", .string bound), ("visits", .integer visits),
    ("max", .integer max), ("routed_by", .ofOption t.record.visitBucket.1)])
  let t := t.push none (.route "cap" object)
  let target ← spec.target t.record.node "cap"
  some (t, ⟨t.record.node, t.record.enteredAt, some t.now, target, object, .cap⟩)

def engineRoute (outcome : String) (object : Value) (target : String) (reason : ParkReason) :
    Option Transition :=
  let object := t.engineObject object
  (t.push none (.route outcome object)).route spec target object reason

def stepWait (outcome : String) (detail : Option String) : Transition :=
  let t := if t.record.wait.any fun w => w.outcome ≠ outcome then t.closeWait else t
  let wait := t.record.wait.getD
    { node := t.record.node, outcome, case_ := none, detail := none, givesUpAt := none,
      first := t.now, last := t.now, count := 0, recheckAt := none }
  t.edit fun r =>
    { r with wait := some { wait with last := t.now, count := wait.count + 1, detail } }

/-- The reset of one step's outcome rows by a check's answer. -/
def resetStep (seq : Nat) (outcome step : String) (definition : Step) : Transition :=
  match t.record.visits[step]? with
  | some visits =>
    if (definition.maxVisitsPerOutcome.any fun cap => outcome ∈ cap.resetOn)
        ∧ visits.outcomes ≠ [] then
      (t.edit fun r =>
          { r with visits := r.visits.insert step { visits with outcomes := [] } }).push
        (some seq) (.visitsReset step outcome false)
    else t
  | none => t

/-- The visit resets that a check's answer makes. -/
def resetOutcomes (seq : Nat) (outcome : String) : Transition :=
  spec.steps.toList.foldl (fun t step => t.resetStep seq outcome step.1 step.2) t

/-- The answer of a check as `finish_check` records it: object, outcome, target, reason, origin. -/
structure Answered where
  object : Value
  outcome : String
  target : String
  reason : ParkReason
  origin : EvaluationOrigin

/-- The answer a result is read as. -/
def answered (check : Check) (object : Except String Value) : Option Answered :=
  match object.bind fun object =>
      normalizeObject object check t.record.key (spec.edges t.record.node) with
  | .ok object => do
    let outcome := (object.text "outcome").getD ""
    let target ← spec.target t.record.node outcome
    some ⟨object, outcome, target, .user, .check⟩
  | .error reason => do
    let target ← spec.target t.record.node "invalid"
    some ⟨t.engineObject (.object [("outcome", .string "invalid"), ("node", .string t.record.node),
      ("reason", .string reason)]), "invalid", target, .invalid, .engine⟩

/-- An answered case whose hold has not run out waits. -/
def holds (check : Check) (a : Answered) : Answered :=
  match caseIndex a.object with
  | some case_ =>
    if (check.kind = some .condition ∨ check.kind = some .sleep)
        ∧ (check.conditionCases[case_]?.any fun c => c.hold.isSome)
        ∧ ¬((holdUntil spec t.record case_ t.now).any fun until_ => until_ ≤ t.now) then
      { a with object := a.object.set "outcome" (.string "hold"), outcome := "hold",
               target := "@wait" }
    else a
  | none => a

def finishCheck (seq : Nat) (object : Except String Value) : Option Transition :=
  if t.current seq then do
    let check ← spec.checks[t.record.node]?
    let a := t.holds spec check (← t.answered spec check object)
    let attempt ← t.record.attempt
    let t := (t.edit fun r => { r with attempt := none }).push (some seq)
      (.evaluation a.origin a.outcome a.object attempt.startedAt t.now none)
    let t := if a.origin = .check ∧ a.outcome ≠ "hold" then t.resetOutcomes spec seq a.outcome
      else t
    let t := if a.reason = .invalid then t.push (some seq) (.route a.outcome a.object) else t
    t.route spec a.target a.object a.reason
  else some t

/-- The retry an evaluation entry of this attempt was made with. -/
def stampRetry (seq : Nat) (retry : Option Value) (entry : JournalEntry) : JournalEntry :=
  match entry.event with
  | .evaluation origin outcome object startedAt endedAt _ =>
    if entry.seq = some seq then
      { entry with event := .evaluation origin outcome object startedAt endedAt retry }
    else entry
  | _ => entry

/-- The edit of a judge that failed: it is asked again once, or when its limit resets, or it
parks. -/
def failJudge (seq : Nat) (attempt : LiveAttempt) (failure reason : String)
    (resetAt : Option Timestamp) : Option (Transition × Bool) :=
  let object := t.engineObject (.object [("outcome", .string failure), ("reason", .string reason)])
  let t := t.closeWait.push (some seq)
    (.evaluation .engine failure object attempt.startedAt t.now attempt.retry)
  let t := t.edit fun r => { r with attempt := none, recheckAt := none }
  if failure = "canceled" then some (t, true)
  else if failure = "limited" then
    some (t.edit fun r => { r with recheckAt := t.boundedRecheck spec resetAt }, false)
  else if t.record.checkRetry = 0 then
    some (t.edit fun r =>
      { r with checkRetry := 1, checkRetryContext := some (.object
        [("outcome", .string failure), ("reason", .string reason)]) }, true)
  else (t.route spec "@user" object .check).map fun t => (t, false)

/-- `Transition::finish_judge`: the edit, and whether the judge is asked again. -/
def finishJudge (seq : Nat) (result : Evaluation) : Option (Transition × Bool) :=
  if t.current seq then do
    let attempt ← t.record.attempt
    let check ← spec.checks[t.record.node]?
    let (object, failure) := match result.object with
      | .ok object =>
        (normalizeObject object check t.record.key (spec.edges t.record.node), "invalid")
      | .error reason => (.error reason, result.failure)
    match object with
    | .ok object =>
      let t := t.edit fun r => { r with checkRetryContext := none }
      let t ← t.finishCheck spec seq (.ok object)
      some ({ t with entries := t.entries.map (stampRetry seq attempt.retry) }, false)
    | .error reason => t.failJudge spec seq attempt failure reason result.limited.join
  else some (t, false)

def restoreSession : Option Transition := do
  let held ← t.record.held
  some (t.edit fun r =>
    { r with held := none, node := held.attempt.node, enteredAt := held.enteredAt,
             attempt := some held.attempt, checkRetry := 0, checkRetryContext := none,
             recheckAt := none })

def turnEnd (attempt : LiveAttempt) (action : TurnEndAction) (verdict : Option Verdict)
    (reason : Option String) : Option Transition := do
  let turn ← attempt.judged
  let pushed := action = .pushed
  some { t with
    entries := t.entries ++ [⟨some attempt.seq, t.now, attempt.node,
      .turnEnd action turn ((verdict.map Verdict.node).getD t.record.node)
        (verdict.bind fun v => v.object.text "outcome") (verdict.map Verdict.target) reason
        (if pushed then attempt.visit else none)
        (if pushed then attempt.push.map PushBack.message else none)⟩] }

def previousAttempt (outcome : AttemptOutcome) : Option PreviousAttempt := do
  let attempt ← t.record.attempt
  let bucket := t.record.visitBucket
  let visit ← attempt.visit.or (t.record.visits[attempt.node]?.map fun v => v.forBucket bucket)
  some { step := attempt.node, outcome, seq := attempt.seq, visit, key := bucket.2,
         routedBy := bucket.1, startedAt := attempt.startedAt, endedAt := t.now,
         handle := attempt.run.map AttemptRun.handle, runId := attempt.run.map AttemptRun.runId }

def stageAgentEnd (ending : Ending) (ask : Option Asking) : Option Transition := do
  let attempt ← t.record.attempt
  let t := t.edit fun r =>
    { r with attempt := some { attempt with asking := none, heldSince := none,
                                            ending := some ending } }
  let previous ← t.previousAttempt ending.outcome
  let asked := if ending.outcome = .asked then ask.map Asking.text else none
  some (t.edit fun r => { r with prevAttempt := some { previous with asked } })

def resetVisits (step outcome : String) : Transition :=
  (t.edit fun r => { r with visits := r.visits.erase step }).push none
    (.visitsReset step outcome true)

def restartStep (step : String) (continued : Bool) : Transition :=
  let t := t.closeWait.resetVisits step "restart"
  (t.edit fun r =>
    { r with node := step, enteredAt := t.now, park := none, state := .active, checkRetry := 0,
             checkRetryContext := none }).push none (.restart step continued)

/-- The end of a canceled run. -/
def cancelRun (reason : Option String) : Transition :=
  ((t.edit fun r => { r with state := .canceled, terminalAt := some t.now }).push none
    (.cancel reason)).push none (.terminal .canceled)

/-- The journal row of a settled step attempt, unless a continued restart stops it again. -/
def journalAttempt (attempt : LiveAttempt) (previous : PreviousAttempt) (reason : Option String) :
    Transition :=
  if (t.record.restart.bind Restart.settled) ≠ some attempt.seq then
    t.push (some attempt.seq) (.attempt previous.outcome previous.visit previous.key
      previous.routedBy previous.startedAt t.now previous.handle previous.runId previous.asked
      reason)
  else t

/-- The row of the turn that a closing verdict judged. -/
def closeTurn (attempt : LiveAttempt) (verdict : Verdict) : Option Transition :=
  if attempt.judged.isSome then t.turnEnd attempt .closed (some verdict) none else some t

/-- The move of `Transition::settle_step` after the attempt is journaled. -/
def settleRoute (attempt : LiveAttempt) (ending : Ending) (previous : PreviousAttempt) :
    Option Transition :=
  match ending.route, ending.cause with
  | some verdict, _ => do
    let t ← t.closeTurn attempt verdict
    (t.edit fun r => { r with node := verdict.node, enteredAt := verdict.enteredAt }).route spec
      verdict.target verdict.object verdict.reason
  | none, .restart continued => some (t.restartStep attempt.node continued)
  | none, .cancel =>
    some ((t.closeWait.edit fun r => { r with restart := none }).cancelRun ending.reason)
  | none, .deadline => do
    let target ← spec.target t.record.node "deadline"
    (t.edit fun r => { r with deadlineFired := true }).engineRoute spec "deadline"
      (.object [("outcome", .string "deadline"), ("deadline", .other "deadline")]) target .deadline
  | none, _ =>
    if ending.outcome = .asked then do
      let target ← spec.target t.record.node "asked"
      t.engineRoute spec "asked" (.object [("outcome", .string "asked"),
        ("reason", .ofOption previous.asked), ("asked", .ofOption previous.asked)]) target .asked
    else do
      let target ← spec.target t.record.node "then"
      t.route spec target (t.engineObject (t.record.input.getD (.object []))) .user

def settleStep (attempt : LiveAttempt) (ending : Ending) (reason : Option String) :
    Option Transition := do
  let previous ← t.record.prevAttempt
  (t.journalAttempt attempt previous reason).settleRoute spec attempt ending previous

def settleAgent (reason : Option String) : Option Transition := do
  let attempt ← t.record.attempt
  let ending ← attempt.ending
  let previous ← t.record.prevAttempt
  let previous := { previous with
    outcome := ending.outcome, handle := attempt.run.map AttemptRun.handle,
    runId := attempt.run.map AttemptRun.runId, endedAt := t.now,
    asked := if ending.outcome = .asked then previous.asked else none }
  (t.edit fun r => { r with attempt := none, prevAttempt := some previous }).settleStep spec attempt
    ending reason

def abandonCheck (outcome : String) : Transition :=
  match t.record.attempt with
  | some attempt =>
    (t.edit fun r => { r with attempt := none }).push (some attempt.seq)
      (.evaluation .engine outcome .null attempt.startedAt t.now attempt.retry)
  | none => t

/-- `Transition::finish_script`: the edit, and whether it settled a command step. -/
def finishScript (ending : Ending) (reason : Option String) : Option (Transition × Bool) :=
  if spec.steps.contains t.record.node then
    match t.record.attempt with
    | none => some (t, false)
    | some attempt => do
      let previous ← t.previousAttempt ending.outcome
      let t := t.edit fun r => { r with prevAttempt := some previous, attempt := none }
      let t ← t.settleStep spec attempt ending reason
      some (t, true)
  else
    some (t.abandonCheck (if ending.outcome = .timeout then "timeout" else "canceled"), false)

/-- `Transition::bound`: the edit of a deadline or timeout that fell due, `false` without one. The
host of a command step whose child has exited may still owe its status. -/
def bound (owesExit : Bool) : Option (Transition × Bool) :=
  if t.record.state ≠ .active ∨ (t.record.attempt.any fun a => a.kind = .agent)
      ∨ (owesExit ∧ t.record.attempt.isSome ∧ spec.steps.contains t.record.node) then
    some (t, false)
  else if t.record.held.isNone ∧ !t.record.deadlineFired
      ∧ t.record.deadline.any fun deadline => deadline ≤ t.now then do
    let (t, settled) ← t.finishScript spec { outcome := .canceled, cause := .deadline } none
    if settled then some (t, true)
    else do
      let t := t.edit fun r => { r with deadlineFired := true }
      let target ← spec.target t.record.node "deadline"
      let t ← t.engineRoute spec "deadline"
        (.object [("outcome", .string "deadline"), ("deadline", .other "deadline")]) target .deadline
      some (t, true)
  else if (timeoutAt spec t.record).any fun at_ => at_ ≤ t.now then do
    let (t, settled) ← t.finishScript spec { outcome := .timeout, cause := .timeout } none
    if settled then some (t, true)
    else do
      let target ← spec.target t.record.node "timeout"
      let t ← t.engineRoute spec "timeout" (.object [("outcome", .string "timeout"),
        ("node", .string t.record.node), ("timeout", .other "timeout")]) target .timeout
      some (t, true)
  else some (t, false)

end Transition

end Rimz.Workflow
