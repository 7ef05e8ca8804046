import Rimz.Workflow.Transition

/-!
# The workflow engine

The sections of `engine.rs`, `engine/agent.rs` and `engine/until.rs` that run under the workspace
lock, each a function of the run on disk and of what it reads outside: the clock, the host's
observations, the liveness of a process, the admission of a launch. A section that panics or returns
an error before it writes is `none`. Accounting, context files and the throttle's own records are
left out.
-/

namespace Rimz.Workflow
open Std

/-- A run's record and journal. -/
structure Disk where
  record : RunRecord
  journal : List JournalEntry

def Disk.persist (d : Disk) (t : Transition) : Disk where
  record := if t.record.state ≠ .active then { t.record with restart := none } else t.record
  journal := d.journal ++ t.entries

inductive RunStatus where
  | pending
  | running
  | completed
  | failed
  | verifyFailed
  | timedOut
  | canceled
  | budgetExceeded
  deriving DecidableEq

/-- `Stopped`: since when, and whether by an interrupt. -/
structure Stopped where
  since : Timestamp
  interrupt : Bool

structure LeaderTurn where
  end_ : TurnEnd
  atRest : Bool

/-- `Observed`, and `empty_observation` by default. -/
structure Observed where
  status : RunStatus := .pending
  ask : Option Asking := none
  stopped : Option Stopped := none
  turn : Option LeaderTurn := none

inductive Occupancy where
  | free
  | occupied
  | blocked

/-- What `try_admit` answers to a launch. -/
inductive CapacityAnswer where
  | turn
  | held (text : String)
  | oversized (error : String)
  | failed (error : String)

structure Admission where
  eviction : Option (Nat × String × Option String) := none
  capacity : Option (Nat × String × CapacityAnswer) := none

/-- What an advance carries from one section to the next. -/
structure Local where
  seen : List String := []
  admission : Admission := {}

/-- What a section reads: the clock at its start, after the observation, before the admission and
before the publication, and the world outside the record. -/
structure Reading where
  now : Timestamp
  observedAt : Timestamp
  admittedAt : Timestamp
  launchAt : Timestamp
  observed : Observed := {}
  hostLive : Bool := true
  owesExit : Bool := false
  window : Option String := none
  groupsError : Option String := none
  occupancy : Occupancy := .free
  composed : Except String Unit := .ok ()
  message : MessageId := 0

/-- A reading at one instant, with nothing else to observe. -/
def Reading.atInstant (now : Timestamp) : Reading where
  now := now
  observedAt := now
  admittedAt := now
  launchAt := now

inductive Decision where
  | stop
  | again
  | evaluate (record : RunRecord)
  | launch (record : RunRecord) (prompt : Except String Unit)
  | end_ (record : RunRecord)
  | push (record : RunRecord)
  | evict (record : RunRecord)
  | askCapacity (seq : Nat) (node : String)

def observedOutcome (observed : Observed) (lifecycle : StepLifecycle) (onAsked : Bool) :
    Option AttemptOutcome :=
  match observed.status with
  | .completed => some .ended
  | .failed | .verifyFailed | .timedOut => some .died
  | .canceled => some .canceled
  | .budgetExceeded => some .limited
  | .pending | .running =>
    if lifecycle.isTurn ∧ onAsked ∧ observed.ask.isSome then some .asked else none

/-- The earlier of two optional instants. -/
def earlier : Option Timestamp → Option Timestamp → Option Timestamp
  | some a, some b => some (min a b)
  | a, b => a.or b

/-- `hold`: the attempt with its hold folded in, and whether that changed it. -/
def LiveAttempt.hold (attempt : LiveAttempt) (ask : Option Asking) (stopped : Option Stopped)
    (now : Timestamp) : LiveAttempt × Bool :=
  let previous := attempt.heldSince.or (attempt.asking.map Asking.since)
  let asking := ask.map fun seen => Asking.mk (match attempt.asking with
    | some open_ => open_.since
    | none => min (max seen.since attempt.startedAt) now) seen.text
  let since := earlier (asking.map Asking.since)
    ((stopped.filter fun s => !s.interrupt).map Stopped.since)
  let heldSince := since.map fun since =>
    min (max ((previous.map fun p => min p since).getD since) attempt.startedAt) now
  let paused := match heldSince, previous with
    | none, some closed => ((now - closed).tdiv 1000000).toNat
    | _, _ => 0
  ({ attempt with asking, heldSince, askedMs := attempt.askedMs + paused },
    decide (attempt.asking ≠ asking ∨ attempt.heldSince ≠ heldSince))

/-- Whether the run's deadline has passed unfired. -/
def RunRecord.deadlineDue (r : RunRecord) (now : Timestamp) : Bool :=
  !r.deadlineFired && r.deadline.any fun at_ => decide (at_ ≤ now)

def Transition.editAttempt (t : Transition) (f : LiveAttempt → LiveAttempt) : Transition :=
  t.edit fun r => { r with attempt := r.attempt.map f }

def Observed.eligible (o : Observed) : Option LeaderTurn :=
  o.turn.filter fun turn => turn.atRest && o.ask.isNone && o.stopped.isNone

/-- `until::begin`: the session held under its first check, `none` when no turn is to be judged. -/
def Transition.begin (spec : WorkflowSpec) (t : Transition) (observed : Observed) :
    Option (Option Transition) := do
  let attempt ← t.record.attempt
  match observed.eligible with
  | none => some none
  | some turn =>
    if attempt.lifecycle ≠ .until_ ∨ attempt.judged = some turn.end_ then some none
    else do
      let step ← spec.steps[attempt.node]?
      let check ← step.then_.head?
      let held : HeldSession :=
        ⟨{ attempt with judged := some turn.end_ }, t.record.enteredAt, none⟩
      some (some (t.edit fun r =>
        { r with attempt := none, held := some held, node := check, enteredAt := t.now,
                 checkRetry := 0, checkRetryContext := none }))

/-- The ending that `prepare_end` reads off an attempt. -/
def agentEnding (spec : WorkflowSpec) (t : Transition) (attempt : LiveAttempt)
    (observed : Observed) (hostLive : Bool) : Option Ending :=
  if t.record.deadlineDue t.now then some { outcome := .canceled, cause := .deadline }
  else if (timeoutAt spec t.record).any fun at_ => at_ ≤ t.now then
    some { outcome := .timeout, cause := .timeout }
  else
    let onAsked := (spec.edges attempt.node).any fun edge => edge.outcome = "asked"
    ((observedOutcome observed attempt.lifecycle onAsked).or
      (if attempt.run.isNone && !hostLive then some .canceled else none)).map fun outcome =>
        { outcome, cause := .lifecycle }

/-- The evidence of a staged ending, staged again when it is not this attempt's. -/
def restage (t : Transition) (attempt : LiveAttempt) (ending : Ending) (ask : Option Asking) :
    Option Transition :=
  if t.record.prevAttempt.all fun p => p.seq ≠ attempt.seq then t.stageAgentEnd ending ask
  else some t

def prepareEnd (spec : WorkflowSpec) (d : Disk) (t : Transition) (me : Host) (i : Reading) :
    Option (Disk × Transition × Decision) := do
  let attempt ← t.record.attempt
  let observed := if attempt.run.isSome then i.observed else {}
  match attempt.ending with
  | some ending =>
    if i.hostLive then some (d, t, .stop)
    else do
      let t ← restage t attempt ending observed.ask
      let t := t.editAttempt fun a => { a with host := me }
      some (d.persist t, t, .end_ t.record)
  | none =>
    let t := { t with now := i.observedAt }
    let (held, changed) := attempt.hold observed.ask observed.stopped t.now
    let t := t.edit fun r => { r with attempt := some held }
    match agentEnding spec t attempt observed i.hostLive with
    | some ending => do
      let t ← t.stageAgentEnd ending observed.ask
      if attempt.run.isNone && i.hostLive then some (d.persist t, t, .stop)
      else
        let t := t.editAttempt fun a => { a with host := me }
        some (d.persist t, t, .end_ t.record)
    | none =>
      let d' := if changed then d.persist t else d
      if attempt.push.any fun push => !push.queued then some (d', t, .push t.record)
      else match ← t.begin spec observed with
        | some t => some (d.persist t, t, .again)
        | none => some (d', t, .stop)

/-- `close_after`: the instant a held closing verdict takes effect. -/
def closeAfter (spec : WorkflowSpec) (r : RunRecord) : Option Timestamp := do
  let held ← r.held
  let verdict ← held.verdict
  let step ← spec.steps[held.attempt.node]?
  if verdict.target = "@wait" ∨ verdict.target = held.attempt.node ∨ verdict.target ∈ step.then_ then
    none
  else do
    let check ← spec.checks[verdict.node]?
    let outcome ← verdict.object.text "outcome"
    let route ← check.on[outcome]?
    let delay ← route.delay
    some (verdict.at_.getD verdict.enteredAt + delay)

def RunRecord.hasPendingVerdict (r : RunRecord) : Bool := r.held.any fun held => held.verdict.isSome

def Transition.interrupt (t : Transition) (reason : String) : Option Transition := do
  let held ← t.record.held
  let t := t.abandonCheck "canceled"
  let t ← t.turnEnd held.attempt .interrupted held.verdict (some reason)
  t.restoreSession

/-- What `until::prepare` returns: a decision, or the way on to the check under the session. -/
inductive UntilStep where
  | decided (d : Disk) (seen : List String) (decision : Decision)
  | pass (d : Disk) (t : Transition)

section Until
variable (spec : WorkflowSpec) (d : Disk) (t : Transition) (me : Host) (i : Reading)
  (seen : List String)

/-- The end of a held session that its agent, or the deadline, ended. -/
def untilEnded (outcome : AttemptOutcome) (cause : EndCause) (reason : String) :
    Option UntilStep := do
  let t ← t.interrupt reason
  let t ← t.stageAgentEnd { outcome, cause } i.observed.ask
  let t := t.editAttempt fun a => { a with host := me }
  some (.decided (d.persist t) [] (.end_ t.record))

/-- A verdict on a turn the leader has left: the session goes on. -/
def untilMovedOn (held : HeldSession) : Option UntilStep := do
  let t := (t.abandonCheck "canceled").closeWait
  let t ← t.turnEnd held.attempt .discarded held.verdict (some "leader turn moved on")
  let t ← t.restoreSession
  some (.decided (d.persist t) [] .again)

/-- A verdict that waits: the check is asked again later. -/
def untilWaits (held : HeldSession) (verdict : Verdict) : Option UntilStep := do
  let t ← t.mergeWait spec verdict.object (verdict.at_.getD t.now)
  let attempt := { held.attempt with woken := false }
  let t := t.edit fun r => { r with held := some { held with attempt, verdict := none } }
  let t ← t.turnEnd attempt .kept (some verdict) none
  if held.attempt.woken then
    let t := t.edit fun r =>
      { r with recheckAt := none, wait := r.wait.map fun w => { w with recheckAt := none } }
    some (.decided (d.persist t) (seen.filter (· ≠ t.record.node)) .again)
  else some (.decided (d.persist t) seen .stop)

/-- A verdict that sends the turn back to its own step: a visit, unless a bound is spent. -/
def untilPushBack (verdict : Verdict) : Option UntilStep := do
  let t ← t.closeWait.restoreSession
  let t := t.edit fun r => { r with key := verdict.object.key, input := some verdict.object }
  let step ← spec.steps[t.record.node]?
  match step.trippedVisitBound t.record with
  | some (bound, visits, max) => do
    let (t, route) ← t.capRoute spec bound visits max
    let t ← t.stageAgentEnd { outcome := .ended, cause := .lifecycle, route := some route }
      i.observed.ask
    let t := t.editAttempt fun a => { a with host := me }
    some (.decided (d.persist t) [] (.end_ t.record))
  | none => do
    let attempt ← t.record.attempt
    let bucket := t.record.visitBucket
    let visits := (t.record.visits[t.record.node]?.getD {}).bump bucket
    let push : PushBack := ⟨i.message, false⟩
    let t := t.edit fun r =>
      { r with visits := r.visits.insert r.node visits,
               attempt := some { attempt with visit := some (visits.forBucket bucket),
                                              push := some push } }
    let t ← t.turnEnd { attempt with push := some push } .pushed (some verdict) none
    some (.decided (d.persist t) [] (.push t.record))

/-- A verdict for another check of the step's list: the session stays held under it. -/
def untilMoves (held : HeldSession) (verdict : Verdict) : Option UntilStep := do
  let t ← t.closeWait.turnEnd held.attempt .kept (some verdict) none
  let t := t.edit fun r =>
    { r with held := some { held with verdict := none }, node := verdict.target,
             enteredAt := t.now, checkRetry := 0, checkRetryContext := none }
  some (.decided (d.persist t) seen .again)

/-- A verdict that leaves the step: the session ends and takes the verdict's route. -/
def untilCloses (verdict : Verdict) : Option UntilStep := do
  let t ← t.restoreSession
  let t ← t.stageAgentEnd { outcome := .ended, cause := .lifecycle, route := some verdict }
    i.observed.ask
  let t := t.editAttempt fun a => { a with host := me }
  some (.decided (d.persist t) [] (.end_ t.record))

/-- `until::prepare`. -/
def untilPrepare : Option UntilStep := do
  let held ← t.record.held
  let _ ← held.attempt.run
  let t := { t with now := i.observedAt }
  let (attempt, changed) := held.attempt.hold i.observed.ask i.observed.stopped t.now
  let held := { held with attempt }
  let t := t.edit fun r => { r with held := some held }
  -- A hold that changed is written on the way out; nothing is staged before it.
  let kept := if changed then d.persist t else d
  if t.record.deadlineDue t.now then untilEnded d t me i .canceled .deadline "deadline"
  else match observedOutcome i.observed .until_ false with
    | some outcome => untilEnded d t me i outcome .lifecycle outcome.asStr
    | none =>
      let waiting := held.verdict.all fun v => v.target = "@wait"
      if (i.observed.turn.map LeaderTurn.end_) ≠ held.attempt.judged
          ∨ (waiting ∧ i.observed.eligible.isNone) then
        untilMovedOn d t held
      else match held.verdict with
        | none => some (.pass kept t)
        | some verdict =>
          if verdict.target = "@wait" then untilWaits spec d t seen held verdict
          else if verdict.target = held.attempt.node then
            if i.observed.eligible.isNone then some (.decided kept seen .stop)
            else untilPushBack spec d t me i verdict
          else do
            let step ← spec.steps[held.attempt.node]?
            if verdict.target ∈ step.then_ then
              if i.observed.eligible.isNone then some (.decided kept seen .stop)
              else untilMoves d t seen held verdict
            else if ((closeAfter spec t.record).any fun at_ => t.now < at_)
                ∨ i.observed.eligible.isNone then some (.decided kept seen .stop)
            else untilCloses d t me i verdict

end Until

/-- What the preparation of a node returns: a decision, or the way on to the attempt. -/
inductive NodeStep where
  | decided (d : Disk) (l : Local) (decision : Decision)
  | pass (t : Transition) (l : Local) (launchError : Option String)

section Prepare
variable (spec : WorkflowSpec) (d : Disk) (t : Transition) (me : Host) (i : Reading) (l : Local)

/-- An advance that no longer holds an answer about capacity. -/
def Local.dropCapacity (l : Local) : Local :=
  { l with admission := { l.admission with capacity := none } }

def prepareCapacity (step : Step) : Option NodeStep :=
  let mayWait := t.record.task.isSome && !t.record.manual && t.record.restart.isNone
  let limits := spec.limit || step.limit || t.record.restart.isSome
  if !mayWait && !limits then some (.pass t l.dropCapacity none)
  else
    let wait := t.record.wait.filter fun w => mayWait && w.outcome = "capacity"
    match wait.filter fun w => w.givesUpAt.any fun at_ => at_ ≤ t.now with
    | some wait => do
      let object := Value.object [("outcome", .string "capacity"), ("step", .string t.record.node),
        ("reason", .ofOption wait.detail), ("waited_ms",
          .integer (max ((t.now - wait.first).tdiv 1000000) 0))]
      let target ← spec.target t.record.node "capacity"
      let t ← t.engineRoute spec "capacity" object target .user
      some (.decided (d.persist t) l.dropCapacity .again)
    | none =>
      match l.admission.capacity with
      | none => some (.decided d l (.askCapacity t.record.nextSeq t.record.node))
      | some (_, _, .held text) =>
        let t := t.stepWait "capacity" (some text)
        let t := t.edit fun r =>
          { r with wait := r.wait.map fun w =>
            { w with givesUpAt := match step.capacityWait with
              | some (.duration span) => some (w.first + span)
              | _ => none } }
        some (.decided (d.persist t) l .stop)
      | some _ => some (.pass t l none)

/-- Whether a launch of this step asks for capacity. -/
def admits (step : Step) : Bool :=
  spec.limit || step.limit || t.record.restart.isSome || (t.record.task.isSome && !t.record.manual)

/-- The error a launch already carries: a refused capacity, or a layout that does not resolve. -/
def priorLaunchError (step : Step) : Option String :=
  let refused := if admits spec t step then
      match l.admission.capacity with
      | some (_, _, .oversized error) | some (_, _, .failed error) => some error
      | _ => none
    else none
  if admits spec t step || step.window.isSome then i.groupsError.or refused else refused

/-- The preparation of an agent step that no visit bound stops. -/
def prepareAgentStep (step : Step) : Option NodeStep :=
  let error := priorLaunchError spec t i l step
  let window := if t.record.restart.isNone && error.isNone && step.window.isSome then i.window
    else none
  match window with
  | some detail => some (.decided (d.persist (t.stepWait "window" (some detail))) l .stop)
  | none =>
    let eviction := l.admission.eviction.filter fun (seq, node, _) =>
      seq = t.record.nextSeq && node = t.record.node
    let l := { l with admission := { l.admission with eviction := none } }
    let launch (error : Option String) (evict : Bool) : Option NodeStep :=
      let t := { t with now := i.admittedAt }
      match error with
      | some error => some (.pass t l (some error))
      | none => do
        match ← prepareCapacity spec d t l step with
        | .decided d l decision => some (.decided d l decision)
        | .pass t l _ => if evict then some (.decided d l (.evict t.record)) else some (.pass t l none)
    match eviction, error with
    | some (_, _, failed), error => launch (error.or failed) false
    | none, some error => launch (some error) false
    | none, none => match i.occupancy with
      | .free => launch none false
      | .blocked => some (.decided (d.persist (t.stepWait "takeover" none)) l .stop)
      | .occupied =>
        if step.takeover then launch none true
        else some (.decided (d.persist (t.stepWait "occupied" none)) l .stop)

def prepareStep (step : Step) : Option NodeStep :=
  match step.trippedVisitBound t.record with
  | some (bound, visits, max) =>
    if t.record.node ∈ l.seen then some (.decided d l .stop)
    else do
      let (t, route) ← t.capRoute spec bound visits max
      let t' ← t.route spec route.target route.object route.reason
      some (.decided (d.persist t')
        { l with seen := route.node :: l.seen }.dropCapacity .again)
  | none =>
    if step.kind = some .agent then prepareAgentStep spec d t i l step else some (.pass t l none)

def prepareCheck (check : Check) : NodeStep :=
  let window := if check.window.isSome ∧ check.kind = some .agent then i.window else none
  match window with
  | some detail => .decided (d.persist (t.stepWait "window" (some detail))) l .stop
  | none =>
    let t := if check.window.isSome ∧ t.record.wait.any (fun w => w.outcome = "window") then
        t.closeWait
      else t
    if t.record.node ∈ l.seen then .decided d l .stop
    else .pass t { l with seen := t.record.node :: l.seen } none

/-- The preparation of the record's node, steps before checks. -/
def prepareNode : Option NodeStep :=
  match spec.steps[t.record.node]?, spec.checks[t.record.node]? with
  | some step, _ => prepareStep spec d t i l step
  | none, some check => some (prepareCheck d t i l check)
  | none, none => none

/-- The kind of the attempt that a node starts. -/
def attemptKind (node : String) : AttemptKind :=
  match spec.steps[node]?, spec.checks[node]? with
  | some step, _ => if step.kind = some .agent then .agent else .script
  | none, some check => if check.kind = some .agent then .judge else .script
  | none, none => .script

/-- The visit that a step's attempt counts. -/
def countVisit : Transition :=
  let t := t.closeWait
  let bucket := t.record.visitBucket
  t.edit fun r =>
    { r with visits := r.visits.insert r.node ((r.visits[r.node]?.getD {}).bump bucket),
             enteredAt := t.now }

/-- The attempt that `prepare` publishes. -/
def newAttempt : LiveAttempt :=
  let node := t.record.node
  { kind := attemptKind spec node
    lifecycle := (spec.steps[node]?.map Step.lifecycle).getD .turn
    seq := t.record.nextSeq
    node
    visit := if spec.steps.contains node then
        t.record.visits[node]?.map fun v => v.forBucket t.record.visitBucket
      else none
    startedAt := t.now
    host := me
    retry := t.record.checkRetryContext }

/-- The staged end of a launch that no capacity can ever admit. -/
def oversizedEnding (error : String) : Ending where
  outcome := .died
  cause := .lifecycle
  route := some ⟨t.record.node, t.record.enteredAt, some t.now, "@failed",
    .object [("outcome", .string "died"), ("reason", .string error)], .user⟩
  reason := some error

/-- The staging of that end. -/
def stageOversized : Option Transition :=
  match l.admission.capacity with
  | some (_, _, .oversized error) => t.stageAgentEnd (oversizedEnding t error) none
  | _ => some t

/-- The publication of an attempt at the record's node. -/
def publish (launchError : Option String) : Option (Disk × Local × Decision) := do
  let step := spec.steps.contains t.record.node
  let t := if step then countVisit t else t
  let l := if step then { l with seen := [] } else l
  let attempt := newAttempt spec t me
  let t := t.edit fun r =>
    { r with nextSeq := r.nextSeq + 1, attempt := some attempt,
             held := r.held.map fun h => { h with attempt := { h.attempt with woken := false } } }
  let t ← stageOversized t l
  let d := d.persist t
  if attempt.kind = .agent then
    let prompt := match launchError with
      | some error => .error error
      | none => i.composed
    some (d, l.dropCapacity, .launch t.record prompt)
  else some (d, l, .evaluate t.record)

/-- The end of a section whose bound fell due. -/
def afterBound (d : Disk) (t : Transition) (l : Local) (again : Bool) : Disk × Local × Decision :=
  (d.persist t, l.dropCapacity,
    if again || (t.record.state = .active && (t.record.wait.isNone || t.record.hasPendingVerdict))
    then .again else .stop)

/-- `prepare`, from the point where no held session and no agent attempt decides. -/
def prepareOn : Option (Disk × Local × Decision) := do
  let (bounded, due) ← t.bound spec i.owesExit
  if due then some (afterBound d bounded l false)
  else match t.record.attempt with
    | some _ =>
      if i.hostLive then some (d, l, .stop)
      else do
        let (t, _) ← t.finishScript spec { outcome := .canceled, cause := .lifecycle }
          (some "lost command-step host")
        some (d.persist t, l, .again)
    | none =>
      if (t.record.recheckAt.any fun at_ => t.now < at_) ∧ ¬t.record.wait.any Wait.isHold then
        let t := if t.record.held.isNone then t.edit fun r =>
            { r with wait := r.wait.map fun w => { w with last := t.now, count := w.count + 1 } }
          else t
        some (d.persist t, l, .stop)
      else do
        match ← prepareNode spec d t i l with
        | .decided d l decision => some (d, l, decision)
        | .pass t l launchError => do
          let t := { t with now := i.launchAt }
          let (bounded, due) ← t.bound spec i.owesExit
          if due then some (afterBound d bounded l true)
          else publish spec d t me i l launchError

/-- The held session's part of `prepare`. -/
def prepareHeld : Option UntilStep :=
  if t.record.held.isSome then untilPrepare spec d t me i l.seen else some (.pass d t)

def prepare : Option (Disk × Local × Decision) := do
  let t : Transition := { record := d.record, now := i.now }
  if t.record.state ≠ .active then some (d, l, .stop)
  else
    let l := if l.admission.capacity.any fun (seq, node, _) =>
        seq ≠ t.record.nextSeq || node ≠ t.record.node then l.dropCapacity else l
    match ← prepareHeld spec d t me i l with
    | .decided d seen decision => some (d, { l with seen }, decision)
    | .pass d t =>
      if t.record.attempt.any fun a => a.kind = .agent then do
        let (d, _, decision) ← prepareEnd spec d t me i
        some (d, l, decision)
      else prepareOn spec d t me i l

end Prepare

/-- How a process goes on after a section. -/
inductive Next where
  | stop
  | advance
  | finish (record : RunRecord) (reason : Option String)

section Results
variable (spec : WorkflowSpec) (d : Disk) (me : Host) (i : Reading)

/-- The edit a check's or judge's result makes, and whether it is asked again. -/
def finishEvaluation (t : Transition) (attempt : LiveAttempt) (result : Evaluation) :
    Option (Transition × Bool) :=
  if attempt.kind = .judge then t.finishJudge spec attempt.seq result
  else (t.finishCheck spec attempt.seq result.object).map fun t => (t, false)

/-- The edit of a result that no bound overtook: a check woken meanwhile is asked again at once. -/
def takeResult (t : Transition) (record : RunRecord) (attempt : LiveAttempt) (seen : List String)
    (result : Evaluation) : Option (Transition × List String × Bool) := do
  let woken := t.record.attempt.any LiveAttempt.woken
  let (t, retry) ← finishEvaluation spec t attempt result
  let seen := if retry then seen.filter (· ≠ record.node) else seen
  if woken && t.record.wait.isSome then
    some (t.edit fun r =>
      { r with recheckAt := none, wait := r.wait.map fun w => { w with recheckAt := none } },
      seen.filter (· ≠ record.node), true)
  else some (t, seen, false)

/-- The section of `advance` that takes the result of an evaluation. -/
def evaluated (record : RunRecord) (seen : List String) (result : Evaluation) :
    Option (Disk × List String × Next) := do
  let attempt ← record.attempt
  let t : Transition := { record := d.record, now := i.now }
  if !t.current attempt.seq then some (d, seen, .stop)
  else do
    let (bounded, due) ← t.bound spec i.owesExit
    let (t, seen, rechecked) ← (if due then some (bounded, seen, false)
      else takeResult spec t record attempt seen result)
    let waiting := t.record.wait.isSome && !rechecked && !t.record.hasPendingVerdict
    some (d.persist t, seen,
      if t.record.state ≠ .active ∨ waiting then .stop else .advance)

/-- How a command step's child ended. -/
inductive CommandEnd where
  | passed
  | failed (reason : String)
  | interrupted

/-- The section of `command_step`. -/
def commandEnded (record : RunRecord) (result : CommandEnd) : Option (Disk × Next) := do
  let attempt ← record.attempt
  let t : Transition := { record := d.record, now := i.now }
  if !t.current attempt.seq then some (d, .stop)
  else do
    let (ending, reason) : Ending × Option String := match result with
      | .passed => ({ outcome := .ended, cause := .lifecycle }, none)
      | .failed reason => ({ outcome := .died, cause := .lifecycle }, some reason)
      | .interrupted =>
        if t.record.deadlineDue t.now then ({ outcome := .canceled, cause := .deadline }, none)
        else if (timeoutAt spec t.record).any fun at_ => at_ ≤ t.now then
          ({ outcome := .timeout, cause := .timeout }, none)
        else ({ outcome := .canceled, cause := .lifecycle }, none)
    let (t, _) ← t.finishScript spec ending reason
    some (d.persist t, if t.record.state = .active then .advance else .stop)

structure LaunchFailure where
  outcome : AttemptOutcome
  reason : String

/-- The staged end of a failed launch. -/
def failedLaunchEnding (record : RunRecord) (now : Timestamp) (failure : LaunchFailure) :
    Ending where
  outcome := failure.outcome
  cause := .lifecycle
  route := (record.restart.filter fun r => r.resume.isSome).map fun _ =>
    ⟨record.node, record.enteredAt, some now, "@user",
      .object [("outcome", .string "died"), ("reason", .string failure.reason)], .invalid⟩

/-- The end of the section of `agent::launch`: the process owns the stop of the attempt. -/
def ownEnd (d : Disk) (t : Transition) (reason : Option String) : Disk × Next :=
  let t := t.editAttempt fun a => { a with host := me }
  (d.persist t, .finish t.record reason)

/-- The staging of a failed launch, unless an ending is staged already. -/
def stageFailed (t : Transition) (record : RunRecord) (failure : LaunchFailure) :
    Option Transition :=
  if t.record.attempt.any fun a => a.ending.isNone then
    t.stageAgentEnd (failedLaunchEnding record t.now failure) none
  else some t

/-- The section of `agent::launch` after the host answered. -/
def launched (record : RunRecord) (result : Except LaunchFailure AttemptRun) :
    Option (Disk × Next) := do
  let attempt ← record.attempt
  let t : Transition := { record := d.record, now := i.now }
  if !t.current attempt.seq then some (d, .stop)
  else
    let t := if record.restart.isSome ∧ t.record.restart = record.restart then
        t.edit fun r => { r with restart := none }
      else t
    match result with
    | .ok run => do
      let t := t.editAttempt fun a => { a with run := some run }
      let d := d.persist t
      if t.record.attempt.any fun a => a.ending.isNone then do
        let (d, t, decision) ← prepareEnd spec d t me i
        match decision with
        | .again => some (d, .advance)
        | .end_ _ => some (ownEnd me d t none)
        | _ => some (d, .stop)
      else some (ownEnd me d t none)
    | .error failure => do
      let t ← stageFailed t record failure
      some (ownEnd me d t (some failure.reason))

def detaches (attempt : LiveAttempt) : Option Bool := do
  let ending ← attempt.ending
  let step ← spec.steps[attempt.node]?
  some (step.keep && ending.cause = .lifecycle
    && ending.route.all fun route => route.reason ≠ .cap ∨ route.target ≠ "@user")

/-- The section of `agent::finish` after the stop. `orphan` is the run found for an attempt without
one. -/
def finished (record : RunRecord) (reason : Option String) (orphan : Option AttemptRun) :
    Option (Disk × Next) := do
  let attempt ← record.attempt
  let detached ← detaches spec attempt
  let t : Transition := { record := d.record, now := i.now }
  if !t.current attempt.seq || t.record.attempt.all fun a => a.host ≠ attempt.host then
    some (d, .stop)
  else do
    let now ← t.record.attempt
    if detached && !(← detaches spec now) then some (d, .finish t.record reason)
    else do
      let t := t.editAttempt fun a => { a with run := attempt.run.or orphan }
      let t ← t.settleAgent spec reason
      some (d.persist t,
        if t.record.state = .active && t.record.wait.isNone then .advance else .stop)

/-- The section of `until::push` after the host queued the message. -/
def pushed (record : RunRecord) (queued : Bool) : Option (Disk × Next) := do
  let attempt ← record.attempt
  let push ← attempt.push
  let t : Transition := { record := d.record, now := i.now }
  if !queued || !t.current attempt.seq then some (d, .stop)
  else match (t.record.attempt.bind LiveAttempt.push).filter fun p => p.message = push.message with
    | none => some (d, .stop)
    | some live =>
      if live.queued then some (d, .advance)
      else
        let t := t.editAttempt fun a => { a with push := some { live with queued := true } }
        some (d.persist t, .advance)

end Results

section Commands
variable (spec : WorkflowSpec) (d : Disk) (me : Host) (i : Reading)

/-- Whether a process is at work on the attempt's launch or stop. -/
def busy (attempt : LiveAttempt) : Bool :=
  (attempt.ending.isSome || attempt.run.isNone) && i.hostLive

def observe (attempt : LiveAttempt) : Observed := if attempt.run.isSome then i.observed else {}

/-- The row of a judged turn whose staged close a cancel replaces. -/
def interruptEnding (t : Transition) (attempt : LiveAttempt) : Option Transition :=
  match attempt.ending.bind Ending.route with
  | some verdict => t.turnEnd attempt .interrupted (some verdict) (some "cancel")
  | none => some t

/-- The interrupt of a held session, if there is one. -/
def interruptHeld (t : Transition) (reason : String) : Option Transition :=
  if t.record.held.isSome then t.interrupt reason else some t

/-- `cancel` of a live agent attempt. -/
def cancelAgent (t : Transition) (attempt : LiveAttempt) (reason : Option String) :
    Option (Disk × Next) :=
  if busy i attempt && attempt.ending.any fun e => e.cause = .cancel then some (d, .stop)
  else do
    let t ← interruptEnding t attempt
    let t ← t.stageAgentEnd { outcome := .canceled, cause := .cancel, reason }
      (observe i attempt).ask
    if busy i attempt then some (d.persist t, .stop)
    else
      let t := t.editAttempt fun a => { a with host := me }
      some (d.persist t, .finish t.record none)

def cancel (reason : Option String) : Option (Disk × Next) :=
  if d.record.state.isTerminal then some (d, .stop)
  else do
    let t : Transition := { record := d.record, now := i.now }
    let t ← interruptHeld t "cancel"
    let t := t.closeWait
    match t.record.attempt.filter fun a => a.kind = .agent with
    | some attempt => cancelAgent d me i t attempt reason
    | none => do
      let t := t.edit fun r => { r with restart := none }
      let (t, settled) ← t.finishScript spec { outcome := .canceled, cause := .cancel, reason } none
      some (d.persist (if settled then t else t.cancelRun reason), .stop)

/-- The settled attempt that a continued restart of a parked run stops once more. -/
def revived (r : RunRecord) (step : Step) (me : Host) : Option LiveAttempt := do
  let previous ← r.prevAttempt
  let runId ← previous.runId
  let handle ← previous.handle
  if r.attempt.isNone ∧ r.state = .parked ∧ previous.step = r.node then
    some { kind := .agent, lifecycle := step.lifecycle, seq := previous.seq, node := previous.step,
           visit := some previous.visit, startedAt := previous.startedAt, host := me,
           run := some ⟨runId, handle⟩ }
  else none

/-- The request of a restart, and the settled attempt it takes back to stop once more. -/
def Transition.requestRestart (t : Transition) (step : Step) (me : Host)
    (resume : Option (Nat × AgentSessionId)) : Transition :=
  let t := t.edit fun r => { r with restart := some ⟨resume.map Prod.snd, none⟩ }
  match if resume.isSome then revived t.record step me else none with
  | some attempt => t.edit fun r =>
      { r with restart := some ⟨resume.map Prod.snd, some attempt.seq⟩, attempt := some attempt,
               state := .active, park := none }
  | none => t

/-- `restart`. `resume` is the attempt and session that `--continue` preflighted. -/
def restart (resume : Option (Nat × AgentSessionId)) : Option (Disk × Next) := do
  let t : Transition := { record := d.record, now := i.now }
  let session := t.record.sessionAttempt
  let node := (session.map LiveAttempt.node).getD t.record.node
  let step ← spec.steps[node]?
  if t.record.state.isTerminal
      ∨ (session.bind LiveAttempt.ending).any (fun e => e.cause = .cancel)
      ∨ step.kind ≠ some .agent
      ∨ (resume.any fun (seq, _) => (session.map LiveAttempt.seq).or
          ((t.record.prevAttempt.filter fun p =>
            t.record.state = .parked ∧ p.step = t.record.node).map PreviousAttempt.seq) ≠ some seq)
      ∨ t.record.restart.isSome then none
  else do
    let continued := resume.isSome
    let t ← interruptHeld t "restart"
    let t := t.requestRestart step me resume
    match t.record.attempt with
    | some attempt => do
      let t ← t.stageAgentEnd { outcome := .canceled, cause := .restart continued }
        (observe i attempt).ask
      if busy i attempt then some (d.persist t, .stop)
      else
        let t := t.editAttempt fun a => { a with host := me }
        some (d.persist t, .finish t.record none)
    | none => some (d.persist (t.restartStep node continued), .stop)

/-- A grant of `resume --extend`. -/
inductive Grant where
  | visits (n : Nat)
  | deadline (at_ : Timestamp)

def grant (r : RunRecord) : Grant → RunRecord
  | .visits n => { r with visitGrant := r.visitGrant + n }
  | .deadline at_ => { r with deadline := some at_, deadlineFired := false }

/-- A parked run goes on, at another node if asked; a spent visit cap starts over. -/
def Transition.unpark (t : Transition) (at_ : Option String) : Transition :=
  let t := if t.record.park.any fun p => p.reason = .cap then t.resetVisits t.record.node "cap"
    else t
  t.closeWait.edit fun r =>
    { r with node := at_.getD r.node, enteredAt := t.now, checkRetry := 0,
             checkRetryContext := none, park := none, state := .active }

def resume (at_ : Option String) (extend : List Grant) : Option Disk :=
  let t : Transition := { record := d.record, now := i.now }
  if t.record.state.isTerminal
      ∨ (at_.any fun node => !spec.checks.contains node && !spec.steps.contains node)
      ∨ (t.record.state = .active ∧ (at_.isSome ∨ extend = [])) then none
  else
    let t := t.edit fun r => extend.foldl grant r
    let t := if t.record.state = .parked then t.unpark at_ else t
    some (d.persist (t.push none (.resume t.record.visitGrant t.record.deadline)))

/-- `wake` of one run by a signal, `subscribed` when the node's check delivers it. -/
def wake (signal : String) (subscribed : Bool) : Disk :=
  let t : Transition := { record := d.record, now := i.now }
  if t.record.state = .active ∧ spec.checks.contains t.record.node ∧ subscribed then
    let t := t.edit fun r =>
      { r with recheckAt := none, attempt := r.attempt.map fun a => { a with woken := true },
               held := r.held.map fun h => { h with attempt := { h.attempt with woken := true } },
               wait := r.wait.map fun w => { w with recheckAt := none } }
    d.persist (t.push none (.wake signal))
  else d

/-- `reassign_task` of one run. -/
def reassignTask (task : Option String) : Disk := { d with record := { d.record with task } }

end Commands

end Rimz.Workflow
