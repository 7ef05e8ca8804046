import Rimz.Workflow.Engine
import Rimz.Workflow.Validate

/-!
# The processes of one run

Any number of processes work on one run: advances, cancels, restarts, resumes and wakes. Each act is
one section under the workspace lock or the start, the wait or the death of a process; a run of the
system is any list of acts. What a section reads outside the record comes with its act, so an act
list stands for every schedule, every clock and every answer.
-/

namespace Rimz.Workflow
open Std

/-- Where a process stands between two sections. An end is driven by an advance, which goes on with
what it carries, or by a cancel or restart, which does not. -/
inductive Proc where
  | idle
  | ready (l : Local)
  | evaluating (record : RunRecord) (l : Local)
  | stepping (record : RunRecord) (l : Local)
  | launching (record : RunRecord) (prompt : Except String Unit) (l : Local)
  | pushing (record : RunRecord) (l : Local)
  | ending (record : RunRecord) (reason : Option String) (l : Option Local)
  | evicting (record : RunRecord) (l : Local)
  | asking (seq : Nat) (node : String) (l : Local)

/-- The run on disk, its processes, and the sequence numbers handed to new attempts so far. -/
structure World where
  disk : Disk
  procs : Host → Proc
  handed : List Nat

inductive Act where
  | advance
  | prepare (i : Reading)
  | evaluated (i : Reading) (result : Evaluation)
  | commandEnded (i : Reading) (result : CommandEnd)
  | launched (i : Reading) (result : Except LaunchFailure AttemptRun)
  | pushed (i : Reading) (queued : Bool)
  | finished (i : Reading) (orphan : Option AttemptRun)
  | evicted (error : Option String)
  | answered (answer : CapacityAnswer)
  | cancel (i : Reading) (reason : Option String)
  | restart (i : Reading) (resume : Option (Nat × AgentSessionId))
  | resume (i : Reading) (at_ : Option String) (extend : List Grant)
  | wake (i : Reading) (signal : String) (subscribed : Bool)
  | reassign (task : Option String)
  | die

/-- Where a decision takes an advance. -/
def Decision.proc (spec : WorkflowSpec) (l : Local) : Decision → Proc
  | .stop => .idle
  | .again => .ready l
  | .evaluate record =>
    if spec.steps.contains record.node then .stepping record l else .evaluating record l
  | .launch record prompt => .launching record prompt l
  | .end_ record => .ending record none (some l)
  | .push record => .pushing record l
  | .evict record => .evicting record l
  | .askCapacity seq node => .asking seq node l

/-- The sequence number a decision hands to a new attempt. -/
def Decision.handed : Decision → List Nat
  | .evaluate record | .launch record _ => (record.attempt.map LiveAttempt.seq).toList
  | _ => []

/-- Where a process goes after a section; `none` leaves the advance loop. -/
def Next.proc (l : Option Local) : Next → Proc
  | .stop => .idle
  | .advance => (l.map Proc.ready).getD .idle
  | .finish record reason => .ending record reason l

/-- The answer of an eviction, for the next section of the advance. -/
def Local.evicted (l : Local) (record : RunRecord) (error : Option String) : Local :=
  { l with admission := { l.admission with eviction := some (record.nextSeq, record.node, error) } }

/-- The answer about capacity, for the next section of the advance. -/
def Local.answered (l : Local) (seq : Nat) (node : String) (answer : CapacityAnswer) : Local :=
  { l with admission := { l.admission with capacity := some (seq, node, answer) } }

namespace World
variable (spec : WorkflowSpec) (w : World) (p : Host)

def goto (proc : Proc) : World := { w with procs := Function.update w.procs p proc }

/-- The world after a section of a process: a section that is not written ends its process. -/
def land (l : Option Local) : Option (Disk × Next) → World
  | some (disk, next) => { w with disk }.goto p (next.proc l)
  | none => w.goto p .idle

/-- One act of process `p`. An act its process is not ready for does nothing. -/
def exec (p : Host) (act : Act) : World :=
  match act, w.procs p with
  | .advance, .idle => w.goto p (.ready {})
  | .prepare i, .ready l =>
    match prepare spec w.disk p i l with
    | some (disk, l, decision) =>
      { w with disk, handed := w.handed ++ decision.handed }.goto p (decision.proc spec l)
    | none => w.goto p .idle
  | .evaluated i result, .evaluating record l =>
    match Workflow.evaluated spec w.disk i record l.seen result with
    | some (disk, seen, next) => { w with disk }.goto p (next.proc (some { l with seen }))
    | none => w.goto p .idle
  | .commandEnded i result, .stepping record l =>
    w.land p (some l) (Workflow.commandEnded spec w.disk i record result)
  | .launched i result, .launching record prompt l =>
    let result := match prompt with
      | .ok () => result
      | .error reason => .error ⟨.died, reason⟩
    w.land p (some l) (Workflow.launched spec w.disk p i record result)
  | .pushed i queued, .pushing record l =>
    w.land p (some l) (Workflow.pushed w.disk i record queued)
  | .finished i orphan, .ending record reason l =>
    w.land p l (Workflow.finished spec w.disk i record reason orphan)
  | .evicted error, .evicting record l => w.goto p (.ready (l.evicted record error))
  | .answered answer, .asking seq node l => w.goto p (.ready (l.answered seq node answer))
  | .cancel i reason, .idle => w.land p none (Workflow.cancel spec w.disk p i reason)
  | .restart i resume, .idle => w.land p none (Workflow.restart spec w.disk p i resume)
  | .resume i at_ extend, .idle =>
    match Workflow.resume spec w.disk i at_ extend with
    | some disk => { w with disk }
    | none => w
  | .wake i signal subscribed, .idle => { w with disk := Workflow.wake spec w.disk i signal subscribed }
  | .reassign task, .idle => { w with disk := reassignTask w.disk task }
  | .die, _ => w.goto p .idle
  | _, _ => w

def run (acts : List (Host × Act)) : World := acts.foldl (fun w a => w.exec spec a.1 a.2) w

/-- `create`: the world of a new run, refused when validation reports an error. -/
def create (outside : List Issue) (task : Option String) (manual : Bool) (now : Timestamp) :
    Option World :=
  if spec.validateSpec outside = [] then
    some { disk := ⟨.create spec task manual now, []⟩, procs := fun _ => .idle, handed := [] }
  else none

/-- The attempt that a process works on outside the lock. -/
def working : Option LiveAttempt :=
  match w.procs p with
  | .evaluating record _ | .stepping record _ | .launching record _ _ | .pushing record _
  | .ending record _ _ => record.attempt
  | _ => none

end World

end Rimz.Workflow
