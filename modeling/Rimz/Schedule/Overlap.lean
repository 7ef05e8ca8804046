import Rimz.Schedule.Backlog

/-!
# Overlapping fires of a loop task

The run lock and the backlog of one task with one checkout, as `TaskFire` of
`harness/schedule/runner.rs` uses them, with the drains of `harness/schedule/fire.rs`. Every section
under the backlog lock is one act, and a run is any list of acts: those of scheduled and manual
fires, of drains, of the stop ladder and of the tick.

The backlog lock, the reads and writes of the backlog and the start of a drain can fail, and the
process that holds the run lock can die at its work. A process does not die within a section.
-/

namespace Rimz.Schedule

inductive LoopRunMode where
  | scheduled
  | manual
  deriving DecidableEq

/-- The overlap settings of a `TaskEntry`. -/
structure TaskEntry where
  overlap : OverlapPolicy
  overlapLimit : Option Nat

/-- The part of `TaskFire` that the protocol reads and writes. -/
structure TaskFire where
  mode : LoopRunMode
  now : Timestamp
  signal : Option SignalRecord
  arrivedAt : Option Timestamp
  fromArrivedAt : Option Timestamp
  absorbed : Nat
  runLock : Option RunLockInfo

inductive RunLockAttempt where
  | acquired (info : RunLockInfo)
  | held (info : Option RunLockInfo)

/-- `LoopRunResult`, as far as a fire that finds the run lock held reports it. -/
inductive LoopRunResult where
  | deferred
  | overlapped
  deriving DecidableEq

/-- `TaskFireFinished` of a fire that finds the run lock held. -/
structure Overlapped where
  result : LoopRunResult
  holder : Option RunLockInfo
  error : String
  replaceHolder : Option RunLockInfo

namespace TaskFire

/-- `TaskFire::new` and `with_arrived_at`. -/
def new (mode : LoopRunMode) (now : Timestamp) (signal : Option SignalRecord)
    (arrivedAt : Option Timestamp) : TaskFire :=
  ⟨mode, now, signal, arrivedAt, none, 0, none⟩

def waitingTrigger (f : TaskFire) : WaitingTrigger :=
  ⟨f.arrivedAt.getD f.now, f.signal, f.absorbed, f.fromArrivedAt⟩

def serveTrigger (f : TaskFire) (t : WaitingTrigger) : TaskFire :=
  { f with
    absorbed := t.absorbed
    arrivedAt := some t.arrivedAt
    fromArrivedAt := t.fromArrivedAt
    signal := t.signal }

@[simp] lemma waitingTrigger_serveTrigger (f : TaskFire) (t : WaitingTrigger) :
    (f.serveTrigger t).waitingTrigger = t := rfl

/-- The mark that `prepare_run_lock` leaves for a holder it replaces, and the holder when the mark
is new. -/
def replaceMark (b : TaskBacklog) (info : RunLockInfo) : TaskBacklog × Option RunLockInfo :=
  if b.stopping.any info.matchesStop then (b, none)
  else ({ b with stopping := some ⟨info.pid, info.startedAt, .replace⟩ }, some info)

/-- The end of the `error` text of a fire that finds the run lock held. -/
def overlapSuffix (policy : OverlapPolicy) (enqueued stopping : Bool) (info : Option RunLockInfo)
    (count limit : Nat) : String :=
  if !enqueued then s!"queue full ({count}/{limit}), skipped"
  else if policy = .queue then s!"waiting (queue {count}/{limit})"
  else if stopping then "stopping it for this trigger"
  else if policy = .replace && info.isNone then "waiting (holder identity unavailable)"
  else "waiting"

def recordOverlap (info : Option RunLockInfo) : Overlapped :=
  ⟨.overlapped, info, "previous run still active — skipped", none⟩

/-- `prepare_run_lock` of a scheduled fire that finds the run lock held. `throttled` says that the
holder waits at the start gate. -/
def deferScheduled (entry : TaskEntry) (throttled : Bool) (info : Option RunLockInfo) (f : TaskFire)
    (b : TaskBacklog) : TaskBacklog × Overlapped :=
  let limit := entry.overlapLimit.getD 10
  let (enqueued, b) := b.enqueue entry.overlap (some limit) f.waitingTrigger
  let count := b.triggers.length
  let stopped := info.filter fun _ => entry.overlap = .replace && !throttled
  let (b, replaceHolder) := (stopped.map (replaceMark b)).getD (b, none)
  let suffix := overlapSuffix entry.overlap enqueued stopped.isSome info count limit
  (b, ⟨if enqueued then .deferred else .overlapped, info, s!"previous run still active — {suffix}",
    replaceHolder⟩)

/-- `prepare_run_lock` that gets the run lock: a scheduled fire enters the backlog and serves the
trigger in front. -/
def startRun (entry : TaskEntry) (info : RunLockInfo) (f : TaskFire) (b : TaskBacklog) :
    TaskFire × TaskBacklog :=
  if entry.overlap ≠ .skip && f.mode = .scheduled then
    let b := (b.enqueue entry.overlap none f.waitingTrigger).2
    match b.triggers with
    | t :: rest => ({ f.serveTrigger t with runLock := some info }, { b with triggers := rest })
    | [] => ({ f with runLock := some info }, b)
  else ({ f with runLock := some info }, b)

/-- `TaskFire::prepare_run_lock` for a fire without the run lock. -/
def prepareRunLock (entry : TaskEntry) (throttled : Bool) (attempt : RunLockAttempt) (f : TaskFire)
    (b : TaskBacklog) : (TaskFire × TaskBacklog) ⊕ (TaskBacklog × Overlapped) :=
  match attempt with
  | .acquired info => .inl (startRun entry info f b)
  | .held info =>
    if entry.overlap ≠ .skip && f.mode = .scheduled then .inr (deferScheduled entry throttled info f b)
    else .inr (b, recordOverlap info)

def takeBacklog (attempt : RunLockAttempt) (now : Timestamp) (f : TaskFire) (b : TaskBacklog) :
    Option (TaskFire × TaskBacklog) :=
  match b.triggers, attempt with
  | [], _ => none
  | _ :: _, .held _ => none
  | t :: rest, .acquired info =>
    some ({ f.serveTrigger t with runLock := some info, now := now }, { b with triggers := rest })

/-- `TaskFire::reconcile_backlog`; without a result the fire finds itself stopped and records
`Canceled`. -/
def reconcileBacklog (entry : TaskEntry) (f : TaskFire) (b : TaskBacklog) :
    Option (TaskFire × TaskBacklog) :=
  match f.runLock with
  | none => some (f, b)
  | some holder =>
    if b.stopping.any holder.matchesStop then none
    else if f.mode ≠ .scheduled || !(entry.overlap = .coalesce || entry.overlap = .replace) then
      some (f, b)
    else match b.triggers.getLast? with
      | none => some (f, b)
      | some newest =>
        let newest := (newest.absorbAll b.triggers.dropLast).absorb f.waitingTrigger
        some (f.serveTrigger newest, { b with triggers := [] })

/-- The trigger a fire serves. A manual fire serves none. -/
def serving (f : TaskFire) : List WaitingTrigger :=
  if f.mode = .scheduled then [f.waitingTrigger] else []

end TaskFire

/-- `task.stopping.take_if(|mark| holder.matches_stop(mark))`. -/
def TaskBacklog.takeMark (b : TaskBacklog) (info : RunLockInfo) : TaskBacklog :=
  if b.stopping.any info.matchesStop then { b with stopping := none } else b

/-! ### Runs -/

/-- What the system answers within one section: the backlog was locked and read, it was written, the
drain was started. -/
structure Io where
  opened : Bool
  saved : Bool
  spawned : Bool

/-- A trigger taken from the backlog to be served, and the triggers left waiting. -/
structure Service where
  trigger : WaitingTrigger
  waiting : List WaitingTrigger

/-- When the run lock was last freed, and whether the holder died or a call of its release
failed. -/
structure Freed where
  time : Nat
  faulty : Bool

/-- The backlog, the fire that has the run lock, and the history. `entered` are the triggers that
the backlog accepted, `done` those served by fires that have ended, `drains` the times at which
drains were started. -/
structure World where
  backlog : TaskBacklog
  holder : Option TaskFire
  clock : Nat
  arrivals : Nat
  refused : Nat
  failed : Nat
  entered : List WaitingTrigger
  done : List WaitingTrigger
  services : List Service
  drains : List Nat
  freed : Option Freed

/-- The sections of the processes around one task. `known` says that the holder's identity can be
read from the lock file. -/
inductive Act where
  | arrive (now : Timestamp) (signal : Option SignalRecord) (arrivedAt : Option Timestamp)
      (info : RunLockInfo) (known throttled : Bool) (io : Io)
  | manual (now : Timestamp) (info : RunLockInfo) (io : Io)
  | drain (now : Timestamp) (info : RunLockInfo) (io : Io)
  | reconcile (io : Io)
  | recordAndRelease (io : Io)
  | drop (io : Io)
  | die
  | stop (cause : StopCause) (io : Io)
  | appendStopped (info : RunLockInfo) (io : Io)
  | tick (io : Io)

namespace World

def start : World := ⟨⟨[], none⟩, none, 0, 0, 0, 0, [], [], [], [], none⟩

/-- The triggers served by fires that have ended and by the one that runs. -/
def served (w : World) : List WaitingTrigger := w.done ++ w.holder.toList.flatMap TaskFire.serving

/-- `acquire_run_lock_file`. -/
def attempt (w : World) (info : RunLockInfo) (known : Bool) : RunLockAttempt :=
  match w.holder with
  | none => .acquired info
  | some f => .held (if known then f.runLock else none)

def spawnBacklogDrain (w : World) (io : Io) : World :=
  if !w.backlog.triggers.isEmpty && io.spawned then { w with drains := w.drains ++ [w.clock] } else w

/-- The run lock of the fire `f` is freed. -/
def release (w : World) (f : TaskFire) (faulty : Bool) : World :=
  { w with holder := none, done := w.done ++ f.serving, freed := some ⟨w.clock, faulty⟩ }

/-- A scheduled fire at `prepare_run_lock`. -/
def arrive (entry : TaskEntry) (w : World) (f : TaskFire) (info : RunLockInfo)
    (known throttled : Bool) (io : Io) : World :=
  if !(io.opened && io.saved) then { w with arrivals := w.arrivals + 1, failed := w.failed + 1 }
  else match f.prepareRunLock entry throttled (w.attempt info known) w.backlog with
    | .inl (f', b) =>
      { w with
        arrivals := w.arrivals + 1, backlog := b, holder := some f'
        entered := w.entered ++ [f.waitingTrigger]
        services := w.services ++ [⟨f'.waitingTrigger, b.triggers⟩] }
    | .inr (b, finished) =>
      match finished.result with
      | .deferred =>
        { w with
          arrivals := w.arrivals + 1, backlog := b, entered := w.entered ++ [f.waitingTrigger] }
      | .overlapped => { w with arrivals := w.arrivals + 1, refused := w.refused + 1, backlog := b }

/-- A manual fire at `prepare_run_lock`; it brings no trigger. -/
def manual (entry : TaskEntry) (w : World) (f : TaskFire) (info : RunLockInfo) (io : Io) : World :=
  if !io.opened then w
  else match f.prepareRunLock entry false (w.attempt info true) w.backlog with
    | .inl (f', _) => { w with holder := some f' }
    | .inr _ => w

/-- A drain at `take_backlog`. -/
def drain (w : World) (now : Timestamp) (info : RunLockInfo) (io : Io) : World :=
  if !(io.opened && io.saved) then w
  else match (TaskFire.new .scheduled now none none).takeBacklog
    (w.attempt info true) now w.backlog with
    | some (f, b) =>
      { w with
        backlog := b, holder := some f
        services := w.services ++ [⟨f.waitingTrigger, b.triggers⟩] }
    | none => w

/-- The running fire at `reconcile_backlog`. -/
def reconcile (entry : TaskEntry) (w : World) (io : Io) : World :=
  match w.holder with
  | none => w
  | some f =>
    if !(io.opened && io.saved) then w
    else match f.reconcileBacklog entry w.backlog with
      | some (f', b) => { w with backlog := b, holder := some f' }
      | none => w

/-- The running fire at `record_and_release`. A stop mark that cannot be retired is left to the stop
ladder, with the start of the drain. -/
def recordAndRelease (w : World) (io : Io) : World :=
  match w.holder with
  | none => w
  | some f =>
    match f.runLock with
    | none => w
    | some info =>
      if !io.opened then w
      else if w.backlog.stopping.any info.matchesStop && !io.saved then w.release f true
      else
        ({ w with backlog := w.backlog.takeMark info }.spawnBacklogDrain io).release f (!io.spawned)

/-- The running fire is dropped: `release_run_lock_with`, which frees the lock whatever fails. -/
def drop (w : World) (io : Io) : World :=
  match w.holder with
  | none => w
  | some f =>
    if !io.opened then w.release f true else (w.spawnBacklogDrain io).release f (!io.spawned)

/-- The process of the running fire dies. -/
def die (w : World) : World :=
  match w.holder with
  | none => w
  | some f => w.release f true

/-- The mark of `stop_task`. -/
def stop (w : World) (cause : StopCause) (io : Io) : World :=
  match w.holder.bind TaskFire.runLock with
  | none => w
  | some info =>
    if !(io.opened && io.saved) then w
    else { w with
      backlog := { w.backlog with stopping := some ⟨info.pid, info.startedAt, cause⟩ } }

/-- `append_stopped_record`. -/
def appendStopped (w : World) (info : RunLockInfo) (io : Io) : World :=
  if !(io.opened && io.saved && w.backlog.stopping.any info.matchesStop) then w
  else { w with backlog := w.backlog.takeMark info }.spawnBacklogDrain io

/-- `tick_backlog_with`. -/
def tick (w : World) (io : Io) : World := if io.opened then w.spawnBacklogDrain io else w

def exec (entry : TaskEntry) (w : World) : Act → World
  | .arrive now signal arrivedAt info known throttled io =>
    w.arrive entry (.new .scheduled now signal arrivedAt) info known throttled io
  | .manual now info io => w.manual entry (.new .manual now none none) info io
  | .drain now info io => w.drain now info io
  | .reconcile io => w.reconcile entry io
  | .recordAndRelease io => w.recordAndRelease io
  | .drop io => w.drop io
  | .die => w.die
  | .stop cause io => w.stop cause io
  | .appendStopped info io => w.appendStopped info io
  | .tick io => w.tick io

/-- The clock counts the acts. -/
def step (entry : TaskEntry) (w : World) (act : Act) : World :=
  { w.exec entry act with clock := w.clock + 1 }

def run (entry : TaskEntry) (acts : List Act) : World := acts.foldl (step entry) start

end World

end Rimz.Schedule
