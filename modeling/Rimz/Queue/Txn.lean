import Mathlib.Data.List.Sort
import Rimz.Lib.Keyed
import Rimz.Queue.Select

/-!
# Queue transactions

`QueueTxn` of `store/writer/queue.rs`: the live queue read under the workspace lock, the edits every
operation is made of, and `commit_queue`, which adds the sender notices and writes the files.
-/

namespace Rimz.Queue
open Rimz.Lib

inductive MessageEventMethod where
  | queued
  | edited
  | afterMet
  | whenMet
  | sent
  | delivered
  | timedOut
  | errored
  | canceled
  | abandoned
  | expired
  | archived
  deriving DecidableEq

def MessageEventMethod.forTerminalStatus : MessageStatus → Option MessageEventMethod
  | .queued | .claimed | .sent => none
  | .delivered => some .delivered
  | .timedOut => some .timedOut
  | .errored => some .errored
  | .canceled => some .canceled
  | .abandoned => some .abandoned
  | .expired => some .expired
  | .archived => some .archived

/-- What `EventEnvelope::message_event` is built from. -/
structure MessageEvent where
  message : MessageRecord
  sessionName : String
  method : MessageEventMethod
  reason : Option String

/-- The files a queue transaction works on: the live queue, the terminal history in append order and
the message events of the log. -/
structure QueueFiles where
  live : List MessageRecord
  history : List MessageRecord
  events : List MessageEvent

/-- What a transaction reads of the world: the clock, the agent snapshot, the hook frames not yet
applied (kind and stamp), and what `MessageId::new` returns in `at_tail` and for each notice. -/
structure Env where
  clock : Timestamp
  agents : List AgentRow
  limits : Limits
  pendingIngress : List (AgentKind × Timestamp)
  workspaceId : WorkspaceId
  tailId : MessageId
  noticeId : Nat → MessageId

inductive MessageUpdate where
  | keep
  | silentRewrite
  | rewrite (method : MessageEventMethod) (reason : Option String)
  | finalize (status : MessageStatus) (reason : Option String)
  deriving DecidableEq

structure QueueTxn where
  live : List MessageRecord
  history : List MessageRecord
  undelivered : List (MessageRecord × Option String × String)
  events : List MessageEvent
  liveChanged : Bool

/-- The search of `QueueTxn::get` and of `upsert`. -/
def findId (id : MessageId) (live : List MessageRecord) : Option MessageRecord :=
  live.find? fun m => m.messageId == id

/-- The claim stamp `claim_indices` puts on one record. -/
def claimRecord (message : MessageRecord) (now : Timestamp) : MessageRecord :=
  { message with
    status := .claimed, attempts := satSucc message.attempts, lastAttemptAt := some now,
    lastError := none, retryAfter := none, updatedAt := now }

def normalizeTerminal (message : MessageRecord) (status : MessageStatus) (now : Timestamp)
    (reason : Option String) : MessageRecord :=
  let message := { message with status := status, updatedAt := now }
  let message :=
    if (status = .archived ∨ status = .expired ∨ (status = .canceled ∧ message.idleSince.isSome))
        ∧ reason.isSome then
      { message with lastError := reason }
    else message
  if status = .delivered then { message with deliveredAt := some now, lastError := none }
  else message

namespace QueueTxn

def new (files : QueueFiles) : QueueTxn := ⟨files.live, [], [], [], false⟩

def get (q : QueueTxn) (id : MessageId) : Option MessageRecord := findId id q.live

def upsert (q : QueueTxn) (message : MessageRecord) : QueueTxn :=
  { q with live := upsertBy MessageRecord.messageId message q.live, liveChanged := true }

def stageEvent (q : QueueTxn) (event : MessageEvent) : QueueTxn :=
  { q with events := q.events ++ [event] }

/-- `QueueTxn::claim_indices`. An index past the end panics in the source; no caller passes one. -/
def claimIndices (q : QueueTxn) (now : Timestamp) : List Nat → QueueTxn × List MessageRecord
  | [] => (q, [])
  | index :: indices =>
    match q.live[index]? with
    | none => claimIndices q now indices
    | some message =>
      let claimed := claimRecord message now
      let rest := claimIndices { q with live := q.live.set index claimed, liveChanged := true } now
        indices
      (rest.1, claimed :: rest.2)

def upsertClaimed (q : QueueTxn) (message : MessageRecord) (now : Timestamp) :
    QueueTxn × Option MessageRecord :=
  let q := q.upsert message
  match q.live.findIdx? fun m => m.messageId == message.messageId with
  | none => (q, none)
  | some index =>
    let claimed := q.claimIndices now [index]
    (claimed.1, claimed.2.getLast?)

def atTail (q : QueueTxn) (message : MessageRecord) (newId : MessageId) : MessageRecord :=
  match maxById (q.live.filter fun m => m.sameCard message.cardRef) with
  | some last =>
    if newId ≤ last.messageId then { message with messageId := last.messageId.successor }
    else { message with messageId := newId }
  | none => { message with messageId := newId }

def close (q : QueueTxn) (message : MessageRecord) (status : MessageStatus) (sessionName : String)
    (reason : Option String) (now : Timestamp) : QueueTxn × MessageRecord :=
  let message := normalizeTerminal message status now reason
  let undelivered :=
    if message.wantsUndeliveredNotice then q.undelivered ++ [(message, reason, sessionName)]
    else q.undelivered
  -- Every caller passes a terminal status, so the `expect` on the method never fires.
  let events := (MessageEventMethod.forTerminalStatus status).elim q.events fun method =>
    q.events ++ [⟨message, sessionName, method, reason⟩]
  ({ q with undelivered, history := q.history ++ [message], events }, message)

def terminalize (q : QueueTxn) (message : MessageRecord) (status : MessageStatus)
    (sessionName : String) (reason : Option String) (now : Timestamp) : QueueTxn × MessageRecord :=
  let q :=
    if q.live.any fun m => m.messageId == message.messageId then
      { q with live := q.live.eraseP fun m => m.messageId == message.messageId, liveChanged := true }
    else q
  q.close message status sessionName reason now

/-- One turn of the `apply_all` loop: the transaction so far, the records reported so far. -/
def applyStep (sessionName : String) (now : Timestamp)
    (update : MessageRecord → MessageRecord × MessageUpdate)
    (acc : QueueTxn × List MessageRecord) (message : MessageRecord) :
    QueueTxn × List MessageRecord :=
  match update message with
  | (m, .keep) => ({ acc.1 with live := acc.1.live ++ [m] }, acc.2)
  | (m, .silentRewrite) =>
    ({ acc.1 with live := acc.1.live ++ [m], liveChanged := true }, acc.2 ++ [m])
  | (m, .rewrite method reason) =>
    ({ acc.1 with
        live := acc.1.live ++ [m], liveChanged := true,
        events := acc.1.events ++ [⟨m, sessionName, method, reason⟩] }, acc.2 ++ [m])
  | (m, .finalize status reason) =>
    let closed := { acc.1 with liveChanged := true }.close m status sessionName reason now
    (closed.1, acc.2 ++ [closed.2])

def applyAll (q : QueueTxn) (sessionName : String) (now : Timestamp)
    (update : MessageRecord → MessageRecord × MessageUpdate) : QueueTxn × List MessageRecord :=
  q.live.foldl (applyStep sessionName now update) ({ q with live := [] }, [])

def finalizeMatching (q : QueueTxn) (status : MessageStatus) (sessionName reason : String)
    (now : Timestamp) (select : MessageRecord → Bool) : QueueTxn × List MessageRecord :=
  q.applyAll sessionName now fun m =>
    if select m then (m, .finalize status (some reason)) else (m, .keep)

/-- `QueueTxn::finish`: the queue is rewritten sorted when it changed, the closed records go to the
history and the events to the log. -/
def finish (q : QueueTxn) (files : QueueFiles) : QueueFiles where
  live :=
    if q.liveChanged then q.live.insertionSort fun a b => a.messageId ≤ b.messageId else files.live
  history := files.history ++ q.history
  events := files.events ++ q.events

end QueueTxn

end Rimz.Queue
