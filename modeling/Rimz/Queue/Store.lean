import Mathlib.Data.Prod.Lex
import Rimz.Queue.History
import Rimz.Queue.Notice

/-!
# The message store

Every transaction of `impl Store` in `store/writer/queue.rs`, and the run of one transaction on the
queue files.
-/

namespace Rimz.Queue
open Rimz.Lib

/-- What the operations return to their callers. -/
inductive Reply where
  | unit
  | flag (applied : Bool)
  | record (message : Option MessageRecord)
  | records (messages : List MessageRecord)
  | resuming (stored : Option (MessageRecord × ResumeAttempt))
  | claimed (message : Option MessageRecord)
  | boundary (claim : Option BoundaryClaim)
  | batch (messages : Option (List MessageRecord))
  | edit (outcome : EditOutcome)
  | report (report : ReconcileReport)
  | failure (headSent : Bool)
  | count (n : Nat)

/-- The claim records a reply hands to its caller. -/
def Reply.claims : Reply → List MessageRecord
  | .claimed (some message) => [message]
  | .boundary (some (.claimed message)) => [message]
  | .batch (some messages) => messages
  | _ => []

section Ops
variable (env : Env)

def queueMessage (message : MessageRecord) (session : String) (q : QueueTxn) : QueueTxn × Reply :=
  ((q.upsert message).stageEvent ⟨message, session, .queued, none⟩, .unit)

/-- `queue_message_once`; `retained` says that the live queue or the history holds the id. -/
def queueMessageOnce (files : QueueFiles) (message : MessageRecord) (session : String)
    (q : QueueTxn) : QueueTxn × Reply :=
  if (files.live ++ files.history).any fun m => m.messageId == message.messageId then (q, .unit)
  else queueMessage message session q

def rebindQueuedMessages (predecessor : AgentRow) (successor : AgentSessionId) (session : String)
    (q : QueueTxn) : QueueTxn × Reply :=
  let applied := q.applyAll session env.clock fun m =>
    if m.status ≠ .queued ∨ m.sameAgentCard predecessor = false then (m, .keep)
    else
      ({ m with agentId := successor, agentName := none, updatedAt := env.clock },
        .rewrite .edited (some "compaction continuation changed session"))
  (applied.1, .unit)

/-- The least deadline of a list of instants. -/
def minTimestamp : List Timestamp → Option Timestamp
  | [] => none
  | t :: ts => some (ts.foldl min t)

def queueResumingMessage (message : MessageRecord) (session : String) (q : QueueTxn) :
    QueueTxn × Reply :=
  if env.agents.any fun agent => agent.endedAt.isNone && message.sameAgentCard agent then
    (q, .resuming none)
  else
    let deadline := minTimestamp <|
      (q.live.filter fun waiting =>
        waiting.sameCard message.cardRef && waiting.awaitingRegistration env.agents).filterMap
        fun waiting => waiting.registerBy.filter fun t => decide (env.clock < t)
    let stored := match deadline with
      | some t => ({ message with registerBy := some t }, ResumeAttempt.joined)
      | none => (message, ResumeAttempt.started)
    ((q.upsert stored.1).stageEvent ⟨stored.1, session, .queued, none⟩, .resuming (some stored))

def queueStillQueuedNotice (stalled : MessageId) (notice : MessageRecord) (session : String)
    (q : QueueTxn) : QueueTxn × Reply :=
  let stamped := q.applyAll session env.clock fun m =>
    if m.messageId ≠ stalled ∨ m.status ≠ .queued ∨ m.queuedNoticeAt.isSome = true then (m, .keep)
    else ({ m with queuedNoticeAt := some env.clock }, .silentRewrite)
  if stamped.2 = [] then (stamped.1, .flag false)
  else ((stamped.1.upsert notice).stageEvent ⟨notice, session, .queued, none⟩, .flag true)

def queueClaimedMessage (message : MessageRecord) (session : String) (now : Timestamp)
    (q : QueueTxn) : QueueTxn × Reply :=
  let claimed := q.upsertClaimed message now
  (claimed.1.stageEvent ⟨message, session, .queued, none⟩, .claimed claimed.2)

def queueTailMessage (message : MessageRecord) (session : String) (q : QueueTxn) :
    QueueTxn × Reply :=
  let queued := q.atTail message env.tailId
  ((q.upsert queued).stageEvent ⟨queued, session, .queued, none⟩, .record (some queued))

def queueBoundaryMessage (message : MessageRecord) (session : String) (now : Timestamp)
    (q : QueueTxn) : QueueTxn × Reply :=
  let blocker := freshBoundaryBlocker env.limits
    (q.live.filter fun m => m.messageId != message.messageId) message.cardRef now
  let queued := q.atTail message env.tailId
  let event : MessageEvent := ⟨queued, session, .queued, none⟩
  let q := { q with live := q.live.filter fun m => m.messageId != message.messageId }
  match blocker with
  | some blocker =>
    ((q.upsert queued).stageEvent event, .boundary (some (.parked queued blocker.messageId)))
  | none =>
    let claimed := q.upsertClaimed queued now
    (claimed.1.stageEvent event, .boundary (claimed.2.map .claimed))

/-- `apply_delivery_sweep`. The updates are keyed by id, a later one replacing an earlier one. -/
def applyDeliverySweep (updates : List DeliverySweepUpdate) (now : Timestamp) (session : String)
    (q : QueueTxn) : QueueTxn × Reply :=
  let applied := q.applyAll session now fun m =>
    if m.status ≠ .queued then (m, .keep)
    else
      match updates.reverse.find? fun update => update.messageId == m.messageId with
      | none => (m, .keep)
      | some update => applySweepUpdate update now m
  (applied.1, .unit)

/-- What `list_history` finds of an id: it reads the newest rows, by the week of their file and then
by their id. -/
def findHistory (id : MessageId) (history : List MessageRecord) : Option MessageRecord :=
  let bucket (m : MessageRecord) := bucketDay m.updatedAt transcriptFileDays
  let newest := (sortByKey (fun m => toLex (bucket m, m.messageId)) history).reverse
  findId id (newest.take historyReadLimit)

def editMessage (files : QueueFiles) (id : MessageId) (edit : MessageEdit) (session : String)
    (q : QueueTxn) : QueueTxn × Reply :=
  match q.get id with
  | none => (q, .edit ((findHistory id files.history).elim .notFound fun m => .notOpen m.status))
  | some message =>
    if message.status ≠ .queued then (q, .edit (.notOpen message.status))
    else
      let message := { edit.apply message with retryAfter := none, updatedAt := env.clock }
      ((q.upsert message).stageEvent
        ⟨message, session, .edited, some (", ".intercalate edit.changedFields)⟩,
        .edit (.edited message))

/-- One record of `record_sent_batch`: the live copy, marked sent with the supplied pane and
batch. -/
def markSent (now : Timestamp) (supplied message : MessageRecord) : MessageRecord :=
  { message with
    paneId := supplied.paneId, batchId := supplied.batchId, status := .sent,
    lastSentAt := some now, updatedAt := now, lastError := none, typingHold := none }

/-- The loop of `record_sent_batch`. -/
def sentLoop (session : String) :
    List MessageRecord → QueueTxn → QueueTxn × List MessageRecord
  | [], q => (q, [])
  | supplied :: rest, q =>
    match q.get supplied.messageId with
    | none => sentLoop session rest q
    | some existing =>
      if existing.status = .queued ∨ existing.status = .claimed ∨ existing.status = .sent then
        let message := markSent env.clock supplied existing
        let after := sentLoop session rest
          ((q.upsert message).stageEvent ⟨message, session, .sent, none⟩)
        (after.1, message :: after.2)
      else sentLoop session rest q

def recordSentBatch (messages : List MessageRecord) (session : String) (q : QueueTxn) :
    QueueTxn × Reply :=
  let sent := sentLoop env session messages q
  (sent.1, .records sent.2)

def claimDeliveryBatch (id : MessageId) (status : AgentStatus) (now : Timestamp) (q : QueueTxn) :
    QueueTxn × Reply :=
  match deliveryBatchIndices env.limits q.live id status now with
  | none => (q, .batch none)
  | some indices =>
    let claimed := q.claimIndices now indices
    let handed :=
      match claimed.2 with
      | head :: _ :: _ => claimed.2.map fun m => { m with batchId := some head.messageId }
      | _ => claimed.2
    (claimed.1, .batch (some handed))

def claimMessageForSteer (id : MessageId) (now : Timestamp) (q : QueueTxn) : QueueTxn × Reply :=
  match q.live.findIdx? fun m => m.messageId == id && m.status == .queued with
  | none => (q, .claimed none)
  | some index =>
    if (q.live[index]?.all fun m => claimExpired m.lastAttemptAt now) = false then
      (q, .claimed none)
    else
      let claimed := q.claimIndices now [index]
      (claimed.1, .claimed claimed.2.getLast?)

def releaseMessageClaims (held : List MessageRecord) (note session : String) (q : QueueTxn) :
    QueueTxn × Reply :=
  let applied := q.applyAll session env.clock fun m =>
    if (held.any fun claim => holds claim m) = false then (m, .keep)
    else
      ({ m with
          attempts := m.attempts - 1, lastAttemptAt := none, retryAfter := none,
          autoCompact := none }.requeue env.clock note,
        .rewrite .queued (some note))
  (applied.1, .records applied.2)

/-- The rewrite `hold_message_claims` makes of a record that `claim` holds. -/
def holdRecord (note : String) (typingHold : TypingHold) (compacted : Bool)
    (claim m : MessageRecord) : MessageRecord :=
  { m.requeue env.clock note with
    paneId := claim.paneId, attempts := m.attempts - 1, lastAttemptAt := none,
    retryAfter := some typingHold.until_,
    typingHold := some (m.typingHold.elim typingHold fun previous =>
      typingHold.withReplay previous.replay previous.force),
    autoCompact := if compacted then none else m.autoCompact }

def holdMessageClaims (held : List MessageRecord) (typingHold : TypingHold) (compacted : Bool)
    (session : String) (q : QueueTxn) : QueueTxn × Reply :=
  let note := "someone is using the receiver's pane; retry at "
    ++ env.limits.showTimestamp typingHold.until_
  let applied := q.applyAll session env.clock fun m =>
    match held.find? fun claim => holds claim m with
    | none => (m, .keep)
    | some claim => (holdRecord env note typingHold compacted claim m, .rewrite .queued (some note))
  (applied.1, .records applied.2)

def recordTypingHoldReplay (id : MessageId) (replay : TypingHoldReplay) (force : Bool)
    (session : String) (q : QueueTxn) : QueueTxn × Reply :=
  match q.get id with
  | none => (q, .unit)
  | some message =>
    match message.typingHold with
    | none => (q, .unit)
    | some hold =>
      let replayed := hold.withReplay (some replay) force
      if message.status ≠ .queued ∨ replayed = hold then (q, .unit)
      else
        let message := { message with typingHold := some replayed, updatedAt := env.clock }
        ((q.upsert message).stageEvent
          ⟨message, session, .queued,
            some "live delivery requested while someone is using the receiver's pane"⟩, .unit)

def deferMessageWake (id : MessageId) (until_ : Timestamp) (blocker : BlockerUpdate)
    (q : QueueTxn) : QueueTxn × Reply :=
  match q.get id with
  | none => (q, .unit)
  | some message =>
    if message.status ≠ .queued then (q, .unit)
    else
      let lastError := match blocker with
        | .set blocker => some blocker
        | .clearOwn recognizes => message.lastError.filter fun e => !recognizes e
      (q.upsert { message with retryAfter := some until_, lastError }, .unit)

/-- The selection of `confirm_delivered_for_card_with`: the ids to settle and the reason. -/
def confirmSelection (live : List MessageRecord) (card : AgentCardRef) (ack : DeliveryAck) :
    List MessageId × Option String :=
  match ack with
  | .compaction => (oldestSentBatch env.limits live card .command env.clock, none)
  | .turnStarted prompt =>
    match prompt.filter fun p => trim p.toList != [] with
    | none => (oldestSentBatch env.limits live card .prompt env.clock, none)
    | some prompt =>
      let confirmable := live.filter fun m => m.body == .prompt && m.sameCard card && m.inFlight
      let aligned := confirmable.findSome? fun first =>
        let batch := confirmable.filter fun m => sameSubmittedBatch first m
        (alignSubmittedPrompt prompt.toList batch).map fun parts => (batch, parts)
      match aligned with
      | none => ([], none)
      | some (batch, leading, _, trailing) =>
        -- `text.len()` is the length in UTF-8 bytes.
        let stray (text : Option (List Char)) (side : String) : List String :=
          (text.elim [] fun t =>
            [toString (String.ofList t).utf8ByteSize ++ " stray bytes " ++ side])
        let parts := stray leading "before" ++ stray trailing "after"
        (batch.map MessageRecord.messageId,
          if parts = [] then none
          else some ("confirmed inside a mixed submit; " ++ ", ".intercalate parts))

def confirmDeliveredForCard (card : AgentCardRef) (ack : DeliveryAck) (session : String)
    (q : QueueTxn) : QueueTxn × Reply :=
  let selected := confirmSelection env q.live card ack
  if selected.1 = [] then (q, .records [])
  else
    let applied := q.applyAll session env.clock fun m =>
      if selected.1.contains m.messageId then (m, .finalize .delivered selected.2) else (m, .keep)
    (applied.1, .records applied.2)

def markMessageTimedOut (id : MessageId) (session : String) (reason : Option String)
    (q : QueueTxn) : QueueTxn × Reply :=
  match q.get id with
  | none => (q, .record none)
  | some message =>
    if message.status ≠ .sent then (q, .record none)
    else
      let reason := reason.getD "delivery window elapsed"
      let closed := q.terminalize { message with lastError := some reason } .timedOut session
        (some reason) env.clock
      (closed.1, .record (some closed.2))

/-- What `reconcile_stale_messages` decides about a record of the live queue. -/
def reconcileDecision (now : Timestamp) (maxAttempts : Nat) (live : List MessageRecord)
    (m : MessageRecord) : MessageRecord × MessageUpdate × ReconcileReport :=
  let staleSent := live.any fun m => m.status == .sent && m.sentHoldExpired env.limits now
  let registrationDue := live.any fun m =>
    m.status == .queued && m.registerBy.any fun t => decide (t ≤ now)
  let agents := if staleSent || registrationDue then env.agents else []
  let ingress := if staleSent then env.pendingIngress else []
  reconcileMessage env now maxAttempts agents ingress m

def reconcileStaleMessages (session : String) (now : Timestamp) (maxAttempts : Nat) (q : QueueTxn) :
    QueueTxn × Reply :=
  let decide_ := reconcileDecision env now maxAttempts q.live
  let applied := q.applyAll session now fun m => ((decide_ m).1, (decide_ m).2.1)
  (applied.1,
    .report (q.live.foldl (fun report m => report.add (decide_ m).2.2) {}))

def recordSendError (held : MessageRecord) (error session : String) (q : QueueTxn) :
    QueueTxn × Reply :=
  match q.get held.messageId with
  | none => (q, .record none)
  | some existing =>
    if holds held existing = false then (q, .record none)
    else
      let closed := q.terminalize { existing with paneId := held.paneId, lastError := some error }
        .errored session (some error) env.clock
      (closed.1, .record (some closed.2))

/-- The `head_sent` flag of a failure report: the status of the live record of that id. -/
def headSent (id : MessageId) (live : List MessageRecord) : Bool :=
  live.foldl (fun sent m => if m.messageId = id then m.status == .sent else sent) false

def recordMessageDeliveryFailures (held : List MessageRecord)
    (disposition : DeliveryFailureDisposition) (error session : String) (q : QueueTxn) :
    QueueTxn × Reply :=
  match held.head? with
  | none => (q, .failure false)
  | some head =>
    let applied := q.applyAll session env.clock fun m =>
      if (held.any fun claim => holds claim m) = false then (m, .keep)
      else failDelivery disposition error env.clock m
    (applied.1, .failure (headSent head.messageId q.live))

def recordUnheldDeliveryMiss (id : MessageId) (disposition : DeliveryFailureDisposition)
    (error session : String) (q : QueueTxn) : QueueTxn × Reply :=
  let applied := q.applyAll session env.clock fun m =>
    if m.messageId ≠ id ∨ m.status ≠ .queued then (m, .keep)
    else if m.softCompact = some .wrapUp ∧ disposition = .terminal then
      ({ m with lastError := some error }, .finalize .canceled (some error))
    else failDelivery disposition error env.clock m
  (applied.1, .failure (headSent id q.live))

/-- The shape `cancel_message` and `retire_message` share: close the live record if `admits` its
status. -/
def cancelWhen (admits : MessageStatus → Bool) (id : MessageId) (session reason : String)
    (q : QueueTxn) : QueueTxn × Reply :=
  match q.get id with
  | none => (q, .flag false)
  | some message =>
    if admits message.status then
      ((q.terminalize message .canceled session (some reason) env.clock).1, .flag true)
    else (q, .flag false)

def cancelMessage (id : MessageId) (session reason : String) : QueueTxn → QueueTxn × Reply :=
  cancelWhen env MessageStatus.isOpen id session reason

def retireMessage (id : MessageId) (session reason : String) : QueueTxn → QueueTxn × Reply :=
  cancelWhen env (fun status => !status.isTerminal) id session reason

def clearMessagesMatching (select : MessageRecord → Bool) (session : String) (q : QueueTxn) :
    QueueTxn × Reply :=
  let cleared := q.finalizeMatching .canceled session "clear" env.clock fun m =>
    m.status.isOpen && select m
  (cleared.1, .records cleared.2)

def clearMessagesFor (card : AgentCardRef) (session : String) : QueueTxn → QueueTxn × Reply :=
  clearMessagesMatching env (fun m => m.sameCard card) session

def clearChannelMessages (channel session : String) : QueueTxn → QueueTxn × Reply :=
  clearMessagesMatching env (fun m => m.channel == some channel) session

/-- The reason `archive_orphan_messages` finds to archive an open record, if any. -/
def orphanReason (liveAgents : List AgentRow) (m : MessageRecord) : Option String :=
  if (liveAgents.any fun agent => m.sameAgentCard agent) = false then some "receiver ended"
  else if m.status = .queued then
    (m.when_.find? fun c =>
      c.metAt.isNone && !(liveAgents.any fun agent => c.cardRef.matches agent.cardRef)).map
      WhenCondition.expiryReason
  else none

/-- `archive_orphan_messages`; the snapshot is read before the lock. -/
def archiveOrphanMessages (liveAgents : List AgentRow) (session : String) (q : QueueTxn) :
    QueueTxn × Reply :=
  let archived := q.applyAll session env.clock fun m =>
    if m.status.isOpen = false then (m, .keep)
    else
      match orphanReason liveAgents m with
      | none => (m, .keep)
      | some reason => (m, .finalize .archived (some reason))
  (archived.1, .count archived.2.length)

def archiveMessagesForCard (card : AgentCardRef) (enqueuedThrough : Option Timestamp)
    (reason session : String) (q : QueueTxn) : QueueTxn × Reply :=
  let archived := q.finalizeMatching .archived session reason env.clock fun m =>
    m.status.isOpen && m.sameCard card && enqueuedThrough.all fun stop => m.enqueuedAt ≤ stop
  (archived.1, .count archived.2.length)

def archiveMessagesWatchingCard (card : AgentCardRef) (enqueuedThrough : Option Timestamp)
    (session : String) (q : QueueTxn) : QueueTxn × Reply :=
  let archived := q.applyAll session env.clock fun m =>
    if m.status ≠ .queued ∨ (enqueuedThrough.any fun stop => stop < m.enqueuedAt) = true then
      (m, .keep)
    else
      match m.when_.find? fun c => c.metAt.isNone && c.cardRef.matches card with
      | none => (m, .keep)
      | some c => (m, .finalize .archived (some c.expiryReason))
  (archived.1, .count archived.2.length)

def archiveChannelMessages (channel reason session : String) (q : QueueTxn) : QueueTxn × Reply :=
  let archived := q.finalizeMatching .archived session reason env.clock fun m =>
    m.status.isOpen && m.channel == some channel
  (archived.1, .count archived.2.length)

end Ops

/-- One queue transaction, with what its caller passes. -/
inductive Txn where
  | queueMessage (message : NewMessage) (session : String)
  | queueMessageOnce (message : NewMessage) (session : String)
  | rebindQueuedMessages (predecessor : AgentRow) (successor : AgentSessionId) (session : String)
  | queueResumingMessage (message : NewMessage) (session : String)
  | queueStillQueuedNotice (stalled : MessageId) (notice : NewMessage) (session : String)
  | queueClaimedMessage (message : NewMessage) (session : String) (now : Timestamp)
  | queueTailMessage (message : NewMessage) (session : String)
  | queueBoundaryMessage (message : NewMessage) (session : String) (now : Timestamp)
  | applyDeliverySweep (updates : List DeliverySweepUpdate) (now : Timestamp) (session : String)
  | editMessage (id : MessageId) (edit : MessageEdit) (session : String)
  | recordSentBatch (messages : List MessageRecord) (session : String)
  | claimDeliveryBatch (id : MessageId) (status : AgentStatus) (now : Timestamp)
  | claimMessageForSteer (id : MessageId) (now : Timestamp)
  | releaseMessageClaims (held : List MessageRecord) (note session : String)
  | holdMessageClaims (held : List MessageRecord) (hold : TypingHold) (compacted : Bool)
      (session : String)
  | recordTypingHoldReplay (id : MessageId) (replay : TypingHoldReplay) (force : Bool)
      (session : String)
  | deferMessageWake (id : MessageId) (until_ : Timestamp) (blocker : BlockerUpdate)
  | confirmDeliveredForCard (card : AgentCardRef) (ack : DeliveryAck) (session : String)
  | markMessageTimedOut (id : MessageId) (session : String) (reason : Option String)
  | reconcileStaleMessages (session : String) (now : Timestamp) (maxAttempts : Nat)
  | recordSendError (held : MessageRecord) (error session : String)
  | recordMessageDeliveryFailures (held : List MessageRecord)
      (disposition : DeliveryFailureDisposition) (error session : String)
  | recordUnheldDeliveryMiss (id : MessageId) (disposition : DeliveryFailureDisposition)
      (error session : String)
  | cancelMessage (id : MessageId) (session reason : String)
  | retireMessage (id : MessageId) (session reason : String)
  | clearMessagesFor (card : AgentCardRef) (session : String)
  | clearChannelMessages (channel session : String)
  | clearMessagesMatching (select : MessageRecord → Bool) (session : String)
  | archiveOrphanMessages (liveAgents : List AgentRow) (session : String)
  | archiveMessagesForCard (card : AgentCardRef) (enqueuedThrough : Option Timestamp)
      (reason session : String)
  | archiveMessagesWatchingCard (card : AgentCardRef) (enqueuedThrough : Option Timestamp)
      (session : String)
  | archiveChannelMessages (channel reason session : String)

/-- The edit a transaction makes. -/
def Txn.edit (t : Txn) (env : Env) (files : QueueFiles) : QueueTxn → QueueTxn × Reply :=
  match t with
  | .queueMessage m session => Queue.queueMessage m.toMessageRecord session
  | .queueMessageOnce m session => Queue.queueMessageOnce files m.toMessageRecord session
  | .rebindQueuedMessages p s session => Queue.rebindQueuedMessages env p s session
  | .queueResumingMessage m session => Queue.queueResumingMessage env m.toMessageRecord session
  | .queueStillQueuedNotice id n session =>
    Queue.queueStillQueuedNotice env id n.toMessageRecord session
  | .queueClaimedMessage m session now => Queue.queueClaimedMessage m.toMessageRecord session now
  | .queueTailMessage m session => Queue.queueTailMessage env m.toMessageRecord session
  | .queueBoundaryMessage m session now =>
    Queue.queueBoundaryMessage env m.toMessageRecord session now
  | .applyDeliverySweep updates now session => Queue.applyDeliverySweep updates now session
  | .editMessage id edit session => Queue.editMessage env files id edit session
  | .recordSentBatch messages session => Queue.recordSentBatch env messages session
  | .claimDeliveryBatch id status now => Queue.claimDeliveryBatch env id status now
  | .claimMessageForSteer id now => Queue.claimMessageForSteer id now
  | .releaseMessageClaims held note session => Queue.releaseMessageClaims env held note session
  | .holdMessageClaims held hold compacted session =>
    Queue.holdMessageClaims env held hold compacted session
  | .recordTypingHoldReplay id replay force session =>
    Queue.recordTypingHoldReplay env id replay force session
  | .deferMessageWake id until_ blocker => Queue.deferMessageWake id until_ blocker
  | .confirmDeliveredForCard card ack session => Queue.confirmDeliveredForCard env card ack session
  | .markMessageTimedOut id session reason => Queue.markMessageTimedOut env id session reason
  | .reconcileStaleMessages session now maxAttempts =>
    Queue.reconcileStaleMessages env session now maxAttempts
  | .recordSendError held error session => Queue.recordSendError env held error session
  | .recordMessageDeliveryFailures held disposition error session =>
    Queue.recordMessageDeliveryFailures env held disposition error session
  | .recordUnheldDeliveryMiss id disposition error session =>
    Queue.recordUnheldDeliveryMiss env id disposition error session
  | .cancelMessage id session reason => Queue.cancelMessage env id session reason
  | .retireMessage id session reason => Queue.retireMessage env id session reason
  | .clearMessagesFor card session => Queue.clearMessagesFor env card session
  | .clearChannelMessages channel session => Queue.clearChannelMessages env channel session
  | .clearMessagesMatching select session => Queue.clearMessagesMatching env select session
  | .archiveOrphanMessages agents session => Queue.archiveOrphanMessages env agents session
  | .archiveMessagesForCard card stop reason session =>
    Queue.archiveMessagesForCard env card stop reason session
  | .archiveMessagesWatchingCard card stop session =>
    Queue.archiveMessagesWatchingCard env card stop session
  | .archiveChannelMessages channel reason session =>
    Queue.archiveChannelMessages env channel reason session

/-- Run one transaction on the files, under the workspace lock. -/
def Txn.run (t : Txn) (env : Env) (files : QueueFiles) : QueueFiles × Reply :=
  commitQueue env files (t.edit env files)

end Rimz.Queue
