import Rimz.Queue.Txn

/-!
# Queue operations

The operations of `store/writer/queue.rs`, each as an edit of an open `QueueTxn`. What a caller
passes in is a parameter; what the operation reads of the world comes from `Env`.
-/

namespace Rimz.Queue
open Rimz.Lib

inductive DeliveryFailureDisposition where
  | retry
  | terminal
  deriving DecidableEq

inductive DeliveryAck where
  | turnStarted (prompt : Option String)
  | compaction

inductive BlockerUpdate where
  | set (blocker : String)
  | clearOwn (recognizes : String → Bool)

inductive BoundaryClaim where
  | claimed (message : MessageRecord)
  | parked (message : MessageRecord) (blocker : MessageId)

inductive ResumeAttempt where
  | started
  | joined
  deriving DecidableEq

inductive EditOutcome where
  | edited (message : MessageRecord)
  | notOpen (status : MessageStatus)
  | notFound

structure ReconcileReport where
  heldOnIngress : Nat := 0
  requeued : Nat := 0
  timedOut : Nat := 0
  abandoned : Nat := 0
  expired : Nat := 0

/-- The counters of two stretches of one reconciliation. -/
def ReconcileReport.add (a b : ReconcileReport) : ReconcileReport :=
  ⟨a.heldOnIngress + b.heldOnIngress, a.requeued + b.requeued, a.timedOut + b.timedOut,
    a.abandoned + b.abandoned, a.expired + b.expired⟩

structure MessageEdit where
  text : Option String
  gate : Option DeliveryGate
  notBefore : Option (Option Timestamp)
  force : Option Bool
  enter : Option Bool
  autoCompact : Option (Option AutoCompact)

def MessageEdit.apply (edit : MessageEdit) (m : MessageRecord) : MessageRecord :=
  let m := edit.text.elim m fun text => { m with text }
  let m := edit.gate.elim m fun gate => { m with gate }
  let m := edit.notBefore.elim m fun notBefore =>
    { m with notBefore, typingHold := if notBefore.isSome then none else m.typingHold }
  let m := edit.force.elim m fun force => { m with force }
  let m := edit.enter.elim m fun enter => { m with enter }
  edit.autoCompact.elim m fun autoCompact =>
    { m with autoCompact, compactedContextTokens := none }

def MessageEdit.changedFields (edit : MessageEdit) : List String :=
  (if edit.text.isSome then ["text"] else [])
    ++ (if edit.gate.isSome then ["gate"] else [])
    ++ (if edit.notBefore.isSome then ["schedule"] else [])
    ++ (if edit.force.isSome then ["force"] else [])
    ++ (if edit.enter.isSome then ["enter"] else [])
    ++ (if edit.autoCompact.isSome then ["smart_compact"] else [])

structure DeliverySweepUpdate where
  messageId : MessageId
  afterIndices : List Nat
  whenIndices : List Nat
  retryAfter : Option Timestamp
  archiveReason : Option String

/-- `holds`: the record a sender was handed holds the live record. -/
def holds (held live : MessageRecord) : Bool :=
  held.messageId == live.messageId && live.status == .claimed && held.attempts == live.attempts
    && held.lastAttemptAt == live.lastAttemptAt

def failDelivery (disposition : DeliveryFailureDisposition) (error : String) (now : Timestamp)
    (message : MessageRecord) : MessageRecord × MessageUpdate :=
  let message := message.requeue now error
  match disposition with
  | .terminal => (message, .finalize .errored (some error))
  | .retry =>
    let message := { message with lastAttemptAt := none }
    if maxDeliveryAttempts ≤ message.attempts then (message, .finalize .abandoned (some error))
    else (message, .silentRewrite)

/-- The loop of `stamp_after_conditions`: stamp the unmet conditions at the indices and list their
addresses. -/
def stampAfterConditions (now : Timestamp) :
    List Nat → List AfterCondition → List AfterCondition × List String
  | [], conditions => (conditions, [])
  | index :: indices, conditions =>
    match conditions[index]? with
    | none => stampAfterConditions now indices conditions
    | some c =>
      if c.metAt.isSome then stampAfterConditions now indices conditions
      else
        let rest := stampAfterConditions now indices (conditions.set index { c with metAt := some now })
        (rest.1, c.address :: rest.2)

/-- The loop of `stamp_when_conditions`. -/
def stampWhenConditions (now : Timestamp) :
    List Nat → List WhenCondition → List WhenCondition × List String
  | [], conditions => (conditions, [])
  | index :: indices, conditions =>
    match conditions[index]? with
    | none => stampWhenConditions now indices conditions
    | some c =>
      if c.metAt.isSome then stampWhenConditions now indices conditions
      else
        let rest := stampWhenConditions now indices (conditions.set index { c with metAt := some now })
        (rest.1, (c.address ++ " " ++ c.status.asStr ++ " " ++ formatDwell c.dwellSecs) :: rest.2)

def conditionStampReason (after when_ : List String) : String :=
  "; ".intercalate
    ((if after = [] then [] else [", ".intercalate after ++ " finished"])
      ++ (if when_ = [] then [] else [", ".intercalate when_ ++ " reached"]))

def applySweepUpdate (update : DeliverySweepUpdate) (now : Timestamp) (message : MessageRecord) :
    MessageRecord × MessageUpdate :=
  match update.archiveReason with
  | some reason => (message, .finalize .archived (some reason))
  | none =>
    let after := stampAfterConditions now update.afterIndices message.after
    let when_ := stampWhenConditions now update.whenIndices message.when_
    let retryChanged := update.retryAfter.isSome ∧ message.retryAfter ≠ update.retryAfter
    let message :=
      { message with
        after := after.1, when_ := when_.1,
        retryAfter := if retryChanged then update.retryAfter else message.retryAfter }
    if after.2 = [] ∧ when_.2 = [] then
      (message, if retryChanged then .silentRewrite else .keep)
    else
      ({ message with updatedAt := now },
        .rewrite (if when_.2 = [] then .afterMet else .whenMet)
          (some (conditionStampReason after.2 when_.2)))

def settleWrapUp (env : Env) (now : Timestamp) (agents : List AgentRow) (message : MessageRecord) :
    MessageRecord × MessageUpdate × ReconcileReport :=
  if agents.any fun agent => message.sameAgentCard agent && agent.holdsOpenTurn then
    ({ message with retryAfter := some (now + message.body.deliveryWindow env.limits) },
      .silentRewrite, {})
  else
    let lastSentAt := message.lastSentAt.getD message.updatedAt
    let ended := agents.any fun agent =>
      message.sameAgentCard agent && agent.turnEndedAt.any fun endedAt => lastSentAt ≤ endedAt
    if ended then
      (message, .finalize .delivered (some "soft-compaction wrap-up settled after turn end"), {})
    else
      (message, .finalize .timedOut (some "soft-compaction wrap-up unconfirmed; not resent"),
        { timedOut := 1 })

/-- The end of the `reconcile_stale_messages` closure: a `Sent` write past its deadline. -/
def reconcileSent (env : Env) (now : Timestamp) (maxAttempts : Nat) (agents : List AgentRow)
    (ingress : List (AgentKind × Timestamp)) (message : MessageRecord) :
    MessageRecord × MessageUpdate × ReconcileReport :=
  let window := message.body.deliveryWindow env.limits
  let lastSentAt := message.lastSentAt.getD message.updatedAt
  if message.softCompact = some .wrapUp then settleWrapUp env now agents message
  else if agents.any message.heldByCompaction then
    ({ message with retryAfter := some (now + window) }, .silentRewrite, {})
  else if ingress.any fun frame =>
      frame.1 == message.kind && decide (lastSentAt ≤ frame.2) && decide (frame.2 < lastSentAt + window)
  then
    ({ message with
        retryAfter := some (now + window),
        lastError := some "delivery held: hook drain is lagging behind the acknowledgement window" },
      .silentRewrite, { heldOnIngress := 1 })
  else if message.body.resendsUnconfirmed && agents.any fun agent =>
      message.sameAgentCard agent && agent.resumedAt.any fun resumedAt =>
        decide (resumedAt ≤ lastSentAt) && decide (now < resumedAt + window * 10)
  then ({ message with retryAfter := some (now + window) }, .silentRewrite, {})
  else if !message.body.resendsUnconfirmed then
    ({ message with lastError := some "delivery unconfirmed; command not resent" },
      .finalize .timedOut (some "reconcile"), { timedOut := 1 })
  else if message.unconfirmedSends < maxAttempts then
    ({ message with
        unconfirmedSends := satSucc message.unconfirmedSends, lastAttemptAt := none,
        retryAfter := none }.requeue now "delivery unconfirmed; re-queued",
      .rewrite .queued (some "reconcile"), { requeued := 1 })
  else
    ({ message with
        lastError :=
          some ("delivery unconfirmed after " ++ toString maxAttempts ++ " unconfirmed sends") },
      .finalize .timedOut (some "reconcile"), { timedOut := 1 })

/-- The closure of `reconcile_stale_messages`. -/
def reconcileMessage (env : Env) (now : Timestamp) (maxAttempts : Nat) (agents : List AgentRow)
    (ingress : List (AgentKind × Timestamp)) (message : MessageRecord) :
    MessageRecord × MessageUpdate × ReconcileReport :=
  if message.softCompact = some .wrapUp ∧ message.status.isOpen = true then
    let leaseStart :=
      if message.status = .claimed then message.lastAttemptAt else some message.updatedAt
    if !claimExpired leaseStart now then (message, .keep, {})
    else
      (message, .finalize .canceled (some "soft-compaction wrap-up was not sent; not retried"), {})
  else if message.expired env.limits now then
    (message,
      .finalize .expired (some ("expired: automatic command not delivered within "
        ++ formatDwell (env.limits.commandValidityMs / 1000) ++ " of queueing")),
      { expired := 1 })
  else if message.awaitingRegistration agents && message.registerBy.any fun t =>
    decide (t ≤ now) then
    let address := message.address.getD ("@" ++ message.agentName.getD message.agentId)
    (message,
      .finalize .expired (some ("expired: " ++ address ++ " did not register by "
        ++ message.registerBy.elim "" env.limits.showTimestamp)),
      { expired := 1 })
  else if message.status = .claimed ∧ claimExpired message.lastAttemptAt now = true then
    match failDelivery .retry "claim expired; sender gone" now message with
    | (m, .finalize status reason) => (m, .finalize status reason, { abandoned := 1 })
    | (m, _) => (m, .rewrite .queued (some "claim expired; sender gone"), { requeued := 1 })
  else if message.status ≠ .sent then (message, .keep, {})
  else if !message.sentHoldExpired env.limits now then (message, .keep, {})
  else reconcileSent env now maxAttempts agents ingress message

end Rimz.Queue
