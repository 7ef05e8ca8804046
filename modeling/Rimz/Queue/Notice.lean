import Rimz.Queue.Operations

/-!
# Sender notices and the commit

`store/message/sender_notice.rs`, and `Store::commit_queue`: a message that ends undelivered queues
a notice to the agent that sent it, in the same transaction.
-/

namespace Rimz.Queue
open Rimz.Lib

def resolveSender (sender : MessageSender) (agents : List AgentRow) : Option AgentRow :=
  match sender with
  | .agent kind agentId name _ _ channel =>
    let cards := agents.filter fun agent =>
      agent.endedAt.isNone && agent.kind == kind
        && match agentId with
          | some id => agent.answersTo id
          | none => name.isSome && agent.name == name
    match cards with
    | [] => none
    | [card] => some card
    | cards => channel.bind fun lane => cards.find? fun agent => agent.channel == some lane
  | _ => none

def receiverLabel (record : MessageRecord) : String :=
  record.address.getD (record.agentName.elim record.agentId fun name => "@" ++ name)

/-- `sender_notice::undelivered`. -/
def undeliveredText (limits : Limits) (record : MessageRecord) (closeReason : Option String) :
    String :=
  let receiver := receiverLabel record
  let status := if record.status = .timedOut then "timed out" else record.status.asStr
  let reason :=
    (match record.status with
      | .archived | .expired => record.lastError
      | _ => closeReason).elim "" fun reason => "Reason: " ++ reason ++ "\n"
  let lastWrite := record.lastSentAt.elim "" fun t => "; last write " ++ limits.showTimestamp t
  let preview := String.ofList
    ((record.text.toList.take 80).map fun ch => if isWhitespace ch then ' ' else ch)
  "Message " ++ record.messageId.asStr ++ " to " ++ receiver ++ " ended " ++ status ++ ".\n" ++
    reason
    ++ "Tried: " ++ toString record.attempts ++ " claims; " ++ toString record.unconfirmedSends
    ++ " unconfirmed writes" ++ lastWrite ++ ".\nText: " ++ preview
    ++ "\nThe text was not delivered. Check the receiver with `rimz agents show " ++ receiver
    ++ "` and decide whether to resend."

/-- `MessageRecord::new_for_card` at an instant, with the id it mints. -/
def newForCard (id : MessageId) (now : Timestamp) (workspaceId : WorkspaceId) (kind : AgentKind)
    (agentId : AgentSessionId) (agentName : Option String) (text : String) (enter : Bool)
    (gate : DeliveryGate) : NewMessage where
  messageId := id
  workspaceId := workspaceId
  kind := kind
  agentId := agentId
  agentName := agentName
  address := none
  channel := none
  sender := .human
  automated := false
  replyWait := false
  body := .prompt
  text := text
  enter := enter
  gate := gate
  force := false
  paneId := none
  status := .queued
  enqueuedAt := now
  updatedAt := now
  registerBy := none
  attempts := 0
  unconfirmedSends := 0
  lastAttemptAt := none
  lastSentAt := none
  lastError := none
  deliveredAt := none
  notBefore := none
  after := []
  when_ := []
  retryAfter := none
  typingHold := none
  queuedNoticeAt := none
  autoCompact := none
  softCompact := none
  compactedContextTokens := none
  idleSince := none
  batchId := none
  isQueued := rfl
  unattempted := rfl
  unclaimed := rfl
  unsent := rfl
  confirmed := rfl

/-- `sender_notice::compose`. -/
def composeNotice (env : Env) (id : MessageId) (senderCard : AgentRow) (notice : HarnessNotice)
    (text : String) : NewMessage :=
  let base := newForCard id env.clock env.workspaceId senderCard.kind senderCard.agentId
    senderCard.name text true .done
  { base with channel := senderCard.channel, sender := .harness notice }

/-- The notice loop of `commit_queue`; `k` counts the ids minted so far. -/
def queueNotices (env : Env) :
    Nat → List (MessageRecord × Option String × String) → QueueTxn → QueueTxn
  | _, [], q => q
  | k, (record, reason, sessionName) :: rest, q =>
    match resolveSender record.sender env.agents with
    | none => queueNotices env k rest q
    | some sender =>
      let notice := composeNotice env (env.noticeId k) sender .messageUndelivered
        (undeliveredText env.limits record reason)
      queueNotices env (k + 1) rest
        ((q.stageEvent ⟨notice.toMessageRecord, sessionName, .queued, none⟩).upsert
          notice.toMessageRecord)

/-- `commit_queue` around the edit `f`: open, edit, add the notices, write. -/
def commitQueue {α : Type*} (env : Env) (files : QueueFiles) (f : QueueTxn → QueueTxn × α) :
    QueueFiles × α :=
  let edited := f (QueueTxn.new files)
  let noticed := queueNotices env 0 edited.1.undelivered { edited.1 with undelivered := [] }
  (noticed.finish files, edited.2)

end Rimz.Queue
