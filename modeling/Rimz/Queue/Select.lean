import Rimz.Queue.Message

/-!
# Queue selection

The read-only half of `store/message.rs`: which record a card delivers next, which ones travel with
it in one paste, and which records a submitted prompt acknowledges.
-/

namespace Rimz.Queue
open Rimz.Lib

def gateOpen : DeliveryGate → AgentStatus → Bool
  | .done, .idle | .done, .success | .done, .sleeping => true
  | .any, .idle | .any, .success | .any, .sleeping | .any, .failed => true
  | .resume, .paused => true
  | _, _ => false

/-- `min_by` on the message id: the first of the least. -/
def minById : List MessageRecord → Option MessageRecord
  | [] => none
  | m :: ms => some (ms.foldl (fun best x => if x.messageId < best.messageId then x else best) m)

/-- `max_by_key` on the message id: the last of the greatest. -/
def maxById : List MessageRecord → Option MessageRecord
  | [] => none
  | m :: ms => some (ms.foldl (fun best x => if best.messageId ≤ x.messageId then x else best) m)

section Lanes
variable (limits : Limits)

def queueHead (pending : List MessageRecord) (card : AgentCardRef) (now : Timestamp) :
    Option MessageRecord :=
  minById <| pending.filter fun m =>
    m.status == .queued && m.gate != .resume && m.sameCard card && m.isDeliverable limits now

def holdsBoundary (m : MessageRecord) (now : Timestamp) : Bool :=
  m.softCompact != some .wrapUp
    && (m.status.isOpen
      || (m.status == .sent && m.body == .prompt && !m.sentHoldExpired limits now))

def inFlightClaim (pending : List MessageRecord) (card : AgentCardRef) (now : Timestamp) :
    Option MessageRecord :=
  pending.find? fun m =>
    holdsBoundary limits m now && m.gate != .resume && m.sameCard card
      && (m.status == .sent || (m.status == .claimed && !claimExpired m.lastAttemptAt now))

def freshBoundaryBlocker (pending : List MessageRecord) (card : AgentCardRef) (now : Timestamp) :
    Option MessageRecord :=
  (queueHead limits pending card now).or (inFlightClaim limits pending card now)

def sameDeliveryLane : DeliveryGate → DeliveryGate → Bool
  | .resume, queued => queued == .resume
  | .done, queued | .any, queued => queued != .resume

def batchCompatible (head candidate : MessageRecord) (status : AgentStatus) : Bool :=
  candidate.batchable && candidate.batchKey == head.batchKey && candidate.force == head.force
    && gateOpen candidate.gate status

/-- A typing hold on the record is still open. -/
def typingHeld (m : MessageRecord) (now : Timestamp) : Bool :=
  m.typingHold.any fun hold => now < hold.until_

/-- The loop of `delivery_batch_indices` over the records behind the head, with their indices: other
lanes are skipped, the first record of the lane that cannot travel ends the batch. -/
def batchFollowers (head : MessageRecord) (status : AgentStatus) (now : Timestamp) :
    Nat → List MessageRecord → List Nat
  | _, [] => []
  | index, candidate :: rest =>
    if candidate.status.isOpen && candidate.sameCard head.cardRef
        && sameDeliveryLane head.gate candidate.gate && candidate.isDeliverable limits now then
      if !claimExpired candidate.lastAttemptAt now || typingHeld candidate now
          || !batchCompatible head candidate status then []
      else index :: batchFollowers head status now (index + 1) rest
    else batchFollowers head status now (index + 1) rest

def deliveryBatchIndices (live : List MessageRecord) (targetId : MessageId) (status : AgentStatus)
    (now : Timestamp) : Option (List Nat) :=
  match live.findIdx? fun m => m.messageId == targetId with
  | none => none
  | some headIndex =>
    match live[headIndex]? with
    | none => none
    | some head =>
      if head.status != .queued || !head.isDeliverable limits now || typingHeld head now
          || !claimExpired head.lastAttemptAt now
          || (live.take headIndex).any fun m =>
            holdsBoundary limits m now && m.sameCard head.cardRef
              && sameDeliveryLane head.gate m.gate
              && (m.status == .sent || m.isDeliverable limits now)
      then none
      else if !head.batchable || head.gate == .resume then some [headIndex]
      else
        some (headIndex
          :: batchFollowers limits head status now (headIndex + 1) (live.drop (headIndex + 1)))

end Lanes

def parseSenderHandle (sender : List Char) : Option (List Char) :=
  let accept (handle : List Char) : Option (List Char) :=
    if handle ≠ [] ∧ handle.any isWhitespace = false then some handle else none
  match splitOncePat " (".toList sender with
  | none => accept sender
  | some (handle, label) =>
    if label.getLast? = some ')' then
      let label := label.dropLast
      if label = [] ∨ label.any (fun c => isWhitespace c || c == '(' || c == ')') = true then none
      else accept handle
    else none

/-- The text a record's header takes off the front of its section. -/
def dropHeader (sender : MessageSender) (body : List Char) : Option (List Char) :=
  match sender with
  | .agent .. => attributed "Type: AGENT_MESSAGE\nFrom: @"
  | .subagent .. => attributed "Type: SUBAGENT_REPORT\nFrom: @"
  | .harness notice =>
    dropLeading ("Type: " ++ notice.headerType ++ "\nFrom: @rimz\nContent:\n").toList body
  | .human => dropLeading "Type: USER_MESSAGE\nFrom: @user\nContent:\n".toList body
  | .system => some body
where
  attributed (lead : String) : Option (List Char) :=
    match dropLeading lead.toList body with
    | none => none
    | some rest =>
      match splitOncePat "\nContent:\n".toList rest with
      | none => none
      | some (handle, text) => (parseSenderHandle handle).map fun _ => text

/-- `align_submitted_prompt_from`: the trimmed sections of the records and the text left over. -/
def alignSubmittedPromptFrom (first : Bool) (remaining : List Char) :
    List MessageRecord → Option (List (List Char) × List Char)
  | [] => none
  | record :: rest =>
    match dropHeader record.sender remaining with
    | none => none
    | some body =>
      let body := if first then trimStart body else body
      let text := if first then trimStart record.text.toList else record.text.toList
      let expected := if rest = [] then trimEnd text else text
      if expected = [] then none
      else
        match dropLeading expected body with
        | none => none
        | some afterText =>
          let section_ := trim (remaining.take (remaining.length - afterText.length))
          if rest = [] then some ([section_], afterText)
          else
            match dropLeading "\n\n".toList afterText with
            | none => none
            | some afterJoin =>
              (alignSubmittedPromptFrom false afterJoin rest).map fun p => (section_ :: p.1, p.2)

def nonemptyTrimmed (text : List Char) : Option (List Char) :=
  if trim text = [] then none else some (trim text)

/-- Where the first record's section may begin; `none` for a system record, which must open the
paste. -/
def anchorOf : MessageSender → Option String
  | .agent .. => some "Type: AGENT_MESSAGE\nFrom: @"
  | .subagent .. => some "Type: SUBAGENT_REPORT\nFrom: @"
  | .harness notice => some ("Type: " ++ notice.headerType ++ "\nFrom: @rimz\nContent:\n")
  | .human => some "Type: USER_MESSAGE\nFrom: @user\nContent:\n"
  | .system => none

def alignSubmittedPrompt (prompt : List Char) (records : List MessageRecord) :
    Option (Option (List Char) × List (List Char) × Option (List Char)) :=
  match records with
  | [] => none
  | record :: _ =>
    let prompt := trim prompt
    match anchorOf record.sender with
    | none =>
      match alignSubmittedPromptFrom true prompt records with
      | some (sections, []) => some (none, sections, none)
      | _ => none
    | some anchor =>
      (matchSplits anchor.toList 0 [] prompt).findSome? fun split =>
        (alignSubmittedPromptFrom true split.2 records).map fun p =>
          (nonemptyTrimmed split.1, p.1, nonemptyTrimmed p.2)

def sameSubmittedBatch (first candidate : MessageRecord) : Bool :=
  if first.messageId = candidate.messageId then true
  else
    match first.batchId with
    | some batchId => candidate.batchId == some batchId
    | none =>
      first.lastSentAt.isSome && candidate.batchId.isNone && candidate.lastSentAt == first.lastSentAt

/-- The `oldest_sent_batch` closure of `confirm_delivered_for_card_with`, as the ids it selects. -/
def oldestSentBatch (limits : Limits) (live : List MessageRecord) (card : AgentCardRef)
    (body : MessageBody) (now : Timestamp) : List MessageId :=
  let pool := live.filter fun m => m.status == .sent && m.body == body && m.sameCard card
  let current := pool.find? fun first =>
    body != .prompt || pool.any fun m =>
      !m.sentHoldExpired limits now
        && (m.messageId == first.messageId || (first.batchId.isSome && m.batchId == first.batchId))
  match current.or pool.head? with
  | none => []
  | some oldest =>
    (pool.filter fun m =>
      m.messageId == oldest.messageId || (oldest.batchId.isSome && m.batchId == oldest.batchId)).map
      MessageRecord.messageId

end Rimz.Queue
