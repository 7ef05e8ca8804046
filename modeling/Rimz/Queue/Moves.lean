import Rimz.Queue.Effects

/-!
# What a transaction does to one record

`Move` says once what a transaction can do to the status and the two counters of a live record, and
`Entered` with what it puts a new one into the queue. The loop of `apply_all` is read off the update
it is handed: `UpdateOk` is what every update of the store is shown to do to its record.
-/

namespace Rimz.Queue
open Rimz.Lib

def QueueFiles.ids (files : QueueFiles) : List MessageId := idsOf files.live ++ idsOf files.history

/-- The id a transaction may put into the queue. -/
def Txn.introduces (t : Txn) (env : Env) (files : QueueFiles) (id : MessageId) : Prop :=
  match t with
  | .queueMessage m _ | .queueResumingMessage m _ | .queueStillQueuedNotice _ m _
  | .queueClaimedMessage m _ _ => id = m.messageId
  | .queueMessageOnce m _ => id = m.messageId ∧ id ∉ files.ids
  | .queueTailMessage m _ | .queueBoundaryMessage m _ _ =>
    id = ((QueueTxn.new files).atTail m.toMessageRecord env.tailId).messageId
  | _ => False

/-- The reconcile cap a transaction is called with. -/
def Txn.cap : Txn → Option Nat
  | .reconcileStaleMessages _ _ maxAttempts => some maxAttempts
  | _ => none

/-- The batch claim finds the record behind its target under an expired claim. -/
def Txn.Retakes (t : Txn) (env : Env) (files : QueueFiles) (m : MessageRecord) : Prop :=
  match t with
  | .claimDeliveryBatch id _ now =>
    m.status = .claimed ∧ claimExpired m.lastAttemptAt now = true
      ∧ ∃ target ∈ files.live, target.messageId = id ∧ Waiting env.limits target now m
  | _ => False

/-- The transaction puts a new record into the queue under the id. -/
def Txn.Enqueues (t : Txn) (env : Env) (files : QueueFiles) (id : MessageId) : Prop :=
  t.introduces env files id ∨ ∃ k, id = env.noticeId k

section Moves
variable (t : Txn) (env : Env) (files : QueueFiles)

/-- What a transaction does to the status and the counters of a live record. -/
inductive Move (m m' : MessageRecord) : Prop where
  | rest : m'.status = m.status → m'.attempts = m.attempts →
    m'.unconfirmedSends = m.unconfirmedSends → Move m m'
  | claim : m.status = .queued → m'.status = .claimed → m'.attempts = satSucc m.attempts →
    m'.unconfirmedSends = m.unconfirmedSends → Move m m'
  | retake : t.Retakes env files m → m'.status = .claimed → m'.attempts = satSucc m.attempts →
    m'.unconfirmedSends = m.unconfirmedSends → Move m m'
  | send : m'.status = .sent → m'.attempts = m.attempts →
    m'.unconfirmedSends = m.unconfirmedSends → Move m m'
  | release : m.status = .claimed → m'.status = .queued → m'.attempts = m.attempts - 1 →
    m'.unconfirmedSends = m.unconfirmedSends → Move m m'
  | retry : m.status.isOpen = true → m'.status = .queued → m'.attempts = m.attempts →
    m.attempts < maxDeliveryAttempts → m'.unconfirmedSends = m.unconfirmedSends → Move m m'
  | resend (cap : Nat) : t.cap = some cap → m.body = .prompt → m.status = .sent →
    m'.status = .queued → m'.attempts = m.attempts → m.unconfirmedSends < cap →
    m'.unconfirmedSends = satSucc m.unconfirmedSends → Move m m'

/-- The record after a move: the same message. -/
structure Moved (m m' : MessageRecord) : Prop where
  messageId : m'.messageId = m.messageId
  body : m'.body = m.body
  move : Move t env files m m'

/-- A record as it enters the queue, claimed or not. -/
structure Entered (m' : MessageRecord) : Prop where
  enqueued : t.Enqueues env files m'.messageId
  confirmed : m'.unconfirmedSends = 0
  attempts : (m'.status = .queued ∧ m'.attempts = 0) ∨ (m'.status = .claimed ∧ m'.attempts = 1)

/-- Every record of the list entered or moved. -/
def AllMoved (live : List MessageRecord) : Prop :=
  ∀ m' ∈ live, Entered t env files m' ∨ ∃ m ∈ files.live, Moved t env files m m'

variable {t env files}

lemma Moved.refl (m : MessageRecord) : Moved t env files m m := ⟨rfl, rfl, .rest rfl rfl rfl⟩

/-- What a rewrite that is no move leaves as it is. -/
def MessageRecord.standing (m : MessageRecord) :
    MessageId × MessageBody × MessageStatus × Nat × Nat × Option Timestamp :=
  (m.messageId, m.body, m.status, m.attempts, m.unconfirmedSends, m.lastAttemptAt)

lemma Moved.of_rest {m m'} (h : m'.standing = m.standing) : Moved t env files m m' := by
  simp only [MessageRecord.standing, Prod.mk.injEq] at h
  obtain ⟨id, body, status, attempts, unconfirmed, -⟩ := h
  exact ⟨id, body, .rest status attempts unconfirmed⟩

lemma AllMoved.refl : AllMoved t env files files.live := fun m hm => .inr ⟨m, hm, .refl m⟩

lemma AllMoved.mono {live live'} (h : AllMoved t env files live) (sub : ∀ m ∈ live', m ∈ live) :
    AllMoved t env files live' := fun m hm => h m (sub m hm)

lemma AllMoved.upsert {q : QueueTxn} {m'} (h : AllMoved t env files q.live)
    (hm : Entered t env files m' ∨ ∃ m ∈ files.live, Moved t env files m m') :
    AllMoved t env files (q.upsert m').live := by
  intro x hx
  cases mem_upsertBy hx with
  | inl e => exact e ▸ hm
  | inr hx => exact h x hx

lemma NewMessage.entered (m : NewMessage) {m'}
    (h : (m'.status, m'.attempts, m'.unconfirmedSends) = (m.status, m.attempts, m.unconfirmedSends))
    (hid : t.introduces env files m'.messageId) : Entered t env files m' := by
  simp only [Prod.mk.injEq] at h
  obtain ⟨status, attempts, unconfirmed⟩ := h
  exact ⟨.inl hid, unconfirmed.trans m.confirmed,
    .inl ⟨status.trans m.isQueued, attempts.trans m.unattempted⟩⟩

lemma NewMessage.entered_atTail (m : NewMessage)
    (hid : t.introduces env files ((QueueTxn.new files).atTail m.toMessageRecord env.tailId).messageId) :
    Entered t env files ((QueueTxn.new files).atTail m.toMessageRecord env.tailId) := by
  obtain ⟨id, e⟩ := atTail_eq (.new files) m.toMessageRecord env.tailId
  refine m.entered ?_ hid
  rw [e]

lemma Entered.claimed {m'} (h : Entered t env files m') (queued : m'.status = .queued)
    (now : Timestamp) : Entered t env files (claimRecord m' now) := by
  refine ⟨h.enqueued, h.confirmed, .inr ⟨rfl, ?_⟩⟩
  cases h.attempts with
  | inl h => simp [claimRecord, h.2, satSucc, u32Max]
  | inr h => simp [queued] at h

lemma AllMoved.upsertClaimed {q : QueueTxn} {m'} (h : AllMoved t env files q.live)
    (hm : Entered t env files m') (queued : m'.status = .queued) (now : Timestamp) :
    AllMoved t env files (q.upsertClaimed m' now).1.live := by
  intro x hx
  rcases (upsertClaimed_claim q m' now).2 x hx with rfl | rfl | hx
  · exact .inl (hm.claimed queued now)
  · exact .inl hm
  · exact h x hx

lemma AllMoved.terminalize {m status session reason now} :
    AllMoved t env files ((QueueTxn.new files).terminalize m status session reason now).1.live := by
  refine AllMoved.refl.mono fun x hx => ?_
  simp only [QueueTxn.terminalize, close_live] at hx
  split at hx
  · exact List.mem_of_mem_eraseP hx
  · exact hx

lemma AllMoved.claimIndices {now indices} (hn : indices.Nodup)
    (h : ∀ i ∈ indices, ∀ m, files.live[i]? = some m → Moved t env files m (claimRecord m now)) :
    AllMoved t env files ((QueueTxn.new files).claimIndices now indices).1.live := by
  intro x hx
  rcases mem_claimIndices now indices _ x hx with hx | hx
  · exact .inr ⟨x, hx, .refl x⟩
  rw [claimIndices_claimed now hn] at hx
  obtain ⟨i, hi, e⟩ := mem_filterMap.mp hx
  obtain ⟨m, hm, rfl⟩ := map_eq_some_iff.mp e
  exact .inr ⟨m, mem_of_getElem? hm, h i hi m hm⟩

/-! ### The updates -/

variable (t env files) in
/-- What every update function handed to `apply_all` does to one record. -/
structure UpdateOk (update : MessageRecord → MessageRecord × MessageUpdate) (m : MessageRecord) :
    Prop where
  messageId : (update m).1.messageId = m.messageId
  keep : (update m).2 = .keep → (update m).1 = m
  live : m.status.isTerminal = false → (update m).1.status.isTerminal = false
  final : ∀ status reason, (update m).2 = .finalize status reason → status.isTerminal = true
  stamp : ∀ t, (update m).1.lastAttemptAt = some t → m.lastAttemptAt = some t
  moved : (∀ status reason, (update m).2 ≠ .finalize status reason) →
    Moved t env files m (update m).1

namespace UpdateOk
variable {update : MessageRecord → MessageRecord × MessageUpdate} {m m' : MessageRecord}

lemma of_keep (h : update m = (m, .keep)) : UpdateOk t env files update m := by
  constructor <;> simp [h, Moved.refl]

lemma of_finalize {status reason} (h : update m = (m', .finalize status reason))
    (ht : status.isTerminal = true) (hid : m'.messageId = m.messageId := by rfl)
    (hl : m.status.isTerminal = false → m'.status.isTerminal = false := by exact fun h => h)
    (hs : ∀ t, m'.lastAttemptAt = some t → m.lastAttemptAt = some t := by exact fun _ h => h) :
    UpdateOk t env files update m := by
  constructor <;> simp [h, hid]
  · exact hl
  · exact ht
  · exact hs

lemma of_rewrite {u} (h : update m = (m', u)) (hl : m'.status.isTerminal = false)
    (hs : ∀ t, m'.lastAttemptAt = some t → m.lastAttemptAt = some t := by exact fun _ h => h)
    (hm : Moved t env files m m' := by exact .of_rest rfl) (hk : u ≠ .keep := by simp)
    (hf : ∀ status reason, u ≠ .finalize status reason := by simp) : UpdateOk t env files update m := by
  constructor <;> simp [h, hm.messageId]
  · exact fun e => absurd e hk
  · exact fun _ => hl
  · exact fun status reason e => absurd e (hf status reason)
  · exact hs
  · exact fun _ => hm

end UpdateOk

/-- One turn of the `apply_all` loop. -/
lemma applyStep_spec {update m} (h : UpdateOk t env files update m) (session : String)
    (now : Timestamp) (acc : QueueTxn × List MessageRecord) :
    let r := (QueueTxn.applyStep session now update acc m).1
    (r.ids).Perm (acc.1.ids ++ [m.messageId])
      ∧ (∀ x ∈ r.live, x ∈ acc.1.live
          ∨ x = (update m).1 ∧ ∀ status reason, (update m).2 ≠ .finalize status reason)
      ∧ (AllTerminal acc.1.history → AllTerminal r.history)
      ∧ (r.liveChanged = false →
          acc.1.liveChanged = false ∧ r.live = acc.1.live ++ [m] ∧ r.history = acc.1.history) := by
  obtain ⟨hid, hkeep, -, hfinal, -, -⟩ := h
  rcases hu : update m with ⟨m', u⟩
  rw [hu] at hid hkeep hfinal
  simp only at hid hkeep hfinal
  have ids : (QueueTxn.ids { acc.1 with live := acc.1.live ++ [m'] }).Perm
    (acc.1.ids ++ [m.messageId]) := by
    simp only [QueueTxn.ids, idsOf_append, idsOf_cons, idsOf_nil, append_assoc, hid]
    exact List.Perm.append_left _ perm_append_comm
  cases u with
  | keep =>
    obtain rfl := hkeep rfl
    simp only [QueueTxn.applyStep, hu]
    exact ⟨ids, by simp, id, fun h => ⟨h, trivial, trivial⟩⟩
  | silentRewrite | rewrite method reason =>
    simp only [QueueTxn.applyStep, hu]
    exact ⟨ids, by simp, id, fun h => absurd h (by simp)⟩
  | finalize status reason =>
    simp only [QueueTxn.applyStep, hu]
    refine ⟨?_, fun x hx => .inl hx, ?_, fun h => absurd h (by simp)⟩
    · simp [QueueTxn.ids, hid]
    · intro ht x hx
      rcases mem_append.mp hx with hx | hx
      · exact ht x hx
      · rw [mem_singleton.mp hx, normalizeTerminal_status]
        exact hfinal status reason rfl

/-- The whole `apply_all` loop from any point of it. -/
lemma applyFold_spec {update} (session : String) (now : Timestamp) (ms : List MessageRecord)
    (h : ∀ m ∈ ms, UpdateOk t env files update m) (acc : QueueTxn × List MessageRecord) :
    let r := (ms.foldl (QueueTxn.applyStep session now update) acc).1
    (r.ids).Perm (acc.1.ids ++ idsOf ms)
      ∧ (∀ x ∈ r.live, x ∈ acc.1.live ∨ ∃ m ∈ ms,
          x = (update m).1 ∧ ∀ status reason, (update m).2 ≠ .finalize status reason)
      ∧ (AllTerminal acc.1.history → AllTerminal r.history)
      ∧ (r.liveChanged = false →
          acc.1.liveChanged = false ∧ r.live = acc.1.live ++ ms ∧ r.history = acc.1.history) := by
  induction ms generalizing acc with
  | nil => simp
  | cons m ms ih =>
    obtain ⟨i1, l1, t1, c1⟩ := applyStep_spec (h m (by simp)) session now acc
    obtain ⟨i2, l2, t2, c2⟩ :=
      ih (fun x hx => h x (by simp [hx])) (QueueTxn.applyStep session now update acc m)
    refine ⟨?_, ?_, fun ht => t2 (t1 ht), ?_⟩
    · refine i2.trans ?_
      have := i1.append_right (idsOf ms)
      simpa using this
    · intro x hx
      rcases l2 x hx with hx | ⟨y, hy, e⟩
      · exact (l1 x hx).imp_right fun e => ⟨m, by simp, e⟩
      · exact .inr ⟨y, by simp [hy], e⟩
    · intro hc
      obtain ⟨c, l, r⟩ := c2 hc
      obtain ⟨c', l', r'⟩ := c1 c
      exact ⟨c', by simp [l, l'], r.trans r'⟩

lemma applyAll_spec {update session now instant}
    (h : ∀ m ∈ files.live, UpdateOk t env files update m) :
    Effect [] [] instant (.new files) ((QueueTxn.new files).applyAll session now update).1
      ∧ AllMoved t env files ((QueueTxn.new files).applyAll session now update).1.live := by
  obtain ⟨i, l, t, c⟩ :=
    applyFold_spec session now files.live h ({ QueueTxn.new files with live := [] }, [])
  have live : ∀ x ∈ ((QueueTxn.new files).applyAll session now update).1.live, ∃ m ∈ files.live,
      x = (update m).1 ∧ ∀ status reason, (update m).2 ≠ .finalize status reason :=
    fun x hx => (l x hx).resolve_left not_mem_nil
  refine ⟨⟨?_, ?_, t, ?_, ?_⟩, fun x hx => ?_⟩
  · simp only [append_nil]
    refine i.trans ?_
    simp [QueueTxn.ids, QueueTxn.new]
  · intro hl x hx
    obtain ⟨m, hm, rfl, -⟩ := live x hx
    exact (h m hm).live (hl m hm)
  · intro hc
    obtain ⟨c', l', r'⟩ := c hc
    exact ⟨c', l'.trans (nil_append _), r'⟩
  · intro x hx t ht
    obtain ⟨m, hm, rfl, -⟩ := live x hx
    exact .inr ⟨m, hm, (h m hm).stamp t ht⟩
  · obtain ⟨m, hm, rfl, stays⟩ := live x hx
    exact .inr ⟨m, hm, (h m hm).moved stays⟩

/-- Updates that close nothing keep the ids in place. -/
lemma idsOf_applyAll {update} {q : QueueTxn} {session now}
    (hid : ∀ m : MessageRecord, (update m).1.messageId = m.messageId)
    (hf : ∀ m status reason, (update m).2 ≠ .finalize status reason) :
    idsOf (q.applyAll session now update).1.live = idsOf q.live := by
  have main : ∀ (ms : List MessageRecord) (acc : QueueTxn × List MessageRecord),
      idsOf (ms.foldl (QueueTxn.applyStep session now update) acc).1.live
        = idsOf acc.1.live ++ idsOf ms := by
    intro ms
    induction ms with
    | nil => simp
    | cons m ms ih =>
      intro acc
      have e : idsOf (QueueTxn.applyStep session now update acc m).1.live
          = idsOf acc.1.live ++ [m.messageId] := by
        have h1 := hid m
        have h2 := hf m
        rcases hu : update m with ⟨m', u⟩
        rw [hu] at h1 h2
        cases u with
        | finalize status reason => exact absurd rfl (h2 status reason)
        | _ => simpa [QueueTxn.applyStep, hu] using h1
      rw [foldl_cons, ih, e]
      simp
  exact main q.live ({ q with live := [] }, [])

lemma failDelivery_ok {update m disposition error now} (isOpen : m.status.isOpen = true)
    (h : update m = failDelivery disposition error now m) : UpdateOk t env files update m := by
  cases disposition with
  | terminal => exact .of_finalize h rfl rfl (fun _ => rfl) (fun _ ht => ht)
  | retry =>
    simp only [failDelivery] at h
    split at h
    · exact .of_finalize h rfl rfl (fun _ => rfl) (by simp)
    · rename_i below
      exact .of_rewrite h rfl (by simp) ⟨rfl, rfl, .retry isOpen rfl rfl (Nat.lt_of_not_le below) rfl⟩

lemma stampAfterConditions_nil {now indices cs} (h : (stampAfterConditions now indices cs).2 = []) :
    (stampAfterConditions now indices cs).1 = cs := by
  induction indices generalizing cs with
  | nil => rfl
  | cons index indices ih =>
    simp only [stampAfterConditions] at h ⊢
    split at h <;> rename_i e
    · simpa only [e] using ih h
    · split at h <;> rename_i e'
      · simpa only [e, e', if_true] using ih h
      · exact absurd h (by simp)

lemma stampWhenConditions_nil {now indices cs} (h : (stampWhenConditions now indices cs).2 = []) :
    (stampWhenConditions now indices cs).1 = cs := by
  induction indices generalizing cs with
  | nil => rfl
  | cons index indices ih =>
    simp only [stampWhenConditions] at h ⊢
    split at h <;> rename_i e
    · simpa only [e] using ih h
    · split at h <;> rename_i e'
      · simpa only [e, e', if_true] using ih h
      · exact absurd h (by simp)

lemma applySweepUpdate_ok {update m sweep now} (hq : m.status = .queued)
    (h : update m = applySweepUpdate sweep now m) : UpdateOk t env files update m := by
  have hlive : m.status.isTerminal = false := by rw [hq]; rfl
  simp only [applySweepUpdate] at h
  split at h
  · exact .of_finalize h rfl
  split at h
  · rename_i e
    split at h
    · exact .of_rewrite h hlive
    · refine .of_keep (h.trans ?_)
      rw [stampAfterConditions_nil e.1, stampWhenConditions_nil e.2]
  · exact .of_rewrite h hlive

lemma settleWrapUp_ok {update now agents m} (hs : m.status = .sent)
    (h : update m = ((settleWrapUp env now agents m).1, (settleWrapUp env now agents m).2.1)) :
    UpdateOk t env files update m := by
  have hlive : m.status.isTerminal = false := by rw [hs]; rfl
  simp only [settleWrapUp] at h
  split at h
  · exact .of_rewrite h hlive
  · split at h
    all_goals exact .of_finalize h rfl

/-- A stale write is held, closed, or, below the cap and a prompt, put back. -/
lemma reconcileSent_ok {update now cap agents ingress m} (hcap : t.cap = some cap)
    (hs : m.status = .sent) (h : update m = ((reconcileSent env now cap agents ingress m).1,
      (reconcileSent env now cap agents ingress m).2.1)) :
    UpdateOk t env files update m := by
  have hlive : m.status.isTerminal = false := by rw [hs]; rfl
  simp only [reconcileSent] at h
  split at h
  · exact settleWrapUp_ok hs h
  split at h
  · exact .of_rewrite h hlive
  split at h
  · exact .of_rewrite h hlive
  split at h
  · exact .of_rewrite h hlive
  split at h
  · exact .of_finalize h rfl
  rename_i resends
  split at h
  · rename_i below
    refine .of_rewrite h rfl (by simp [MessageRecord.requeue])
      ⟨rfl, rfl, .resend cap hcap ?_ hs rfl rfl below rfl⟩
    cases body : m.body with
    | prompt => rfl
    | command => exact absurd (by simp [body, MessageBody.resendsUnconfirmed]) resends
  · exact .of_finalize h rfl

/-- Reconciling any record. -/
lemma reconcileMessage_ok {update now cap agents ingress m} (hcap : t.cap = some cap)
    (h : update m = ((reconcileMessage env now cap agents ingress m).1,
      (reconcileMessage env now cap agents ingress m).2.1)) :
    UpdateOk t env files update m := by
  simp only [reconcileMessage] at h
  split at h
  · cases hc : claimExpired (if m.status = .claimed then m.lastAttemptAt else some m.updatedAt) now with
    | false =>
      simp only [hc, Bool.not_false, if_true] at h
      exact .of_keep h
    | true =>
      simp only [hc, Bool.not_true, false_eq_true, if_false] at h
      exact .of_finalize h rfl
  split at h
  · exact .of_finalize h rfl
  split at h
  · exact .of_finalize h rfl
  split at h
  · -- An expired claim is requeued, or abandoned at the attempt cap.
    rename_i lapsed
    have isOpen : m.status.isOpen = true := by rw [lapsed.1]; rfl
    by_cases ha : maxDeliveryAttempts ≤ m.attempts
    · simp only [failDelivery, MessageRecord.requeue, ha, if_true] at h
      exact .of_finalize h rfl rfl (fun _ => rfl) (by simp)
    · simp only [failDelivery, MessageRecord.requeue, ha, if_false] at h
      exact .of_rewrite h rfl (by simp) ⟨rfl, rfl, .retry isOpen rfl rfl (Nat.lt_of_not_le ha) rfl⟩
  split at h
  · exact .of_keep h
  split at h
  · exact .of_keep h
  · rename_i hs _
    exact reconcileSent_ok hcap (by simpa using hs) h

lemma claimed_of_holds {claim m} (h : holds claim m = true) : m.status = .claimed := by
  simp only [holds, and_eq_true, beq_iff_eq] at h
  exact h.1.1.2

/-- A record a claim holds goes back to the queue and gives its attempt back. -/
lemma Moved.released {claim m m'} (h : holds claim m = true)
    (id : m'.messageId = m.messageId := by rfl)
    (body : m'.body = m.body := by rfl) (queued : m'.status = .queued := by rfl)
    (attempts : m'.attempts = m.attempts - 1 := by rfl)
    (unconfirmed : m'.unconfirmedSends = m.unconfirmedSends := by rfl) : Moved t env files m m' :=
  ⟨id, body, .release (claimed_of_holds h) queued attempts unconfirmed⟩

end Moves

end Rimz.Queue
