import Rimz.Queue.Moves

/-!
# The specification of one edit

`EditSpec` is what the rest of the development uses of a transaction: which ids it introduces, which
it closes, what it does to statuses, counters and stamps. One lemma shows it for every operation of
the store.
-/

namespace Rimz.Queue
open Rimz.Lib

lemma QueueFiles.any_of_mem_ids (files : QueueFiles) {id} (h : id ∈ files.ids) :
    ((files.live ++ files.history).any fun m => m.messageId == id) = true := by
  rw [QueueFiles.ids, ← idsOf_append] at h
  obtain ⟨m, hm, rfl⟩ := mem_idsOf.mp h
  exact List.any_eq_true.mpr ⟨m, hm, beq_self_eq_true _⟩

/-- The instant a transaction stamps its claims with. -/
def Txn.instant : Txn → Option Timestamp
  | .queueClaimedMessage _ _ now | .queueBoundaryMessage _ _ now | .claimDeliveryBatch _ _ now
  | .claimMessageForSteer _ now => some now
  | _ => none

/-- The live record a boundary enqueue replaces: its own input. -/
def Txn.replaces (t : Txn) (id : MessageId) : Prop :=
  match t with
  | .queueBoundaryMessage m _ _ => id = m.messageId
  | _ => False

/-- What the edit of `t` leaves in the transaction it opened on `files`. -/
structure EditSpec (t : Txn) (env : Env) (files : QueueFiles) (q : QueueTxn) : Prop where
  nodup : (idsOf files.live).Nodup → q.ids.Nodup
  introduced : ∀ id ∈ q.ids, id ∈ idsOf files.live ∨ t.introduces env files id
  conserved : ∀ id ∈ idsOf files.live, id ∈ q.ids ∨ t.replaces id
  live : AllLive files.live → AllLive q.live
  terminal : AllTerminal q.history
  changed : q.liveChanged = false → q.live = files.live ∧ q.history = []
  stamps : ∀ m' ∈ q.live, ∀ instant, m'.lastAttemptAt = some instant →
    t.instant = some instant ∨ ∃ m ∈ files.live, m.lastAttemptAt = some instant
  moved : AllMoved t env files q.live

namespace EditSpec
variable {t : Txn} {env : Env} {files : QueueFiles} {q : QueueTxn}

/-- An edit that starts from records of `files` and adds ids that are not among them. -/
lemma of_edit {start added} (h : Effect [] added t.instant start q)
    (moved : AllMoved t env files q.live)
    (empty : start.history = []) (sub : start.live.Sublist files.live)
    (kept : ∀ m ∈ files.live, m ∈ start.live ∨ t.replaces m.messageId) (once : added.Nodup)
    (fresh : ∀ id ∈ added, id ∉ idsOf start.live ∧ t.introduces env files id)
    (changed : q.liveChanged = false → q.live = files.live ∧ q.history = []) :
    EditSpec t env files q := by
  have e : q.ids.Perm (idsOf start.live ++ added) := by
    simpa only [append_nil, QueueTxn.ids, empty, idsOf_nil] using h.ids
  have ids : (idsOf start.live).Sublist (idsOf files.live) := sub.map _
  refine ⟨fun hn => e.nodup_iff.mpr ?_, fun x hx => ?_, fun x hx => ?_, fun hl => h.live fun x hx =>
    hl x (sub.subset hx), h.terminal (by simp [AllTerminal, empty]), changed, fun x hx t ht => ?_,
    moved⟩
  · exact (hn.sublist ids).append once fun x hx hadd => (fresh x hadd).1 hx
  · exact (mem_append.mp (e.mem_iff.mp hx)).imp (ids.subset ·) fun hx => (fresh x hx).2
  · obtain ⟨y, hy, rfl⟩ := mem_idsOf.mp hx
    exact (kept y hy).imp_left fun hm => e.mem_iff.mpr (mem_append_left _ (mem_idsOf.mpr ⟨y, hm, rfl⟩))
  · exact (h.stamps x hx t ht).imp_right (Exists.imp fun _ => .imp_left (sub.subset ·))

lemma of_effect (h : Effect [] [] t.instant (.new files) q)
    (moved : AllMoved t env files q.live) : EditSpec t env files q :=
  of_edit h moved rfl (List.Sublist.refl _) (fun _ hm => .inl hm) nodup_nil nofun
    fun hc => (h.changed hc).2

lemma stageEvent (h : EditSpec t env files q) (e : MessageEvent) :
    EditSpec t env files (q.stageEvent e) := by
  obtain ⟨nodup, introduced, conserved, live, terminal, changed, stamps, moved⟩ := h
  exact ⟨nodup, introduced, conserved, live, terminal, changed, stamps, moved⟩

/-- The ids an upsert adds. -/
lemma added_fresh {id : MessageId} {ids : List MessageId} : (if id ∈ ids then [] else [id]).Nodup
    ∧ ∀ x ∈ if id ∈ ids then [] else [id], x ∉ ids ∧ x = id := by
  split <;> simp_all

/-- An edit that puts one id into the queue, unless it is there already. -/
lemma of_upsert {id}
    (h : Effect [] (if id ∈ idsOf files.live then [] else [id]) t.instant (.new files) q)
    (moved : AllMoved t env files q.live) (hi : id ∉ idsOf files.live → t.introduces env files id) :
    EditSpec t env files q :=
  of_edit h moved rfl (List.Sublist.refl _) (fun _ hm => .inl hm) added_fresh.1
    (fun _ hx => by obtain ⟨new, rfl⟩ := added_fresh.2 _ hx; exact ⟨new, hi new⟩) fun hc => (h.changed hc).2

/-- A new record put into the queue. -/
lemma enqueue {m} (hq : m.status = .queued) (hu : m.lastAttemptAt = none)
    (entered : Entered t env files m)
    (hi : t.introduces env files m.messageId) :
    EditSpec t env files ((QueueTxn.new files).upsert m) :=
  .of_upsert (Effect.enqueue (QueueTxn.new files) hq hu)
    (AllMoved.upsert .refl (.inl entered)) fun _ => hi

lemma refl : EditSpec t env files (.new files) := of_effect .refl .refl

lemma applyAll {session now update} (h : ∀ m ∈ files.live, UpdateOk t env files update m) :
    EditSpec t env files ((QueueTxn.new files).applyAll session now update).1 :=
  (applyAll_spec h).elim of_effect

lemma finalizeMatching {status session reason now select} (ht : status.isTerminal = true) :
    EditSpec t env files ((QueueTxn.new files).finalizeMatching status session reason now select).1 := by
  refine .applyAll fun m _ => ?_
  cases hs : select m with
  | false => exact .of_keep (if_neg (by simp [hs]))
  | true => exact .of_finalize (if_pos hs) ht

/-- A record of the queue moved to the history. -/
lemma close {id m m' status session reason now} (h : (QueueTxn.new files).get id = some m)
    (ht : status.isTerminal = true) (hid : m'.messageId = m.messageId := by rfl) :
    EditSpec t env files ((QueueTxn.new files).terminalize m' status session reason now).1 := by
  refine .of_effect (terminalize_effect ?_ ht) .terminalize
  rw [hid]
  exact mem_idsOf.mpr ⟨m, (findId_some h).1, rfl⟩

/-- A queued record rewritten in place. -/
lemma rewrite {id m m'} (h : (QueueTxn.new files).get id = some m) (hq : m.status = .queued)
    (rest : m'.standing = m.standing := by rfl) :
    EditSpec t env files ((QueueTxn.new files).upsert m') := by
  obtain ⟨hmem, -⟩ := findId_some h
  have moved : Moved t env files m m' := .of_rest rest
  simp only [MessageRecord.standing, Prod.mk.injEq] at rest
  refine .of_effect (Effect.rewrite ?_ ?_ ?_) (AllMoved.upsert .refl (.inr ⟨m, hmem, moved⟩))
  · rw [moved.messageId]
    exact mem_idsOf.mpr ⟨m, hmem, rfl⟩
  · rw [rest.2.2.1, hq]
    rfl
  · exact fun t ht => .inr ⟨m, hmem, rest.2.2.2.2.2 ▸ ht⟩

end EditSpec

lemma NewMessage.enqueue_spec {t env files} (m : NewMessage) (e : MessageEvent)
    (hi : t.introduces env files m.messageId) :
    EditSpec t env files (((QueueTxn.new files).upsert m.toMessageRecord).stageEvent e) :=
  (EditSpec.enqueue m.isQueued m.unclaimed (m.entered rfl hi) hi).stageEvent e

lemma NewMessage.atTail_queued (m : NewMessage) (q : QueueTxn) (newId : MessageId) :
    (q.atTail m.toMessageRecord newId).status = .queued
      ∧ (q.atTail m.toMessageRecord newId).lastAttemptAt = none := by
  obtain ⟨id, e⟩ := atTail_eq q m.toMessageRecord newId
  rw [e]
  exact ⟨m.isQueued, m.unclaimed⟩

/-- The record is of the queue, as it was or marked sent. -/
def SentFrom (files : QueueFiles) (m' : MessageRecord) : Prop :=
  ∃ m ∈ files.live, m'.messageId = m.messageId ∧ m'.body = m.body ∧ m'.attempts = m.attempts
    ∧ m'.unconfirmedSends = m.unconfirmedSends ∧ (m'.status = m.status ∨ m'.status = .sent)

/-- The loop of `record_sent_batch` leaves records as they are or marks them sent. -/
lemma sentLoop_spec {env files session instant q} (messages : List MessageRecord)
    (h : ∀ m' ∈ q.live, SentFrom files m') :
    Effect [] [] instant q (sentLoop env session messages q).1
      ∧ ∀ m' ∈ (sentLoop env session messages q).1.live, SentFrom files m' := by
  induction messages generalizing q with
  | nil => exact ⟨.refl, h⟩
  | cons supplied rest ih =>
    simp only [sentLoop]
    cases e : q.get supplied.messageId with
    | none => exact ih h
    | some existing =>
      obtain ⟨hmem, hid⟩ := findId_some e
      simp only
      split
      · obtain ⟨m, hm, id, body, attempts, unconfirmed, -⟩ := h existing hmem
        refine (ih ?_).imp_left (Effect.trans (Effect.stageEvent (Effect.rewrite ?_ rfl ?_) _))
        · intro x hx
          cases mem_upsertBy hx with
          | inl e => exact e ▸ ⟨m, hm, id, body, attempts, unconfirmed, .inr rfl⟩
          | inr hx => exact h x hx
        · exact mem_idsOf.mpr ⟨existing, hmem, rfl⟩
        · exact fun t ht => .inr ⟨existing, hmem, ht⟩
      · exact ih h

lemma SentFrom.allMoved {t env files live} (h : ∀ m' ∈ live, SentFrom files m') :
    AllMoved t env files live := by
  intro m' hm'
  obtain ⟨m, hm, id, body, attempts, unconfirmed, status⟩ := h m' hm'
  refine .inr ⟨m, hm, id, body, ?_⟩
  cases status with
  | inl same => exact .rest same attempts unconfirmed
  | inr sent => exact .send sent attempts unconfirmed

lemma upsertClaimed_liveChanged {q : QueueTxn} {m now} :
    (q.upsertClaimed m now).1.liveChanged = true := by
  simp only [QueueTxn.upsertClaimed]
  cases (q.upsert m).live.findIdx? fun x => x.messageId == m.messageId with
  | none => rfl
  | some index =>
    by_contra h
    have := ((claimIndices_effect [index]).changed (by simpa using h)).1
    exact absurd this (by simp [QueueTxn.upsert])

/-- The open transaction of a boundary enqueue once its input record has left. -/
def withoutInput (files : QueueFiles) (m : NewMessage) : QueueTxn :=
  ⟨files.live.filter fun x => x.messageId != m.messageId, [], [], [], false⟩

/-- What replacing the boundary's input by a tail record leaves, claimed or not. -/
lemma EditSpec.of_boundary {m session now env files q id}
    (h : Effect [] (if id ∈ idsOf (withoutInput files m).live then [] else [id]) (some now)
      (withoutInput files m) q)
    (moved : AllMoved (.queueBoundaryMessage m session now) env files q.live)
    (hid : id = ((QueueTxn.new files).atTail m.toMessageRecord env.tailId).messageId)
    (hc : q.liveChanged = true) : EditSpec (.queueBoundaryMessage m session now) env files q := by
  refine .of_edit h moved rfl filter_sublist (fun x hx => ?_) EditSpec.added_fresh.1
    (fun x hx => (EditSpec.added_fresh.2 x hx).imp_right (·.trans hid)) (by simp [hc])
  by_cases hm : x.messageId = m.messageId
  · exact .inr hm
  · exact .inl (mem_filter.mpr ⟨hx, by simpa using hm⟩)

lemma queueBoundaryMessage_spec (m : NewMessage) (session : String) (now : Timestamp) (env : Env)
    (files : QueueFiles) :
    EditSpec (.queueBoundaryMessage m session now) env files
      (queueBoundaryMessage env m.toMessageRecord session now (.new files)).1 := by
  obtain ⟨hq, hu⟩ := m.atTail_queued (.new files) env.tailId
  have entered : Entered (.queueBoundaryMessage m session now) env files _ := m.entered_atTail rfl
  have others : AllMoved (.queueBoundaryMessage m session now) env files (withoutInput files m).live :=
    AllMoved.refl.mono fun x hx => (mem_filter.mp hx).1
  simp only [queueBoundaryMessage]
  split
  · exact EditSpec.stageEvent (.of_boundary (Effect.enqueue (withoutInput files m) hq hu)
      (others.upsert (.inl entered)) rfl rfl) _
  · exact EditSpec.stageEvent (.of_boundary (upsertClaimed_effect (withoutInput files m) hq hu)
      (others.upsertClaimed entered hq now) rfl upsertClaimed_liveChanged) _

lemma elim_keeps {β γ} (f : MessageRecord → β) (o : Option γ) {m g} (h : ∀ x, f (g x) = f m) :
    f (o.elim m g) = f m := by
  cases o with
  | none => rfl
  | some x => exact h x

lemma MessageEdit.apply_frame {β : Type*} (f : MessageRecord → β)
    (h : ∀ (m : MessageRecord) text gate notBefore typingHold force enter autoCompact tokens,
      f { m with
          text := text, gate := gate, notBefore := notBefore, typingHold := typingHold,
          force := force, enter := enter, autoCompact := autoCompact,
          compactedContextTokens := tokens } = f m)
    (edit : MessageEdit) (m : MessageRecord) : f (edit.apply m) = f m := by
  refine Eq.trans (elim_keeps f _ fun _ => h _ _ _ _ _ _ _ _ _) ?_
  refine Eq.trans (elim_keeps f _ fun _ => h _ _ _ _ _ _ _ _ _) ?_
  refine Eq.trans (elim_keeps f _ fun _ => h _ _ _ _ _ _ _ _ _) ?_
  refine Eq.trans (elim_keeps f _ fun _ => h _ _ _ _ _ _ _ _ _) ?_
  exact Eq.trans (elim_keeps f _ fun _ => h _ _ _ _ _ _ _ _ _)
    (elim_keeps f _ fun _ => h _ _ _ _ _ _ _ _ _)

lemma cancelWhen_spec {t env files admits id session reason} :
    EditSpec t env files (cancelWhen env admits id session reason (.new files)).1 := by
  simp only [cancelWhen]
  split
  · exact .refl
  rename_i x hx
  split
  · exact .close hx rfl
  · exact .refl

/-- The instant at which a transaction takes over queued or expired records. -/
def Txn.takesOver : Txn → Option Timestamp
  | .claimDeliveryBatch _ _ now | .claimMessageForSteer _ now => some now
  | _ => none

/-- What a take-over does: it claims the records at some indices, each queued or under an expired
claim, and hands out their copies, up to the name of the batch. -/
structure TakeOver (t : Txn) (env : Env) (files : QueueFiles) (now : Timestamp)
    (indices : List Nat) : Prop where
  nodup : indices.Nodup
  mem : ∀ i ∈ indices, ∃ m, files.live[i]? = some m ∧ claimExpired m.lastAttemptAt now = true
    ∧ (m.status = .queued ∨ t.Retakes env files m)
  edit : (t.edit env files (.new files)).1 =
    ((QueueTxn.new files).claimIndices now indices).1
  handed : ∃ batch : MessageRecord → MessageRecord,
    (t.edit env files (.new files)).2.claims
        = ((QueueTxn.new files).claimIndices now indices).2.map batch
      ∧ ∀ m, (batch m).messageId = m.messageId ∧ (batch m).lastAttemptAt = m.lastAttemptAt

lemma TakeOver.quiet {t env files now} (reply : Reply)
    (h : t.edit env files (.new files) = (QueueTxn.new files, reply))
    (none : reply.claims = []) : TakeOver t env files now [] :=
  ⟨nodup_nil, by simp, by rw [h]; rfl, id, by rw [h]; exact none, fun _ => ⟨rfl, rfl⟩⟩

lemma Txn.takeOver {t : Txn} {now} (env : Env) (files : QueueFiles) (ht : t.takesOver = some now) :
    ∃ indices, TakeOver t env files now indices := by
  cases t with
  | claimDeliveryBatch id status now' =>
    obtain rfl : now' = now := Option.some.inj ht
    cases e : deliveryBatchIndices env.limits files.live id status now' with
    | none => exact ⟨[], .quiet (.batch none)
      (by simp only [Txn.edit, Queue.claimDeliveryBatch, QueueTxn.new, e]) rfl⟩
    | some indices =>
      obtain ⟨k, target, batch⟩ := deliveryBatchIndices_batchOf e
      refine ⟨indices, batch.increasing.imp Nat.ne_of_lt, fun i hi => ?_, ?_, ?_⟩
      · obtain ⟨m, hm, waiting, lapsed⟩ := batch.mem i hi
        refine ⟨m, hm, lapsed, ?_⟩
        cases status : m.status with
        | queued => exact .inl rfl
        | claimed => exact .inr ⟨status, lapsed, target, mem_of_getElem? batch.at_, batch.id, waiting⟩
        | _ => exact absurd waiting.isOpen (by simp [status, MessageStatus.isOpen])
      · simp only [Txn.edit, Queue.claimDeliveryBatch, QueueTxn.new, e]
      · simp only [Txn.edit, Queue.claimDeliveryBatch, QueueTxn.new, e, Reply.claims]
        split
        · exact ⟨_, rfl, fun _ => ⟨rfl, rfl⟩⟩
        · exact ⟨fun m => m, (List.map_id' _).symm, fun _ => ⟨rfl, rfl⟩⟩
  | claimMessageForSteer id now' =>
    obtain rfl : now' = now := Option.some.inj ht
    cases e : files.live.findIdx? fun m => m.messageId == id && m.status == .queued with
    | none => exact ⟨[], .quiet (.claimed none)
      (by simp only [Txn.edit, Queue.claimMessageForSteer, QueueTxn.new, e]) rfl⟩
    | some index =>
      obtain ⟨hlt, here, -⟩ := List.findIdx?_eq_some_iff_getElem.mp e
      have hget : files.live[index]? = some (files.live.get ⟨index, hlt⟩) := List.getElem?_eq_getElem hlt
      have edit : (Txn.claimMessageForSteer id now').edit env files (.new files)
          = if claimExpired (files.live.get ⟨index, hlt⟩).lastAttemptAt now' = false then
              (QueueTxn.new files, .claimed none)
            else
              (((QueueTxn.new files).claimIndices now' [index]).1,
                .claimed (some (claimRecord (files.live.get ⟨index, hlt⟩) now'))) := by
        simp only [Txn.edit, Queue.claimMessageForSteer, QueueTxn.new, e, hget, Option.all_some,
          QueueTxn.claimIndices]
        rfl
      cases lapsed : claimExpired (files.live.get ⟨index, hlt⟩).lastAttemptAt now' with
      | false => exact ⟨[], .quiet _ (edit.trans (if_pos lapsed)) rfl⟩
      | true =>
        rw [lapsed, if_neg (by decide)] at edit
        refine ⟨[index], nodup_singleton _, fun i hi => ?_, by rw [edit], fun m => m, ?_, fun _ => ⟨rfl, rfl⟩⟩
        · obtain rfl := mem_singleton.mp hi
          simp only [and_eq_true, beq_iff_eq] at here
          exact ⟨_, hget, lapsed, .inl here.2⟩
        · rw [edit]
          simp [QueueTxn.claimIndices, QueueTxn.new, hget, Reply.claims]
  | _ => cases ht

lemma Txn.instant_of_takesOver {t : Txn} {now} (h : t.takesOver = some now) :
    t.instant = some now := by
  cases t with
  | claimDeliveryBatch | claimMessageForSteer => exact h
  | _ => cases h

lemma Txn.takeOver_spec {t : Txn} {now} (env : Env) (files : QueueFiles)
    (ht : t.takesOver = some now) :
    EditSpec t env files (t.edit env files (.new files)).1 := by
  obtain ⟨indices, taken⟩ := Txn.takeOver env files ht
  rw [taken.edit]
  refine .of_effect ?_ (AllMoved.claimIndices taken.nodup fun i hi m hm => ?_)
  · rw [Txn.instant_of_takesOver ht]
    exact claimIndices_effect _
  obtain ⟨m', hm', -, status⟩ := taken.mem i hi
  obtain rfl := Option.some.inj (hm.symm.trans hm')
  refine ⟨rfl, rfl, ?_⟩
  cases status with
  | inl queued => exact .claim queued rfl rfl rfl
  | inr retaken => exact .retake retaken rfl rfl rfl

/-- Every transaction meets the specification. -/
theorem Txn.edit_spec (t : Txn) (env : Env) (files : QueueFiles) :
    EditSpec t env files (t.edit env files (.new files)).1 := by
  cases t with
  | queueMessage m session => exact m.enqueue_spec _ rfl
  | queueMessageOnce m session =>
    simp only [Txn.edit, Queue.queueMessageOnce]
    split
    · exact .refl
    rename_i h
    exact m.enqueue_spec _ ⟨rfl, fun hm => h (files.any_of_mem_ids hm)⟩
  | rebindQueuedMessages p s session =>
    refine .applyAll fun x _ => ?_
    by_cases h : x.status ≠ .queued ∨ x.sameAgentCard p = false
    · exact .of_keep (if_pos h)
    · have hq : x.status = .queued := by simpa using (not_or.mp h).1
      exact .of_rewrite (if_neg h) (by simp [hq]; rfl)
  | queueResumingMessage m session =>
    simp only [Txn.edit, Queue.queueResumingMessage]
    split
    · exact .refl
    split
    · apply EditSpec.stageEvent
      exact .enqueue m.isQueued m.unclaimed (m.entered rfl rfl) rfl
    · exact m.enqueue_spec _ rfl
  | queueStillQueuedNotice id n session =>
    simp only [Txn.edit, Queue.queueStillQueuedNotice]
    generalize hu : (fun x : MessageRecord =>
      if x.messageId ≠ id ∨ x.status ≠ .queued ∨ x.queuedNoticeAt.isSome = true then
        (x, MessageUpdate.keep)
      else ({ x with queuedNoticeAt := some env.clock }, .silentRewrite)) = update
    obtain ⟨happ, stamped⟩ : Effect [] [] (Txn.queueStillQueuedNotice id n session).instant _ _
        ∧ AllMoved (.queueStillQueuedNotice id n session) env files
          ((QueueTxn.new files).applyAll session env.clock update).1.live := by
      refine applyAll_spec fun x _ => ?_
      subst hu
      by_cases h : x.messageId ≠ id ∨ x.status ≠ .queued ∨ x.queuedNoticeAt.isSome = true
      · exact .of_keep (if_pos h)
      have hq : x.status = .queued := by
        by_contra hq
        exact h (.inr (.inl hq))
      exact .of_rewrite (if_neg h) (by simp [hq]; rfl)
    have hids : idsOf ((QueueTxn.new files).applyAll session env.clock update).1.live
        = idsOf files.live := by
      subst hu
      refine idsOf_applyAll (fun x => ?_) (fun x status reason => ?_)
      · split <;> rfl
      · split <;> simp
    split
    · exact .of_effect happ stamped
    have h := happ.trans (Effect.enqueue _ n.isQueued n.unclaimed)
    rw [hids] at h
    exact EditSpec.stageEvent (.of_upsert h (stamped.upsert (.inl (n.entered rfl rfl))) fun _ => rfl) _
  | queueClaimedMessage m session now =>
    have entered : Entered (.queueClaimedMessage m session now) env files m.toMessageRecord :=
      m.entered rfl rfl
    exact EditSpec.stageEvent (.of_upsert
      (upsertClaimed_effect (QueueTxn.new files) m.isQueued m.unclaimed)
      (AllMoved.upsertClaimed .refl entered m.isQueued now) fun _ => rfl) _
  | queueTailMessage m session =>
    obtain ⟨hq, hu⟩ := m.atTail_queued (.new files) env.tailId
    have entered : Entered (.queueTailMessage m session) env files _ := m.entered_atTail rfl
    exact EditSpec.stageEvent (.enqueue hq hu entered rfl) _
  | queueBoundaryMessage m session now => exact queueBoundaryMessage_spec m session now env files
  | applyDeliverySweep updates now session =>
    refine .applyAll fun x _ => ?_
    by_cases h : x.status ≠ .queued
    · exact .of_keep (if_pos h)
    cases e : updates.reverse.find? fun update => update.messageId == x.messageId with
    | none => exact .of_keep (by simp only [if_neg h, e])
    | some update =>
      exact applySweepUpdate_ok (by simpa using h) (by simp only [if_neg h, e]; rfl)
  | editMessage id edit session =>
    simp only [Txn.edit, Queue.editMessage]
    split
    · exact .refl
    rename_i x hx
    split
    · exact .refl
    rename_i hq
    have hq : x.status = .queued := by simpa using hq
    refine EditSpec.stageEvent (.rewrite hx hq ?_) _
    exact edit.apply_frame MessageRecord.standing (fun _ _ _ _ _ _ _ _ _ => rfl) x
  | recordSentBatch messages session =>
    obtain ⟨effect, sent⟩ : Effect [] [] none (.new files) _ ∧ _ :=
      sentLoop_spec messages fun m hm => ⟨m, hm, rfl, rfl, rfl, rfl, .inl rfl⟩
    exact .of_effect effect (SentFrom.allMoved sent)
  | claimDeliveryBatch id status now | claimMessageForSteer id now =>
    exact Txn.takeOver_spec env files rfl
  | releaseMessageClaims held note session =>
    refine .applyAll fun x _ => ?_
    by_cases h : (held.any fun claim => holds claim x) = false
    · exact .of_keep (if_pos h)
    · obtain ⟨claim, -, holder⟩ := List.any_eq_true.mp (Bool.of_not_eq_false h)
      exact .of_rewrite (if_neg h) rfl (by simp [MessageRecord.requeue]) (.released holder)
  | holdMessageClaims held hold compacted session =>
    refine .applyAll fun x _ => ?_
    cases e : held.find? fun claim => holds claim x with
    | none => exact .of_keep (by simp only [e])
    | some claim =>
      have holder : holds claim x = true := List.find?_some (p := fun claim => holds claim x) e
      exact .of_rewrite (by simp only [e]; rfl) rfl (by simp [holdRecord]) (.released holder)
  | recordTypingHoldReplay id replay force session =>
    simp only [Txn.edit, Queue.recordTypingHoldReplay]
    split
    · exact .refl
    rename_i x hx
    split
    · exact .refl
    split
    · exact .refl
    rename_i hq
    have hq : x.status = .queued := by
      by_contra h
      exact hq (.inl h)
    exact EditSpec.stageEvent (.rewrite hx hq) _
  | deferMessageWake id until_ blocker =>
    simp only [Txn.edit, Queue.deferMessageWake]
    split
    · exact .refl
    rename_i x hx
    split
    · exact .refl
    · rename_i hq
      have hq : x.status = .queued := by simpa using hq
      exact .rewrite hx hq
  | confirmDeliveredForCard card ack session =>
    simp only [Txn.edit, Queue.confirmDeliveredForCard]
    split
    · exact .refl
    refine .applyAll fun x _ => ?_
    cases h : (confirmSelection env (QueueTxn.new files).live card ack).1.contains x.messageId with
    | false => exact .of_keep (if_neg (by simpa using h))
    | true => exact .of_finalize (if_pos h) rfl
  | markMessageTimedOut id session reason =>
    simp only [Txn.edit, Queue.markMessageTimedOut]
    split
    · exact .refl
    rename_i x hx
    split
    · exact .refl
    · exact .close hx rfl
  | reconcileStaleMessages session now maxAttempts =>
    exact .applyAll fun x _ => reconcileMessage_ok rfl rfl
  | recordSendError held error session =>
    simp only [Txn.edit, Queue.recordSendError]
    split
    · exact .refl
    rename_i x hx
    split
    · exact .refl
    · exact .close hx rfl
  | recordMessageDeliveryFailures held disposition error session =>
    simp only [Txn.edit, Queue.recordMessageDeliveryFailures]
    split
    · exact .refl
    refine .applyAll fun x _ => ?_
    by_cases h : (held.any fun claim => holds claim x) = false
    · exact .of_keep (if_pos h)
    · obtain ⟨claim, -, holder⟩ := List.any_eq_true.mp (Bool.of_not_eq_false h)
      exact failDelivery_ok (by rw [claimed_of_holds holder]; rfl) (if_neg h)
  | recordUnheldDeliveryMiss id disposition error session =>
    refine .applyAll fun x _ => ?_
    by_cases h : x.messageId ≠ id ∨ x.status ≠ .queued
    · exact .of_keep (if_pos h)
    · by_cases hw : x.softCompact = some .wrapUp ∧ disposition = .terminal
      · exact .of_finalize ((if_neg h).trans (if_pos hw)) rfl
      · have hq : x.status = .queued := not_not.mp (not_or.mp h).2
        exact failDelivery_ok (by rw [hq]; rfl) ((if_neg h).trans (if_neg hw))
  | cancelMessage id session reason | retireMessage id session reason => exact cancelWhen_spec
  | clearMessagesFor card session => exact .finalizeMatching rfl
  | clearChannelMessages channel session | clearMessagesMatching select session
  | archiveMessagesForCard card stop reason session | archiveChannelMessages channel reason session =>
    exact .finalizeMatching rfl
  | archiveOrphanMessages agents session =>
    refine .applyAll fun x _ => ?_
    by_cases h : x.status.isOpen = false
    · exact .of_keep (if_pos h)
    cases e : orphanReason agents x with
    | none => exact .of_keep (by simp only [if_neg h, e])
    | some reason =>
      exact .of_finalize (by simp only [if_neg h, e]; rfl) rfl
  | archiveMessagesWatchingCard card stop session =>
    refine .applyAll fun x _ => ?_
    by_cases h : x.status ≠ .queued ∨ (stop.any fun t => t < x.enqueuedAt) = true
    · exact .of_keep (if_pos h)
    · cases e : x.when_.find? fun c => c.metAt.isNone && c.cardRef.matches card with
      | none => exact .of_keep (by simp only [if_neg h, e])
      | some c => exact .of_finalize (by simp only [if_neg h, e]; rfl) rfl

end Rimz.Queue
