import Rimz.Lib.Run
import Rimz.Queue.Spec

/-!
# The queue conserves messages

Over every run of queue transactions, the live queue stays sorted and free of terminal records, no
id is both live and in the history, no id enters the history twice, and an id that leaves the live
queue is found in the history. Ids are counted: a transaction moves them from live to history and
adds only ids nobody used before.

One operation can break the count. `at_tail` mints an id, but when the last live record of the card
sorts after it, it takes that record's successor instead, without asking whether the successor was
used before.
-/

namespace Rimz.Queue
open Rimz.Lib

def QueueFiles.empty : QueueFiles := ⟨[], [], []⟩

/-- What the queue conserves. -/
structure Conserved (files : QueueFiles) : Prop where
  sorted : (idsOf files.live).Pairwise (· < ·)
  live : AllLive files.live
  terminal : AllTerminal files.history
  /-- No id is live twice, in the history twice, or in both. -/
  once : files.ids.Nodup

/-- The id under which the caller enqueues a new record. -/
def Txn.enqueued : Txn → Option MessageId
  | .queueMessage m _ | .queueResumingMessage m _ | .queueStillQueuedNotice _ m _
  | .queueClaimedMessage m _ _ => some m.messageId
  | _ => none

/-- Fresh ids: what the caller enqueues and what `MessageId::new` returns was not used before. -/
structure Fresh (t : Txn) (env : Env) (files : QueueFiles) : Prop where
  enqueued : ∀ id, t.enqueued = some id → id ∉ files.ids
  tail : env.tailId ∉ files.ids
  distinct : ∀ j k, env.noticeId j = env.noticeId k → j = k
  notices : ∀ k, env.noticeId k ∉ files.ids
    ∧ env.noticeId k ∉ (t.edit env files (.new files)).1.ids

/-- Where `at_tail` falls back to the successor of the card's last live id, no closed message has
that id. -/
def TailUnused (t : Txn) (env : Env) (files : QueueFiles) : Prop :=
  match t with
  | .queueTailMessage m _ | .queueBoundaryMessage m _ _ =>
    ∀ last, maxById (files.live.filter fun x => x.sameCard m.cardRef) = some last →
      env.tailId ≤ last.messageId → last.messageId.successor ∉ idsOf files.history
  | _ => True

lemma atTail_messageId_cases (files : QueueFiles) (m : MessageRecord) (newId : MessageId) :
    ((QueueTxn.new files).atTail m newId).messageId = newId
      ∨ ∃ last, maxById (files.live.filter fun x => x.sameCard m.cardRef) = some last
        ∧ newId ≤ last.messageId
        ∧ ((QueueTxn.new files).atTail m newId).messageId = last.messageId.successor := by
  simp only [QueueTxn.atTail, QueueTxn.new]
  split
  · rename_i last e
    split
    · rename_i h
      exact .inr ⟨last, e, h, rfl⟩
    · exact .inl rfl
  · exact .inl rfl

/-- An introduced id is in no closed record. -/
lemma introduces_notMem_history {t env files id} (hf : Fresh t env files)
    (ht : TailUnused t env files) (hi : t.introduces env files id) : id ∉ idsOf files.history := by
  have tail : ∀ m : NewMessage,
      (∀ last, maxById (files.live.filter fun x => x.sameCard m.cardRef) = some last →
        env.tailId ≤ last.messageId → last.messageId.successor ∉ idsOf files.history) →
      ((QueueTxn.new files).atTail m.toMessageRecord env.tailId).messageId
        ∉ idsOf files.history := by
    intro m hm
    rcases atTail_messageId_cases files m.toMessageRecord env.tailId with e | ⟨last, e, hle, h⟩
    · rw [e]
      exact fun hmem => hf.tail (mem_append_right _ hmem)
    · rw [h]
      exact hm last e hle
  have enq : t.enqueued = some id → id ∉ idsOf files.history := fun h hmem =>
    hf.enqueued id h (mem_append_right _ hmem)
  cases t with
  | queueMessage | queueResumingMessage | queueStillQueuedNotice | queueClaimedMessage =>
    exact enq (by rw [hi]; rfl)
  | queueMessageOnce m session => exact fun hmem => hi.2 (mem_append_right _ hmem)
  | queueTailMessage m session | queueBoundaryMessage m session now =>
    rw [hi]
    exact tail m ht
  | _ => exact hi.elim

/-- A notice a commit queues: a new record under one of the ids minted for notices. -/
def IsNotice (env : Env) (m : MessageRecord) : Prop :=
  ∃ (n : NewMessage) (k : Nat), m = n.toMessageRecord ∧ n.messageId = env.noticeId k

/-- What the notice loop leaves from its `k`-th notice on: one new record for each notice. -/
structure Noticed (env : Env) (k : Nat) (q r : QueueTxn) (added : List MessageId) : Prop where
  effect : Effect [] added none q r
  ids : ∀ id ∈ added, ∃ j, k ≤ j ∧ id = env.noticeId j
  once : (∀ j k, env.noticeId j = env.noticeId k → j = k) → added.Nodup
  unique : (idsOf q.live).Nodup → (idsOf r.live).Nodup
  back : ∀ m ∈ r.live, m ∈ q.live ∨ IsNotice env m
  kept : ∀ m ∈ q.live, (∀ j, env.noticeId j ≠ m.messageId) → m ∈ r.live

lemma queueNotices_spec (env : Env) (undelivered : List (MessageRecord × Option String × String))
    (k : Nat) (q : QueueTxn) :
    ∃ added, Noticed env k q (queueNotices env k undelivered q) added := by
  induction undelivered generalizing k q with
  | nil => exact ⟨[], .refl, by simp, fun _ => nodup_nil, id, fun m hm => .inl hm, fun m hm _ => hm⟩
  | cons u rest ih =>
    obtain ⟨record, reason, session⟩ := u
    simp only [queueNotices]
    split
    · exact ih k q
    rename_i sender hs
    generalize hn : composeNotice env (env.noticeId k) sender .messageUndelivered
      (undeliveredText env.limits record reason) = notice
    have hid : notice.messageId = env.noticeId k := by
      rw [← hn]
      rfl
    generalize hq : q.stageEvent ⟨notice.toMessageRecord, session, .queued, none⟩ = staged
    have hlive : staged.live = q.live := hq ▸ rfl
    have step : Effect [] _ none q (staged.upsert notice.toMessageRecord) :=
      (hq ▸ Effect.refl.stageEvent _).trans (Effect.enqueue staged notice.isQueued notice.unclaimed)
    obtain ⟨added, h⟩ := ih (k + 1) (staged.upsert notice.toMessageRecord)
    generalize hf : (if notice.messageId ∈ idsOf staged.live then [] else [notice.messageId]) = first
      at step
    have hfirst : first.Nodup ∧ ∀ id ∈ first, id = env.noticeId k := by
      rw [← hf]
      split <;> simp [hid]
    refine ⟨first ++ added, step.trans h.effect, fun id hid => ?_, fun hinj => ?_, fun hl => ?_,
      fun m hm => ?_, fun m hm hne => ?_⟩
    · rcases mem_append.mp hid with hid | hid
      · exact ⟨k, le_refl k, hfirst.2 id hid⟩
      · obtain ⟨j, hj, e⟩ := h.ids id hid
        exact ⟨j, by omega, e⟩
    · refine hfirst.1.append (h.once hinj) fun id h1 h2 => ?_
      obtain ⟨j, hj, e⟩ := h.ids id h2
      have := hinj j k (e ▸ hfirst.2 id h1)
      omega
    · exact h.unique (nodup_upsertBy (hlive ▸ hl))
    · rcases h.back m hm with hm | hm
      · rcases mem_upsertBy hm with rfl | hm
        · exact .inr ⟨notice, k, rfl, hid⟩
        · exact .inl (hlive ▸ hm)
      · exact .inr hm
    · exact h.kept m (mem_upsertBy_of_ne (hlive ▸ hm) (hid ▸ (hne k).symm)) hne

/-- What a committed transaction leaves on file, in terms of its edit `q` and the notices added. -/
structure CommitSpec (env : Env) (q : QueueTxn) (files files' : QueueFiles)
    (added : List MessageId) : Prop where
  ids : files'.ids.Perm (idsOf files.history ++ (q.ids ++ added))
  sorted : (idsOf files.live).Pairwise (· ≤ ·) → (idsOf files'.live).Pairwise (· ≤ ·)
  live : AllLive q.live → AllLive files'.live
  terminal : AllTerminal files.history → AllTerminal q.history → AllTerminal files'.history
  notices : ∀ id ∈ added, ∃ j, id = env.noticeId j
  once : (∀ j k, env.noticeId j = env.noticeId k → j = k) → added.Nodup
  unique : (idsOf files.live).Nodup → (idsOf files'.live).Nodup
  back : ∀ m ∈ files'.live, m ∈ q.live ∨ IsNotice env m
  kept : ∀ m ∈ q.live, (∀ j, env.noticeId j ≠ m.messageId) → m ∈ files'.live

lemma pairwise_idsOf_sort (ms : List MessageRecord) :
    (idsOf (ms.insertionSort fun a b => a.messageId ≤ b.messageId)).Pairwise (· ≤ ·) := by
  have : Std.Total fun a b : MessageRecord => a.messageId ≤ b.messageId :=
    ⟨fun a b => Nat.le_total a.messageId b.messageId⟩
  have : IsTrans MessageRecord fun a b => a.messageId ≤ b.messageId :=
    ⟨fun _ _ _ h h' => Nat.le_trans h h'⟩
  exact pairwise_map.mpr (List.pairwise_insertionSort _ ms)

/-- Every transaction commits its edit and its notices. -/
lemma Txn.run_commit (t : Txn) (env : Env) (files : QueueFiles) :
    ∃ added,
      CommitSpec env (t.edit env files (.new files)).1 files (t.run env files).1 added := by
  have spec := t.edit_spec env files
  generalize hq : (t.edit env files (.new files)).1 = q at spec ⊢
  obtain ⟨added, h⟩ := queueNotices_spec env q.undelivered 0 { q with undelivered := [] }
  have hrun : (t.run env files).1
      = (queueNotices env 0 q.undelivered { q with undelivered := [] }).finish files := by
    simp only [Txn.run, commitQueue, hq]
  rw [hrun]
  generalize queueNotices env 0 q.undelivered { q with undelivered := [] } = r at h
  have hids : r.ids.Perm (q.ids ++ added) := by simpa [QueueTxn.ids] using h.effect.ids
  -- When nothing was reported as changed the file is left alone, and it holds what `r` holds.
  have hlive : (r.finish files).live.Perm r.live
      ∧ ((idsOf files.live).Pairwise (· ≤ ·) → (idsOf (r.finish files).live).Pairwise (· ≤ ·)) := by
    simp only [QueueTxn.finish]
    split
    · exact ⟨List.perm_insertionSort _ _, fun _ => pairwise_idsOf_sort r.live⟩
    rename_i hc
    obtain ⟨c, l, -⟩ := h.effect.changed (by simpa using hc)
    have := (spec.changed c).1
    exact ⟨by rw [l]; simp [this], id⟩
  have hidsLive : (idsOf (r.finish files).live).Perm (idsOf r.live) := hlive.1.map _
  refine ⟨added, ?_, hlive.2, ?_, ?_, fun id hid => (h.ids id hid).imp fun _ h => h.2, h.once,
    fun hn => ?_,
    fun m hm => h.back m (hlive.1.mem_iff.mp hm),
    fun m hm hne => hlive.1.mem_iff.mpr (h.kept m hm hne)⟩
  · have e : (r.finish files).ids.Perm (idsOf r.live ++ (idsOf files.history ++ idsOf r.history)) := by
      simp only [QueueFiles.ids, QueueTxn.finish, idsOf_append]
      exact hidsLive.append_right _
    have e' := hids.append_left (idsOf files.history)
    refine e.trans (List.Perm.trans ?_ e')
    rw [List.perm_iff_count]
    intro x
    simp only [QueueTxn.ids, List.count_append]
    omega
  · intro hl x hx
    exact h.effect.live hl x (hlive.1.mem_iff.mp hx)
  · intro hh hr x hx
    rcases mem_append.mp hx with hx | hx
    · exact hh x hx
    · exact h.effect.terminal hr x hx
  · exact hidsLive.nodup_iff.mpr (h.unique (nodup_append.mp (spec.nodup hn)).1)

/-- One transaction on fresh ids keeps the queue conserved and accounts for every id that leaves. -/
lemma Txn.run_conserved {t env files} (hf : Fresh t env files) (ht : TailUnused t env files)
    (inv : Conserved files) :
    Conserved (t.run env files).1
      ∧ ∀ id ∈ idsOf files.live, id ∉ idsOf (t.run env files).1.live →
        t.replaces id ∨ ∃ m ∈ (t.run env files).1.history,
          m.messageId = id ∧ m.status.isTerminal = true := by
  have spec := t.edit_spec env files
  obtain ⟨added, commit⟩ := t.run_commit env files
  generalize (t.run env files).1 = files' at commit ⊢
  have hnotices := hf.notices
  generalize (t.edit env files (.new files)).1 = q at spec commit hnotices
  have hlive : (idsOf files.live).Nodup := (nodup_append.mp inv.once).1
  -- The closed ids on file meet neither the ids of the edit nor the ids of the notices.
  have hdisj : ∀ id ∈ idsOf files.history, id ∉ q.ids ++ added := by
    intro id hid hmem
    rcases mem_append.mp hmem with hmem | hmem
    · rcases spec.introduced id hmem with h | h
      · exact (nodup_append.mp inv.once).2.2 id h id hid rfl
      · exact introduces_notMem_history hf ht h hid
    · obtain ⟨k, rfl⟩ := commit.notices id hmem
      exact (hnotices k).1 (mem_append_right _ hid)
  have honce : files'.ids.Nodup := by
    refine commit.ids.nodup_iff.mpr (List.Nodup.append ?_ ?_ fun id h h' => hdisj id h h')
    · exact (nodup_append.mp inv.once).2.1
    · refine (spec.nodup hlive).append (commit.once hf.distinct) fun id h h' => ?_
      obtain ⟨k, rfl⟩ := commit.notices id h'
      exact (hnotices k).2 h
  have hterm : AllTerminal files'.history := commit.terminal inv.terminal spec.terminal
  refine ⟨⟨?_, commit.live (spec.live inv.live), hterm, honce⟩, ?_⟩
  · have hle := commit.sorted (inv.sorted.imp fun h => Nat.le_of_lt h)
    have hne : (idsOf files'.live).Nodup := (nodup_append.mp honce).1
    exact hle.imp₂ (fun _ _ h h' => Nat.lt_of_le_of_ne h h') hne
  · intro id hid hgone
    rcases spec.conserved id hid with h | h
    · have hmem : id ∈ files'.ids :=
        commit.ids.mem_iff.mpr (mem_append_right _ (mem_append_left _ h))
      rcases mem_append.mp hmem with h | h
      · exact absurd h hgone
      · obtain ⟨m, hm, e⟩ := mem_idsOf.mp h
        exact .inr ⟨m, hm, e, hterm m hm⟩
    · exact .inl h

/-- A transaction of the store, with the world it reads. -/
abbrev Call := Txn × Env

/-- The step of a room whose ids are fresh. -/
def FreshStep (files : QueueFiles) (call : Call) (files' : QueueFiles) : Prop :=
  Fresh call.1 call.2 files ∧ files' = (call.1.run call.2 files).1

/-- The same step when no tail record takes an id that a closed message had. -/
def SafeStep (files : QueueFiles) (call : Call) (files' : QueueFiles) : Prop :=
  FreshStep files call files' ∧ TailUnused call.1 call.2 files

/-- In every run of transactions on fresh ids in which no tail record takes a closed message's id,
the queue is conserved in every state reached, and every transaction moves what leaves the live
queue into the history. -/
theorem queue_conserves_messages {files : QueueFiles}
    (h : Reachable (· = QueueFiles.empty) SafeStep files) :
    Conserved files ∧ ∀ call files', SafeStep files call files' →
      ∀ id ∈ idsOf files.live, id ∉ idsOf files'.live →
        call.1.replaces id ∨ ∃ m ∈ files'.history, m.messageId = id ∧ m.status.isTerminal = true := by
  have inv : Conserved files := by
    refine h.invariant (P := Conserved) ?_ ?_
    · rintro s rfl
      exact ⟨List.Pairwise.nil, by simp [AllLive, QueueFiles.empty],
        by simp [AllTerminal, QueueFiles.empty], nodup_nil⟩
    · rintro s call s' - hs ⟨⟨hf, rfl⟩, ht⟩
      exact (Txn.run_conserved hf ht hs).1
  refine ⟨inv, ?_⟩
  rintro call files' ⟨⟨hf, rfl⟩, ht⟩
  exact (Txn.run_conserved hf ht inv).2

/-- Ids are fresh where the notices' are above all that the room and the transaction use. -/
lemma Fresh.of_bound {t env files} (hn : env.noticeId = fun k => 1000 + k)
    (h : (∀ id ∈ t.enqueued.toList, id ∉ files.ids) ∧ env.tailId ∉ files.ids
      ∧ ∀ id ∈ files.ids ++ (t.edit env files (.new files)).1.ids, id < 1000) :
    Fresh t env files where
  enqueued id he := h.1 id (by simp [he])
  tail := h.2.1
  distinct j k e := by
    simp only [hn] at e
    exact Nat.add_left_cancel e
  notices k := by
    rw [← not_or, ← mem_append, hn]
    exact fun hk => Nat.not_lt.mpr (Nat.le_add_right 1000 k) (h.2.2 _ hk)

lemma FreshStep.quiet (t : Txn) (tailId : MessageId) {files} (h :
    (∀ id ∈ t.enqueued.toList, id ∉ files.ids) ∧ tailId ∉ files.ids
    ∧ ∀ id ∈ files.ids ++ (t.edit (quietEnv tailId) files (.new files)).1.ids, id < 1000) :
    FreshStep files (t, quietEnv tailId) (t.run (quietEnv tailId) files).1 :=
  ⟨.of_bound rfl h, rfl⟩

/-- Message 10, and behind it one that was minted earlier and took its successor. -/
def twoQueued : QueueFiles :=
  ((Txn.queueTailMessage (promptTo "a" 1) "s").run (quietEnv 5)
    ((Txn.queueMessage (promptTo "a" 10) "s").run (quietEnv 100) .empty).1).1

/-- Message 10 is canceled: it leaves the queue and is found in the history. Then a third message
takes the successor of 11, which no closed message had. -/
theorem queue_conserves_canceled_message :
    let cancel : Call := (.cancelMessage 10 "s" "changed my mind", quietEnv 6)
    let tail : Call := (.queueTailMessage (promptTo "a" 2) "s", quietEnv 7)
    let files := (cancel.1.run cancel.2 twoQueued).1
    let files' := (tail.1.run tail.2 files).1
    (∃ m ∈ files.history, m.messageId = 10 ∧ m.status.isTerminal = true)
      ∧ Conserved files' ∧ idsOf files'.live = [11, 12] := by
  intro cancel tail files files'
  have h1 : Reachable (· = QueueFiles.empty) SafeStep _ := .next (.start rfl)
    ⟨.quiet (.queueMessage (promptTo "a" 10) "s") 100 (by decide), trivial⟩
  have h2 : Reachable (· = QueueFiles.empty) SafeStep twoQueued :=
    h1.next ⟨.quiet _ _ (by decide), fun _ _ _ => not_mem_nil⟩
  have step : SafeStep twoQueued cancel files := ⟨.quiet _ _ (by decide), trivial⟩
  have step' : SafeStep files tail files' := by
    refine ⟨.quiet _ _ (by decide), fun last hlast _ => ?_⟩
    cases hlast
    decide
  exact ⟨((queue_conserves_messages h2).2 _ _ step 10 (by decide) (by decide)).resolve_left nofun,
    (queue_conserves_messages ((h2.next step).next step')).1, by decide⟩

/-- Two tail enqueues around a cancel, with a clock behind the one that stamped the card's last
message: both take the successor of that message's id, so the second one is live under the id of the
canceled first one. -/
theorem tail_successor_reuses_closed_id :
    ∃ files, Reachable (· = QueueFiles.empty) FreshStep files
      ∧ 11 ∈ idsOf files.live ∧ 11 ∈ idsOf files.history := by
  have h1 : Reachable (· = QueueFiles.empty) FreshStep _ := .next (.start rfl)
    (.quiet (.queueMessage (promptTo "a" 10) "s") 100 (by decide))
  have h2 := h1.next (.quiet (.queueTailMessage (promptTo "a" 1) "s") 5 (by decide))
  have h3 := h2.next
    (.quiet (.cancelMessage 11 "s" "changed my mind") 6 (by decide))
  have h4 := h3.next (.quiet (.queueTailMessage (promptTo "a" 2) "s") 7 (by decide))
  exact ⟨_, h4, by decide, by decide⟩

end Rimz.Queue
