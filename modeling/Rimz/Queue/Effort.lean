import Rimz.Queue.Claims

/-!
# Delivery effort

How often a record is tried. A transaction does to the status and the two counters of a live record
what `Move` says, and the bounds on the counters are read off the moves.

A claim raises `attempts`, and a record is claimed from the queue with fewer than
`MAX_DELIVERY_ATTEMPTS` attempts not answered by an unconfirmed send. The batch scan also takes over
the expired claims of the records behind the target, where reconciliation would have asked the cap
first: that move alone can pass the bound.
-/

namespace Rimz.Queue
open Rimz.Lib

lemma Txn.run_moved (t : Txn) (env : Env) (files : QueueFiles) :
    AllMoved t env files (t.run env files).1.live := by
  intro m' hm'
  obtain ⟨_, commit⟩ := t.run_commit env files
  cases commit.back m' hm' with
  | inl hm' => exact (t.edit_spec env files).moved m' hm'
  | inr notice =>
    obtain ⟨n, k, rfl, id⟩ := notice
    exact .inl ⟨.inr ⟨k, id⟩, n.confirmed, .inl ⟨n.isQueued, n.unattempted⟩⟩

/-- The life of a live record: it enters queued or claimed and keeps its body, and once sent it
stays so, unless a reconciliation puts a prompt back. -/
theorem live_status_machine (t : Txn) (env : Env) (files : QueueFiles) :
    let live := (t.run env files).1.live
    ((idsOf files.live).Nodup → (idsOf live).Nodup) ∧ ∀ m' ∈ live,
      (t.Enqueues env files m'.messageId ∧ m'.status.isOpen = true)
        ∨ ∃ m ∈ files.live, m'.messageId = m.messageId ∧ m'.body = m.body
          ∧ (m'.status = m.status ∨ m'.status = .sent
            ∨ (m.status.isOpen = true ∧ m'.status.isOpen = true)
            ∨ (m.status = .sent ∧ m'.status = .queued ∧ m.body = .prompt ∧ t.cap.isSome = true)) := by
  obtain ⟨_, commit⟩ := t.run_commit env files
  refine ⟨commit.unique, fun m' hm' => ?_⟩
  rcases t.run_moved env files m' hm' with entered | ⟨m, hm, id, body, move⟩
  · refine .inl ⟨entered.enqueued, ?_⟩
    rcases entered.attempts with h | h <;> rw [h.1] <;> rfl
  refine .inr ⟨m, hm, id, body, ?_⟩
  cases move with
  | retake taken claimed =>
    cases t with
    | claimDeliveryBatch id status now => exact .inl (claimed.trans taken.1.symm)
    | _ => exact taken.elim
  | _ => simp_all [MessageStatus.isOpen]

/-- The effort a live record may have taken: a queued one has a claim to spare, and every
unconfirmed send buys one more. -/
structure EffortOk (cap : Nat) (m : MessageRecord) : Prop where
  unconfirmed : m.unconfirmedSends ≤ cap
  /-- The counter is a `u32`. -/
  counter : m.attempts ≤ u32Max
  attempts : m.attempts ≤ maxDeliveryAttempts + m.unconfirmedSends
  spare : m.status = .queued → m.attempts < maxDeliveryAttempts + m.unconfirmedSends

lemma Entered.effortOk {t env files m'} (h : Entered t env files m') (cap : Nat) :
    EffortOk cap m' := by
  have bounds : m'.attempts ≤ 1 := by
    rcases h.attempts with h | h <;> omega
  have spare : 1 < maxDeliveryAttempts := by decide
  refine ⟨by simp [h.confirmed], Nat.le_trans bounds (by decide), by omega, fun _ => by omega⟩

/-- A move keeps the effort within its bounds, unless it takes over a claim whose attempts are
spent. -/
lemma Move.effortOk {t env files cap m m'} (move : Move t env files m m') (ok : EffortOk cap m)
    (capped : ∀ c, t.cap = some c → c = cap)
    (unspent : t.Retakes env files m → m.attempts < maxDeliveryAttempts + m.unconfirmedSends) :
    EffortOk cap m' := by
  obtain ⟨hu, hc, ha, hs⟩ := ok
  have positive : 0 < maxDeliveryAttempts := by decide
  have saturates : ∀ n : Nat, satSucc n ≤ u32Max ∧ satSucc n ≤ n + 1 := fun n => by
    simp only [satSucc]
    omega
  cases move with
  | rest status attempts unconfirmed =>
    exact ⟨by omega, by omega, by omega, fun queued => by have := hs (status ▸ queued); omega⟩
  | claim queued claimed attempts unconfirmed =>
    have := hs queued
    have := saturates m.attempts
    exact ⟨by omega, by omega, by omega, fun queued => by simp [claimed] at queued⟩
  | retake taken claimed attempts unconfirmed =>
    have := unspent taken
    have := saturates m.attempts
    exact ⟨by omega, by omega, by omega, fun queued => by simp [claimed] at queued⟩
  | send sent attempts unconfirmed =>
    exact ⟨by omega, by omega, by omega, fun queued => by simp [sent] at queued⟩
  | release claimed queued attempts unconfirmed | retry isOpen queued attempts spare unconfirmed =>
    exact ⟨by omega, by omega, by omega, fun _ => by omega⟩
  | resend c hcap prompt sent queued attempts below unconfirmed =>
    have hcap := capped c hcap
    have hsucc : satSucc m.unconfirmedSends = min (m.unconfirmedSends + 1) u32Max := rfl
    -- Where the counter of unconfirmed sends saturates, it bounds the attempts by itself.
    exact ⟨by omega, by omega, by omega, fun _ => by omega⟩

/-- One transaction of a room whose reconcile cap is `cap`. -/
def CappedStep (cap : Nat) (files : QueueFiles) (call : Call) (files' : QueueFiles) : Prop :=
  (∀ c, call.1.cap = some c → c = cap) ∧ files' = (call.1.run call.2 files).1

/-- The same step when it takes over no expired claim whose attempts are spent. -/
def UnspentStep (cap : Nat) (files : QueueFiles) (call : Call) (files' : QueueFiles) : Prop :=
  CappedStep cap files call files' ∧ ∀ m ∈ files.live, call.1.Retakes call.2 files m →
    m.attempts < maxDeliveryAttempts + m.unconfirmedSends

/-- The same step when it enqueues nothing under the id. -/
def KeepingStep (cap : Nat) (id : MessageId) (files : QueueFiles) (call : Call)
    (files' : QueueFiles) : Prop :=
  CappedStep cap files call files' ∧ ¬ call.1.Enqueues call.2 files id

lemma Moved.sent_command {t env files m m'} (moved : Moved t env files m m')
    (command : m.body = .command)
    (sent : m.status = .sent) : m'.body = .command ∧ m'.status = .sent := by
  refine ⟨moved.body.trans command, ?_⟩
  cases moved.move with
  | rest status attempts unconfirmed => exact status.trans sent
  | send sent attempts unconfirmed => exact sent
  | claim queued => simp [sent] at queued
  | release claimed => simp [sent] at claimed
  | retry isOpen => simp [sent, MessageStatus.isOpen] at isOpen
  | resend c hcap prompt => simp [command] at prompt
  | retake taken =>
    cases t with
    | claimDeliveryBatch id status now => simp [Txn.Retakes, sent] at taken
    | _ => exact taken.elim

/-- Delivery effort is bounded in every run whose batch claims take over no expired claim with spent
attempts: no live record has more unconfirmed sends than the reconcile cap nor more attempts than
`MAX_DELIVERY_ATTEMPTS` and the cap together, and a command once recorded sent is never queued
again, in whatever run goes on from there without enqueueing another record under its id. -/
theorem delivery_effort_bounded (cap : Nat) {files : QueueFiles}
    (h : Reachable (· = QueueFiles.empty) (UnspentStep cap) files) :
    (∀ m ∈ files.live, m.unconfirmedSends ≤ cap ∧ m.attempts ≤ maxDeliveryAttempts + cap)
      ∧ ∀ m ∈ files.live, m.body = .command → m.status = .sent →
        ∀ files', Reachable (· = files) (KeepingStep cap m.messageId) files' →
          ∀ m' ∈ files'.live, m'.messageId = m.messageId → m'.status ≠ .queued := by
  have inv : (idsOf files.live).Nodup ∧ ∀ m ∈ files.live, EffortOk cap m := by
    refine h.invariant (P := fun files => (idsOf files.live).Nodup
      ∧ ∀ m ∈ files.live, EffortOk cap m) ?_ ?_
    · rintro s rfl
      exact ⟨nodup_nil, fun m hm => absurd hm not_mem_nil⟩
    · rintro s ⟨t, env⟩ s' - ⟨nodup, ok⟩ ⟨⟨capped, rfl⟩, unspent⟩
      obtain ⟨_, commit⟩ := t.run_commit env s
      refine ⟨commit.unique nodup, fun m' hm' => ?_⟩
      rcases t.run_moved env s m' hm' with entered | ⟨m, hm, moved⟩
      · exact entered.effortOk cap
      · exact moved.move.effortOk (ok m hm) capped (unspent m hm)
  refine ⟨fun m hm => ?_, fun m hm command sent files' run => ?_⟩
  · have ok := inv.2 m hm
    exact ⟨ok.unconfirmed, Nat.le_trans ok.attempts (Nat.add_le_add_left ok.unconfirmed _)⟩
  · -- Whatever is live under the id is the command, and sent.
    have stays : ∀ m' ∈ files'.live, m'.messageId = m.messageId →
        m'.body = .command ∧ m'.status = .sent := by
      refine run.invariant (P := fun files => ∀ m' ∈ files.live, m'.messageId = m.messageId →
        m'.body = .command ∧ m'.status = .sent) ?_ ?_
      · rintro s rfl m' hm' id
        obtain rfl := List.inj_on_of_nodup_map inv.1 hm' hm id
        exact ⟨command, sent⟩
      · rintro s ⟨t, env⟩ s' - stays ⟨⟨-, rfl⟩, other⟩ m' hm' id
        rcases t.run_moved env s m' hm' with entered | ⟨x, hx, moved⟩
        · exact absurd (id ▸ entered.enqueued) other
        · obtain ⟨xCommand, xSent⟩ := stays x hx (moved.messageId.symm.trans id)
          exact moved.sent_command xCommand xSent
    intro m' hm' id queued
    have := (stays m' hm' id).2
    simp [queued] at this

/-- The files after a sequence of transactions. -/
def runAll (calls : List Call) (files : QueueFiles) : QueueFiles :=
  calls.foldl (fun files call => (call.1.run call.2 files).1) files

/-- A run of transactions each of which is a step. -/
lemma reachable_runAll {step : QueueFiles → Call → QueueFiles → Prop} (calls : List Call) {files}
    (h : Reachable (· = QueueFiles.empty) step files)
    (steps : ∀ n call, calls[n]? = some call → step (runAll (calls.take n) files) call
      (call.1.run call.2 (runAll (calls.take n) files)).1) :
    Reachable (· = QueueFiles.empty) step (runAll calls files) := by
  induction calls generalizing files with
  | nil => exact h
  | cons call calls ih => exact ih (h.next (steps 0 call rfl)) fun n => steps (n + 1)

/-- A slash command to one card. -/
def commandTo (agentId : AgentSessionId) (id : MessageId) : NewMessage :=
  { promptTo agentId id with body := .command }

/-- One steered claim whose sender dies, found by the sweep. -/
def lostSteer (n : Nat) : List Call :=
  [(.claimMessageForSteer 2 (atSecond n), quietAt n),
    (.reconcileStaleMessages "s" (atSecond (n + 15)) 3, quietAt (n + 15))]

/-- One steered claim whose sender dies and which the batch behind the first message takes over; the
batch is written and never acknowledged. -/
def retakenSteer (n : Nat) : List Call :=
  [(.claimMessageForSteer 2 (atSecond n), quietAt n),
    (.claimDeliveryBatch 1 .idle (atSecond (n + 15)), quietAt (n + 15)),
    (.recordSentBatch [(promptTo "a" 1).1, (promptTo "a" 2).1] "s", quietAt (n + 16)),
    (.reconcileStaleMessages "s" (atSecond (n + 46)) 3, quietAt (n + 46))]

/-- Two prompts and a command. The steering sender of the second prompt dies, the batch of the first
takes it over, and all three are written. -/
def writtenBatch : List Call :=
  [(.queueMessage (promptTo "a" 1) "s", quietAt 0), (.queueMessage (promptTo "a" 2) "s", quietAt 0),
    (.queueClaimedMessage (commandTo "b" 3) "s" (atSecond 1), quietAt 1)]
    ++ (retakenSteer 20).take 3 ++ [(.recordSentBatch [(commandTo "b" 3).1] "s", quietAt 60)]

/-- Nothing is acknowledged. The sweep queues the prompts again, within their bounds, and not the
command. -/
theorem delivery_effort_of_written_batch :
    let sweep : Call := (.reconcileStaleMessages "s" (atSecond 66) 3, quietAt 66)
    let swept := (sweep.1.run sweep.2 (runAll writtenBatch .empty)).1
    swept.live.map (fun m => (m.messageId, m.unconfirmedSends, m.attempts))
        = [(1, 1, 1), (2, 1, 2), (3, 0, 1)]
      ∧ (∀ m ∈ swept.live, m.unconfirmedSends ≤ 3 ∧ m.attempts ≤ 8)
      ∧ ∀ m ∈ swept.live, m.messageId = 3 → m.status ≠ .queued := by
  intro sweep swept
  have few : ∀ n ≤ 7, ∀ m ∈ (runAll (writtenBatch.take n) .empty).live,
      m.attempts < maxDeliveryAttempts := by decide
  have written : Reachable (· = QueueFiles.empty) (UnspentStep 3) (runAll writtenBatch .empty) := by
    refine reachable_runAll _ (.start rfl) fun n call hc => ⟨⟨?_, rfl⟩, fun m hm _ => ?_⟩
    · have capped : ∀ call ∈ writtenBatch, call.1.cap = none := by decide
      simp [capped call (mem_of_getElem? hc)]
    · exact Nat.lt_add_right _ (few n (getElem?_eq_some_iff.mp hc).1.le m hm)
  have step : CappedStep 3 (runAll writtenBatch .empty) sweep swept :=
    ⟨fun c hc => (Option.some.inj hc).symm, rfl⟩
  have bounded := delivery_effort_bounded 3 (written.next
    ⟨step, fun m hm _ => Nat.lt_add_right _ (few 7 le_rfl m hm)⟩)
  obtain ⟨command, hlive, h⟩ : ∃ m ∈ (runAll writtenBatch .empty).live,
      m.messageId = 3 ∧ m.body = .command ∧ m.status = .sent := by decide
  refine ⟨by decide, bounded.1, h.1 ▸ ?_⟩
  refine (delivery_effort_bounded 3 written).2 command hlive h.2.1 h.2.2 _
    (.next (.start rfl) ⟨step, ?_⟩)
  rintro (introduced | ⟨k, hk⟩)
  · exact introduced
  · have : 3 = 1000 + k := h.1.symm.trans hk
    omega

/-- With a reconcile cap of three, a message whose steering senders keep dying stands at nine
claims: four of them were found by the sweep, which would have abandoned it at the fifth, but two
were taken over by the batch of the message before it. -/
theorem retaken_claims_pass_the_cap :
    ∃ files, Reachable (· = QueueFiles.empty) (CappedStep 3) files
      ∧ ∃ m ∈ files.live, maxDeliveryAttempts + 3 < m.attempts := by
  let calls : List Call := [(.queueMessage (promptTo "a" 1) "s", quietAt 0),
    (.queueMessage (promptTo "a" 2) "s", quietAt 0)]
    ++ lostSteer 20 ++ lostSteer 40 ++ lostSteer 60 ++ lostSteer 80
    ++ retakenSteer 100 ++ retakenSteer 150 ++ [(.claimMessageForSteer 2 (atSecond 200), quietAt 200)]
  have capped : ∀ call ∈ calls, ∀ c, call.1.cap = some c → c = 3 := by
    simp [calls, lostSteer, retakenSteer, Txn.cap]
  exact ⟨_, reachable_runAll calls (.start rfl) fun n call hc =>
    ⟨capped call (mem_of_getElem? hc), rfl⟩, by decide +kernel⟩

end Rimz.Queue
