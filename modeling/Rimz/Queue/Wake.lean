import Rimz.Queue.Claims

/-!
# The queue's wake

`queue_wake_deadline` of `store/message.rs` tells the host when to sweep next. Every clock that
`reconcile_stale_messages` acts by is armed in it, and so is the instant at which a card's head
becomes deliverable. A record behind its card's head arms only its own cleanup: until the head
leaves, the record cannot be delivered, and a head leaves by a transaction or by expiring, which is
armed.
-/

namespace Rimz.Queue
open Rimz.Lib

section Deadlines
variable (limits : Limits)

def MessageRecord.wakeDeadline (m : MessageRecord) (now : Timestamp) : Option Timestamp :=
  match m.status with
  | .queued =>
    if m.softCompact = some .wrapUp then some (m.updatedAt + claimTtl)
    else if m.gate = .resume then none
    else
      let deadline := ((m.notBefore.filter fun t => decide (now < t)).or m.retryAfter).getD m.updatedAt
      some (((m.expiresAt limits).toList
        ++ (m.registerBy.filter fun t => decide (now < t)).toList).foldl min deadline)
  | .sent => m.sentReconcileDeadline limits
  | .claimed => some (m.lastAttemptAt.getD m.updatedAt + claimTtl)
  | _ => none

/-- The record is deliverable behind another head of its card. -/
def follows (pending : List MessageRecord) (now : Timestamp) (m : MessageRecord) : Bool :=
  m.status == .queued && m.gate != .resume && m.isDeliverable limits now
    && (queueHead limits pending m.cardRef now).any fun head => head.messageId != m.messageId

/-- What a typing hold arms: its end, and afterwards the retry of a replay or a resume. -/
def holdDeadline (m : MessageRecord) (now : Timestamp) : Option Timestamp :=
  (m.typingHold.filter fun _ => m.status == .queued).bind fun hold =>
    if now < hold.until_ then some hold.until_
    else if hold.replay.isSome ∨ m.gate = .resume then m.retryAfter.or (some hold.until_)
    else none

/-- The deadline one record adds to the wake. -/
def recordDeadline (pending : List MessageRecord) (now : Timestamp) (m : MessageRecord) :
    Option Timestamp :=
  let deadline :=
    if follows limits pending now m then
      minTimestamp ((m.expiresAt limits).toList
        ++ (m.registerBy.filter fun t => decide (now < t)).toList)
    else m.wakeDeadline limits now
  minTimestamp (deadline.toList ++ (holdDeadline m now).toList)

def queueWakeDeadline (pending : List MessageRecord) (now : Timestamp) : Option Timestamp :=
  minTimestamp (pending.filterMap (recordDeadline limits pending now))

end Deadlines

/-- The record is closed because its card did not register in time: no other clock of the sweep is
asked before. -/
def registrationLapsed (env : Env) (now : Timestamp) (m : MessageRecord) : Prop :=
  ¬ (m.softCompact = some .wrapUp ∧ m.status.isOpen = true) ∧ m.expired env.limits now = false
    ∧ m.awaitingRegistration env.agents = true ∧ (m.registerBy.any fun t => decide (t ≤ now)) = true

section Minimum

lemma minTimestamp_eq {ts} : minTimestamp ts = ts.min? := by
  cases ts with
  | nil => rfl
  | cons t ts => exact List.min?_cons'.symm

lemma minTimestamp_le {ts t} (h : t ∈ ts) : ∃ d, minTimestamp ts = some d ∧ d ≤ t := by
  rw [minTimestamp_eq]
  cases e : ts.min? with
  | none => exact absurd h (List.min?_eq_none_iff.mp e ▸ not_mem_nil)
  | some d => exact ⟨d, rfl, (List.min?_eq_some_iff.mp e).2 t h⟩

lemma foldl_min_le {t x} {ts : List Timestamp} (h : t ∈ x :: ts) : ts.foldl min x ≤ t := by
  obtain ⟨d, e, hd⟩ := minTimestamp_le h
  exact Option.some.inj e ▸ hd

/-- The least record of a list is in it, and none has a lesser id. -/
lemma minById_spec {ms best} (h : minById ms = some best) :
    best ∈ ms ∧ ∀ m ∈ ms, best.messageId ≤ m.messageId := by
  cases ms with
  | nil => cases h
  | cons m ms =>
    obtain rfl := Option.some.inj h
    clear h
    induction ms generalizing m with
    | nil => simp
    | cons x ms ih =>
      obtain ⟨mem, least⟩ := ih (if x.messageId < m.messageId then x else m)
      simp only [foldl_cons]
      generalize ms.foldl _ (if x.messageId < m.messageId then x else m) = best at mem least
      have front :=
        least _ mem_cons_self
      constructor
      · rcases mem_cons.mp mem with rfl | mem
        · split <;> simp
        · simp [mem]
      · intro y hy
        simp only [mem_cons] at hy
        rcases hy with rfl | rfl | hy
        · split at front
          · exact Nat.le_trans front (Nat.le_of_lt ‹_›)
          · exact front
        · split at front
          · exact front
          · exact Nat.le_trans front (Nat.le_of_not_lt ‹_›)
        · exact least y (mem_cons_of_mem _ hy)

/-- A candidate of `queue_head` for the card. -/
structure HeadFor (limits : Limits) (card : AgentCardRef) (now : Timestamp) (m : MessageRecord) :
    Prop where
  queued : m.status = .queued
  ordinary : m.gate ≠ .resume
  sameCard : m.sameCard card = true
  deliverable : m.isDeliverable limits now = true

lemma queueHead_spec {limits} {pending : List MessageRecord} {card now head}
    (h : queueHead limits pending card now = some head) :
    head ∈ pending ∧ HeadFor limits card now head
      ∧ ∀ m ∈ pending, HeadFor limits card now m → head.messageId ≤ m.messageId := by
  obtain ⟨mem, least⟩ := minById_spec h
  obtain ⟨mem, candidate⟩ := mem_filter.mp mem
  simp only [and_eq_true, beq_iff_eq, bne_iff_ne] at candidate
  obtain ⟨⟨⟨queued, ordinary⟩, sameCard⟩, deliverable⟩ := candidate
  refine ⟨mem, ⟨queued, ordinary, sameCard, deliverable⟩, fun m hm c => least m ?_⟩
  simp [hm, c.queued, c.ordinary, c.sameCard, c.deliverable]

end Minimum

section Armed
variable {limits : Limits} {pending : List MessageRecord} {now t d : Timestamp} {m : MessageRecord}

lemma wake_le (hm : m ∈ pending) (h : ∃ d, recordDeadline limits pending now m = some d ∧ d ≤ t) :
    ∃ d, queueWakeDeadline limits pending now = some d ∧ d ≤ t := by
  obtain ⟨d, hd, hdt⟩ := h
  obtain ⟨d', hd', hle⟩ := minTimestamp_le (mem_filterMap.mpr ⟨m, hm, hd⟩)
  exact ⟨d', hd', le_trans hle hdt⟩

lemma recordDeadline_of_wake (alone : follows limits pending now m = false)
    (h : m.wakeDeadline limits now = some d) (hd : d ≤ t) :
    ∃ d, recordDeadline limits pending now m = some d ∧ d ≤ t := by
  have armed : d ∈ (m.wakeDeadline limits now).toList ++ (holdDeadline m now).toList := by simp [h]
  obtain ⟨d', hd', hle⟩ := minTimestamp_le armed
  refine ⟨d', ?_, le_trans hle hd⟩
  simpa only [recordDeadline, alone, false_eq_true, if_false] using hd'

lemma follows_of_status (h : m.status ≠ .queued) : follows limits pending now m = false := by
  simp [follows, h]

/-- The validity of a queued command is armed, behind a head too. -/
lemma recordDeadline_of_expiry (queued : m.status = .queued) (ordinary : m.gate ≠ .resume)
    (step : m.softCompact ≠ some .wrapUp) (h : m.expiresAt limits = some d) (hd : d ≤ t) :
    ∃ d, recordDeadline limits pending now m = some d ∧ d ≤ t := by
  cases behind : follows limits pending now m with
  | false =>
    refine recordDeadline_of_wake behind (d := ((m.expiresAt limits).toList
      ++ (m.registerBy.filter fun t => decide (now < t)).toList).foldl min
        (((m.notBefore.filter fun t => decide (now < t)).or m.retryAfter).getD m.updatedAt)) ?_ ?_
    · simp [MessageRecord.wakeDeadline, queued, ordinary, step]
    · exact le_trans (foldl_min_le (by simp [h])) hd
  | true =>
    have armed : d ∈ (m.expiresAt limits).toList
      ++ (m.registerBy.filter fun t => decide (now < t)).toList := by simp [h]
    obtain ⟨e, he, hed⟩ := minTimestamp_le armed
    have armed : e ∈ (some e).toList ++ (holdDeadline m now).toList := by simp
    obtain ⟨d', hd', hle⟩ := minTimestamp_le armed
    refine ⟨d', ?_, le_trans hle (le_trans hed hd)⟩
    simpa only [recordDeadline, behind, if_true, he] using hd'

end Armed

/-- No stamp of the record is ahead of the clock. -/
structure Stamped (now : Timestamp) (m : MessageRecord) : Prop where
  enqueuedAt : m.enqueuedAt ≤ now
  updatedAt : m.updatedAt ≤ now
  lastAttemptAt : ∀ at_, m.lastAttemptAt = some at_ → at_ ≤ now
  lastSentAt : ∀ at_, m.lastSentAt = some at_ → at_ ≤ now

lemma Stamped.of_untried {now m} (enqueued : m.enqueuedAt ≤ now) (updated : m.updatedAt ≤ now)
    (unclaimed : m.lastAttemptAt = none) (unsent : m.lastSentAt = none) : Stamped now m :=
  ⟨enqueued, updated, by simp [unclaimed], by simp [unsent]⟩

section Clocks
variable {limits : Limits} {pending : List MessageRecord} {now t : Timestamp} {m : MessageRecord}

lemma lease_le {at_} (h : claimExpired (some at_) t = true) (past : at_ ≤ now) (later : now ≤ t) :
    at_ + claimTtl ≤ t := by
  have lapsed := le_of_claimExpired h (le_trans past later)
  have key : ∀ a b c : Int, c ≤ b - a → a + c ≤ b := by omega
  exact key at_ t claimTtl lapsed

lemma recordDeadline_of_claim (claimed : m.status = .claimed) (stamped : Stamped now m)
    (stamp : m.lastAttemptAt ≠ none) (later : now ≤ t)
    (h : claimExpired m.lastAttemptAt t = true) :
    ∃ d, recordDeadline limits pending now m = some d ∧ d ≤ t := by
  obtain ⟨at_, e⟩ := ne_none_iff_exists'.mp stamp
  refine recordDeadline_of_wake (follows_of_status (by simp [claimed])) (d := at_ + claimTtl) ?_ ?_
  · simp [MessageRecord.wakeDeadline, claimed, e]
  · exact lease_le (e ▸ h) (stamped.lastAttemptAt at_ e) later

lemma recordDeadline_of_wrapUp (queued : m.status = .queued) (step : m.softCompact = some .wrapUp)
    (stamped : Stamped now m) (later : now ≤ t) (h : claimExpired (some m.updatedAt) t = true) :
    ∃ d, recordDeadline limits pending now m = some d ∧ d ≤ t := by
  have apart : follows limits pending now m = false := by
    simp [follows, MessageRecord.isDeliverable, step]
  refine recordDeadline_of_wake apart (d := m.updatedAt + claimTtl) ?_ ?_
  · simp [MessageRecord.wakeDeadline, queued, step]
  · exact lease_le h stamped.updatedAt later

lemma recordDeadline_of_sent (h : m.sentHoldExpired limits t = true) :
    ∃ d, recordDeadline limits pending now m = some d ∧ d ≤ t := by
  obtain ⟨d, hd, due⟩ := (any_eq_true _ _).mp h
  have sent : m.status = .sent := by
    by_contra other
    simp [MessageRecord.sentReconcileDeadline, other] at hd
  refine recordDeadline_of_wake (follows_of_status (by simp [sent])) (d := d) ?_ (by simpa using due)
  simpa [MessageRecord.wakeDeadline, sent] using hd

lemma recordDeadline_of_expired (ordinary : m.gate ≠ .resume) (step : m.softCompact ≠ some .wrapUp)
    (h : m.expired limits t = true) :
    ∃ d, recordDeadline limits pending now m = some d ∧ d ≤ t := by
  simp only [MessageRecord.expired, and_eq_true, beq_iff_eq, any_eq_true,
    decide_eq_true_eq] at h
  obtain ⟨queued, d, hd, due⟩ := h
  exact recordDeadline_of_expiry queued ordinary step hd due

lemma reconcileDecision_eq (env : Env) (cap : Nat) (hm : m ∈ pending) :
    ∃ agents ingress, reconcileDecision env t cap pending m =
    reconcileMessage env t cap agents ingress m
      ∧ (m.status = .queued → (m.registerBy.any fun r => decide (r ≤ t)) = true →
        agents = env.agents) := by
  refine ⟨_, _, rfl, fun queued due => ?_⟩
  have any : (pending.any fun m => m.status == .queued && m.registerBy.any fun r => decide (r ≤ t))
      = true := List.any_eq_true.mpr ⟨m, hm, by simp [queued, due]⟩
  rw [any, Bool.or_true, if_pos rfl]

/-- Whatever the sweep does to a record at `t`, off the exceptions, is armed by the record. -/
lemma recordDeadline_of_reconcile {env} {cap : Nat} (hm : m ∈ pending) (stamped : Stamped now m)
    (later : now ≤ t) (acts : (reconcileDecision env t cap pending m).2.1 ≠ .keep)
    (registered : ¬ registrationLapsed env t m)
    (stamp : m.status = .claimed → m.lastAttemptAt ≠ none)
    (lane : m.status = .queued → m.gate = .resume → m.expired env.limits t = true →
      m.softCompact = some .wrapUp) :
    ∃ d, recordDeadline env.limits pending now m = some d ∧ d ≤ t := by
  obtain ⟨agents, ingress, e, read⟩ := reconcileDecision_eq (t := t) env cap hm
  rw [e] at acts
  revert acts
  simp only [reconcileMessage]
  split
  · rename_i wrapUp
    -- A wrap-up step is kept for its lease, which runs from the claim or from the last update.
    intro acts
    have lapsed : claimExpired (if m.status = .claimed then m.lastAttemptAt else some m.updatedAt) t
        = true := by
      by_contra running
      rw [not_eq_true] at running
      simp [running] at acts
    cases status : m.status with
    | claimed =>
      rw [if_pos status] at lapsed
      exact recordDeadline_of_claim status stamped (stamp status) later lapsed
    | queued =>
      rw [if_neg (by simp [status])] at lapsed
      exact recordDeadline_of_wrapUp status wrapUp.1 stamped later lapsed
    | _ => exact absurd wrapUp.2 (by simp [status, MessageStatus.isOpen])
  rename_i other
  split
  · rename_i expired
    intro _
    have queued : m.status = .queued := by
      simp only [MessageRecord.expired, and_eq_true, beq_iff_eq] at expired
      exact expired.1
    have step : m.softCompact ≠ some .wrapUp := fun e =>
      other ⟨e, by simp [queued, MessageStatus.isOpen]⟩
    exact recordDeadline_of_expired (fun gate => step (lane queued gate expired)) step expired
  rename_i valid
  split
  · rename_i waiting
    intro _
    -- The card's registration is due, so the sweep read the agents.
    obtain ⟨awaiting, due⟩ := Bool.and_eq_true_iff.mp waiting
    have queued : m.status = .queued := by
      simp only [MessageRecord.awaitingRegistration, and_eq_true, beq_iff_eq] at awaiting
      exact awaiting.1.1
    rw [read queued due] at awaiting
    exact absurd ⟨other, by simpa using valid, awaiting, due⟩ registered
  split
  · rename_i lapsed
    exact fun _ => recordDeadline_of_claim lapsed.1 stamped (stamp lapsed.1) later lapsed.2
  split
  · exact fun acts => absurd rfl acts
  split
  · exact fun acts => absurd rfl acts
  · rename_i due
    exact fun _ => recordDeadline_of_sent (by simpa using due)

lemma expired_of_undeliverable (later : now ≤ t) (h : m.isDeliverable limits now = true)
    (gone : m.isDeliverable limits t = false) : m.expired limits t = true := by
  simp only [MessageRecord.isDeliverable, and_eq_true, not_eq_true', bne_iff_ne] at h
  obtain ⟨⟨⟨step, ready⟩, conditions⟩, -⟩ := h
  have ready : m.isReady t = true := by
    cases e : m.notBefore with
    | none => simp [MessageRecord.isReady, e]
    | some floor =>
      simp only [MessageRecord.isReady, e, all_some, decide_eq_true_eq] at ready ⊢
      exact le_trans ready later
  simpa [MessageRecord.isDeliverable, step, ready, conditions] using gone

/-- The head of a card at `t` arms a deadline, or the head before it does, by which that one
expires. -/
lemma wake_of_head (later : now ≤ t) (stamped : Stamped now m) (step : m.softCompact ≠ some .wrapUp)
    (h : queueHead limits pending m.cardRef t = some m) :
    ∃ d, queueWakeDeadline limits pending now = some d ∧ d ≤ max t (m.retryAfter.getD t) := by
  obtain ⟨hm, c, least⟩ := queueHead_spec h
  cases behind : follows limits pending now m with
  | false =>
    apply wake_le hm
    refine recordDeadline_of_wake behind (d := ((m.expiresAt limits).toList
      ++ (m.registerBy.filter fun t => decide (now < t)).toList).foldl min
        (((m.notBefore.filter fun t => decide (now < t)).or m.retryAfter).getD m.updatedAt)) ?_ ?_
    · simp [MessageRecord.wakeDeadline, c.queued, c.ordinary, step]
    · refine le_trans (foldl_min_le mem_cons_self) ?_
      cases floor : m.notBefore.filter fun t => decide (now < t) with
      | some f =>
        -- A floor still ahead has passed by the time the record is deliverable.
        have passed : f ≤ t := by
          have ready := c.deliverable
          simp only [MessageRecord.isDeliverable, MessageRecord.isReady, and_eq_true] at ready
          have e := (filter_eq_some_iff.mp floor).1
          simpa [e] using ready.1.1.2
        exact le_trans passed (le_max_left _ _)
      | none =>
        cases retry : m.retryAfter with
        | some r => exact le_max_right _ _
        | none => exact le_trans (le_trans stamped.updatedAt later) (le_max_left _ _)
  | true =>
    simp only [follows, and_eq_true, any_eq_true, bne_iff_ne] at behind
    obtain ⟨⟨-, deliverable⟩, head, hhead, differs⟩ := behind
    obtain ⟨hmem, hc, hleast⟩ := queueHead_spec hhead
    -- The head of now has the lesser id, so at `t` it is no candidate any more: it expired.
    have gone : head.isDeliverable limits t = false := by
      by_contra still
      have still : head.isDeliverable limits t = true := by simpa using still
      have le := least head hmem ⟨hc.queued, hc.ordinary, hc.sameCard, still⟩
      have ge := hleast m hm ⟨c.queued, c.ordinary, c.sameCard, deliverable⟩
      exact differs (Nat.le_antisymm ge le)
    have step' := notWrapUp_of_isDeliverable hc.deliverable
    have armed : ∃ d, recordDeadline limits pending now head = some d ∧ d ≤ t :=
      recordDeadline_of_expired hc.ordinary step'
        (expired_of_undeliverable later hc.deliverable gone)
    obtain ⟨d, hd, hdt⟩ := wake_le hmem armed
    exact ⟨d, hd, le_trans hdt (le_max_left _ _)⟩

end Clocks

/-- No queue deadline is slept through. On a queue whose stamps are not in the future, whatever the
sweep does to a record from now on by a stamped claim's lease, a `Sent` deadline, a wrap-up's lease
or the validity of a command off the resume lane, and whenever the head of a card's ordinary lane is
deliverable, the wake computed now is not later. A retry hint of that head delays it. -/
theorem wake_not_slept_through (env : Env) (live : List MessageRecord) (now t : Timestamp)
    (cap : Nat) (later : now ≤ t) (stamped : ∀ m ∈ live, Stamped now m) :
    (∀ m ∈ live, (reconcileDecision env t cap live m).2.1 ≠ .keep → ¬ registrationLapsed env t m →
        (m.status = .claimed → m.lastAttemptAt ≠ none) →
        (m.status = .queued → m.gate = .resume → m.expired env.limits t = true →
          m.softCompact = some .wrapUp) →
        ∃ d, queueWakeDeadline env.limits live now = some d ∧ d ≤ t)
      ∧ ∀ m ∈ live, m.status = .queued → m.gate ≠ .resume → m.softCompact ≠ some .wrapUp →
        queueHead env.limits live m.cardRef t = some m →
        ∃ d, queueWakeDeadline env.limits live now = some d ∧ d ≤ max t (m.retryAfter.getD t) := by
  constructor
  · intro m hm acts registered stamp lane
    exact wake_le hm (recordDeadline_of_reconcile hm (stamped m hm) later acts registered stamp lane)
  · intro m hm _ _ step head
    exact wake_of_head later (stamped m hm) step head

/-- A queued prompt wakes the host at once, a claimed one when its lease runs out. -/
theorem wake_not_slept_through_claim :
    ∃ d, queueWakeDeadline (quietEnv 0).limits
      [claimRecord (promptTo "a" 1).toMessageRecord 5, (promptTo "b" 2).toMessageRecord] 5 = some d
        ∧ d ≤ 15000000005 := by
  refine (wake_not_slept_through (quietEnv 0) [claimRecord (promptTo "a" 1).toMessageRecord 5,
    (promptTo "b" 2).toMessageRecord] 5 15000000005 3 (by decide) ?_).1
    (claimRecord (promptTo "a" 1).toMessageRecord 5) (by simp) (by decide) ?_ (by decide) (by decide)
  · intro m hm
    simp only [mem_cons, not_mem_nil, or_false] at hm
    rcases hm with rfl | rfl
    · exact ⟨by decide, by decide, by simp [claimRecord], by decide⟩
    · exact .of_untried (by decide) (by decide) rfl rfl
  · rintro ⟨-, -, awaiting, -⟩
    exact absurd awaiting (by decide)

/-- What the wake leaves out: the validity of a command in the resume lane, the lease of a claim
without a stamp, which the sweep takes for expired at once, and instants already past. -/
theorem wake_sleeps_through :
    (∃ m, Stamped 0 m ∧ (reconcileDecision (quietEnv 0) 600000000000 3 [m] m).2.1 ≠ .keep
        ∧ m.registerBy = none ∧ queueWakeDeadline (quietEnv 0).limits [m] 0 = none)
      ∧ (∃ m, Stamped 0 m ∧ (reconcileDecision (quietEnv 0) 1 3 [m] m).2.1 ≠ .keep
        ∧ m.registerBy = none ∧ queueWakeDeadline (quietEnv 0).limits [m] 0 = some 15000000000)
      ∧ ∃ m, Stamped 5 m ∧ queueHead (quietEnv 0).limits [m] m.cardRef 1 = some m
        ∧ m.retryAfter = none ∧ queueWakeDeadline (quietEnv 0).limits [m] 5 = some 5 :=
  ⟨⟨{ (promptTo "a" 1).toMessageRecord with body := .command, automated := true, gate := .resume },
      .of_untried (by decide) (by decide) rfl rfl, by decide⟩,
    ⟨{ (promptTo "a" 1).toMessageRecord with status := .claimed },
      .of_untried (by decide) (by decide) rfl rfl, by decide⟩,
    ⟨{ (promptTo "a" 1).toMessageRecord with updatedAt := 5 },
      .of_untried (by decide) (by decide) rfl rfl, by decide⟩⟩

end Rimz.Queue
