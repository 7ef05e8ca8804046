import Rimz.Queue.Store

/-!
# Batches and the lane of a card

A batch is a contiguous front of its card's lane. `delivery_batch_indices` scans the records before
the target for one that holds the boundary, and the records behind it for those that travel along;
`queue_head` finds the front of the ordinary lane by its own scan, and the two agree on every queue
in id order. Wrap-up steps are steered, never delivered from the lane, and hold no boundary in it.
-/

namespace Rimz.Queue
open Rimz.Lib

section Lane
variable {limits : Limits} {head : MessageRecord} {now : Timestamp}

/-- The record is of the head's card and delivery lane. -/
def InLane (head m : MessageRecord) : Prop :=
  m.sameCard head.cardRef = true ∧ sameDeliveryLane head.gate m.gate = true

/-- The record is in the lane, open and deliverable: its place in the lane is not to be passed. -/
structure Waiting (limits : Limits) (head : MessageRecord) (now : Timestamp) (m : MessageRecord) :
    Prop where
  isOpen : m.status.isOpen = true
  inLane : InLane head m
  deliverable : m.isDeliverable limits now = true

lemma InLane.refl (m : MessageRecord) : InLane m m := by
  constructor
  · simp [MessageRecord.sameCard, AgentCardRef.matches]
  · cases h : m.gate <;> rfl

lemma waiting_iff {m} :
    (m.status.isOpen && m.sameCard head.cardRef && sameDeliveryLane head.gate m.gate
      && m.isDeliverable limits now) = true ↔ Waiting limits head now m := by
  simp only [and_eq_true]
  exact ⟨fun ⟨⟨⟨ho, hc⟩, hl⟩, hd⟩ => ⟨ho, ⟨hc, hl⟩, hd⟩,
    fun ⟨ho, ⟨hc, hl⟩, hd⟩ => ⟨⟨⟨ho, hc⟩, hl⟩, hd⟩⟩

lemma notWrapUp_of_isDeliverable {m : MessageRecord} (h : m.isDeliverable limits now = true) :
    m.softCompact ≠ some .wrapUp := by
  simp only [MessageRecord.isDeliverable, and_eq_true, bne_iff_ne] at h
  exact h.1.1.1

lemma Waiting.holdsBoundary {m : MessageRecord} (h : Waiting limits head now m) :
    Queue.holdsBoundary limits m now = true := by
  simp [Queue.holdsBoundary, h.isOpen, notWrapUp_of_isDeliverable h.deliverable]

end Lane

/-- What the loop over the records behind the head selects: waiting records without a live claim, in
order, and none of the waiting ones before the last of them is left out. -/
structure FollowersOf (limits : Limits) (head : MessageRecord) (now : Timestamp)
    (live : List MessageRecord) (k : Nat) (selected : List Nat) : Prop where
  increasing : selected.Pairwise (· < ·)
  mem : ∀ i ∈ selected, k ≤ i ∧ ∃ m, live[i]? = some m ∧ Waiting limits head now m
    ∧ claimExpired m.lastAttemptAt now = true
  contiguous : ∀ i ∈ selected, ∀ j m, k ≤ j → j < i → live[j]? = some m →
    Waiting limits head now m → j ∈ selected

section Followers
variable (limits : Limits) (head : MessageRecord) (now : Timestamp) (live : List MessageRecord)

lemma FollowersOf.cons {limits head now live k c selected}
    (h : FollowersOf limits head now live (k + 1) selected) (hc : live[k]? = some c)
    (waiting : Waiting limits head now c) (unclaimed : claimExpired c.lastAttemptAt now = true) :
    FollowersOf limits head now live k (k :: selected) where
  increasing := pairwise_cons.mpr ⟨fun i hi => (h.mem i hi).1, h.increasing⟩
  mem i hi := by
    cases mem_cons.mp hi with
    | inl e =>
      subst e
      exact ⟨Nat.le_refl _, c, hc, waiting, unclaimed⟩
    | inr hi => exact ⟨Nat.le_of_succ_le (h.mem i hi).1, (h.mem i hi).2⟩
  contiguous i hi j m hkj hji hj wj := by
    rcases Nat.eq_or_lt_of_le hkj with rfl | hkj
    · exact mem_cons_self
    · cases mem_cons.mp hi with
      | inl e => omega
      | inr hi => exact mem_cons_of_mem _ (h.contiguous i hi j m hkj hji hj wj)

lemma FollowersOf.skip {limits head now live k c selected}
    (h : FollowersOf limits head now live (k + 1) selected) (hc : live[k]? = some c)
    (idle : ¬ Waiting limits head now c) : FollowersOf limits head now live k selected where
  increasing := h.increasing
  mem i hi := ⟨Nat.le_of_succ_le (h.mem i hi).1, (h.mem i hi).2⟩
  contiguous i hi j m hkj hji hj wj := by
    rcases Nat.eq_or_lt_of_le hkj with rfl | hkj
    · obtain rfl := Option.some.inj (hc.symm.trans hj)
      exact absurd wj idle
    · exact h.contiguous i hi j m hkj hji hj wj

lemma batchFollowers_spec (status : AgentStatus) (k : Nat) (rest : List MessageRecord)
    (h : rest = live.drop k) :
    FollowersOf limits head now live k (batchFollowers limits head status now k rest) := by
  induction rest generalizing k with
  | nil => exact ⟨.nil, fun i hi => absurd hi not_mem_nil, fun i hi => absurd hi not_mem_nil⟩
  | cons c rest ih =>
    have hc : live[k]? = some c := by
      have := congrArg List.head? h
      simpa [List.head?_drop] using this.symm
    have hr : rest = live.drop (k + 1) := by
      have := congrArg List.tail h
      simpa [List.tail_drop] using this
    simp only [batchFollowers]
    split
    · rename_i waiting
      split
      · exact ⟨.nil, fun i hi => absurd hi not_mem_nil,
          fun i hi => absurd hi not_mem_nil⟩
      · rename_i free
        simp only [or_eq_true, not_or, not_eq_true, Bool.not_eq_false'] at free
        exact (ih (k + 1) hr).cons hc (waiting_iff.mp waiting) free.1.1
    · rename_i idle
      exact (ih (k + 1) hr).skip hc fun w => idle (waiting_iff.mpr w)

end Followers

/-- What a returned batch is: the target first, which waits, unclaimed and with nothing that holds
the boundary before it, and then followers. -/
structure BatchOf (limits : Limits) (live : List MessageRecord) (targetId : MessageId)
    (now : Timestamp) (indices : List Nat) (k : Nat) (target : MessageRecord) : Prop where
  found : live.findIdx? (fun m => m.messageId == targetId) = some k
  at_ : live[k]? = some target
  id : target.messageId = targetId
  queued : target.status = .queued
  deliverable : target.isDeliverable limits now = true
  unclaimed : claimExpired target.lastAttemptAt now = true
  clear : ∀ j m, j < k → live[j]? = some m → holdsBoundary limits m now = true → InLane target m →
    ¬ (m.status = .sent ∨ m.isDeliverable limits now = true)
  behind : ∃ selected, indices = k :: selected ∧ FollowersOf limits target now live (k + 1) selected

lemma deliveryBatchIndices_batchOf {limits live id status now indices}
    (h : deliveryBatchIndices limits live id status now = some indices) :
    ∃ k target, BatchOf limits live id now indices k target := by
  simp only [deliveryBatchIndices] at h
  split at h
  · cases h
  rename_i k found
  split at h
  · cases h
  rename_i target at_
  split at h
  · cases h
  rename_i free
  simp only [or_eq_true, not_or, not_eq_true, Bool.not_eq_false', bne_eq_false_iff_eq,
    any_eq_false] at free
  obtain ⟨⟨⟨⟨queued, deliverable⟩, -⟩, unclaimed⟩, clear⟩ := free
  have id_ : target.messageId = id := by
    obtain ⟨hk, hid, -⟩ := List.findIdx?_eq_some_iff_getElem.mp found
    obtain ⟨_, e⟩ := List.getElem?_eq_some_iff.mp at_
    exact e ▸ eq_of_beq hid
  refine ⟨k, target, found, at_, id_, queued, deliverable, unclaimed, ?_, ?_⟩
  · intro j m hj hm hold lane ready
    have hmem : m ∈ live.take k := by
      refine mem_of_getElem? (i := j) ?_
      rwa [List.getElem?_take_of_lt hj]
    have blocked := clear m hmem
    simp only [hold, lane.1, lane.2, Bool.and_self, Bool.true_and, Bool.or_eq_false_iff,
      beq_eq_false_iff_ne] at blocked
    rcases ready with sent | ready
    · exact blocked.1 sent
    · exact absurd ready (by simp [blocked.2])
  · split at h
    · exact ⟨[], (Option.some.inj h).symm, .nil, fun i hi => absurd hi not_mem_nil,
        fun i hi => absurd hi not_mem_nil⟩
    · exact ⟨_, (Option.some.inj h).symm, batchFollowers_spec limits target now live status _ _ rfl⟩

section Selected
variable {limits : Limits} {live : List MessageRecord} {id : MessageId} {now : Timestamp}
  {indices : List Nat} {k : Nat} {target : MessageRecord}

section
variable (b : BatchOf limits live id now indices k target)
include b

lemma BatchOf.waiting :
    Waiting limits target now target :=
  ⟨by simp [b.queued, MessageStatus.isOpen], .refl target, b.deliverable⟩

lemma BatchOf.increasing :
    indices.Pairwise (· < ·) := by
  obtain ⟨selected, rfl, followers⟩ := b.behind
  exact pairwise_cons.mpr ⟨fun i hi => (followers.mem i hi).1, followers.increasing⟩

lemma BatchOf.mem :
    ∀ i ∈ indices, ∃ m, live[i]? = some m ∧ Waiting limits target now m
      ∧ claimExpired m.lastAttemptAt now = true := by
  obtain ⟨selected, rfl, followers⟩ := b.behind
  intro i hi
  cases mem_cons.mp hi with
  | inl e =>
    subst e
    exact ⟨target, b.at_, b.waiting, b.unclaimed⟩
  | inr hi => exact (followers.mem i hi).2

lemma BatchOf.first {j m} (hj : live[j]? = some m) (w : Waiting limits target now m) : k ≤ j := by
  by_contra before
  exact b.clear j m (Nat.lt_of_not_le before) hj w.holdsBoundary w.inLane (.inr w.deliverable)

lemma BatchOf.contiguous {i j m} (hi : i ∈ indices) (hji : j < i) (hj : live[j]? = some m)
    (w : Waiting limits target now m) : j ∈ indices := by
  have hkj := b.first hj w
  obtain ⟨selected, rfl, followers⟩ := b.behind
  rcases Nat.eq_or_lt_of_le hkj with rfl | hkj
  · exact mem_cons_self
  · cases mem_cons.mp hi with
    | inl e => omega
    | inr hi => exact mem_cons_of_mem _ (followers.contiguous i hi j m hkj hji hj w)

end

lemma waiting_of_head {m} (ordinary : target.gate ≠ .resume)
    (h : (m.status == .queued && m.gate != .resume && m.sameCard target.cardRef
      && m.isDeliverable limits now) = true) :
    Waiting limits target now m := by
  simp only [and_eq_true, beq_iff_eq, bne_iff_ne] at h
  obtain ⟨⟨⟨queued, lane⟩, card⟩, deliverable⟩ := h
  refine ⟨by simp [queued, MessageStatus.isOpen], ⟨card, ?_⟩, deliverable⟩
  cases hg : target.gate with
  | resume => exact absurd hg ordinary
  | done | any => simpa [sameDeliveryLane] using lane

lemma minById_cons {m ms} (h : ∀ x ∈ ms, m.messageId ≤ x.messageId) :
    minById (m :: ms) = some m := by
  simp only [minById, Option.some.injEq]
  induction ms with
  | nil => rfl
  | cons x ms ih =>
    have hx := h x mem_cons_self
    rw [foldl_cons, if_neg (Nat.not_lt.mpr hx)]
    exact ih fun y hy => h y (mem_cons_of_mem _ hy)

lemma BatchOf.queueHead (b : BatchOf limits live id now indices k target)
    (sorted : live.Pairwise (·.messageId ≤ ·.messageId)) (ordinary : target.gate ≠ .resume) :
    Queue.queueHead limits live target.cardRef now = some target := by
  obtain ⟨hk, e⟩ := List.getElem?_eq_some_iff.mp b.at_
  have split : live = live.take k ++ target :: live.drop (k + 1) := by
    rw [← e, ← List.drop_eq_getElem_cons hk, List.take_append_drop]
  -- Nothing before the target passes the filter, and the target does.
  have before : (live.take k).filter (fun m => m.status == .queued && m.gate != .resume
      && m.sameCard target.cardRef && m.isDeliverable limits now) = [] := by
    rw [filter_eq_nil_iff]
    intro m hm hp
    obtain ⟨j, hj⟩ := List.getElem?_of_mem hm
    have hjk : j < k := by
      have := (List.getElem?_eq_some_iff.mp hj).1
      simp only [length_take] at this
      omega
    rw [List.getElem?_take_of_lt hjk] at hj
    have := b.first hj (waiting_of_head ordinary hp)
    omega
  have self : (target.status == .queued && target.gate != .resume
      && target.sameCard target.cardRef && target.isDeliverable limits now) = true := by
    simp [b.queued, ordinary, (InLane.refl target).1, b.deliverable]
  rw [Queue.queueHead, split, filter_append, before, nil_append,
    filter_cons, if_pos self]
  refine minById_cons fun x hx => ?_
  rw [split, pairwise_append, pairwise_cons] at sorted
  exact sorted.2.1.1 x (mem_filter.mp hx).1

end Selected

/-- A batch is the front of its lane: it starts at the target and runs on in order through the
target's card and lane; no waiting record stands before the target or is passed over between two
selected ones; no prompt on its way, wrap-up steps apart, stands before the target; and in the
ordinary lane the target is the queue's head. -/
theorem batch_is_lane_front (limits : Limits) (live : List MessageRecord) (targetId : MessageId)
    (status : AgentStatus) (now : Timestamp) (indices : List Nat)
    (sorted : live.Pairwise (·.messageId ≤ ·.messageId))
    (h : deliveryBatchIndices limits live targetId status now = some indices) :
    ∃ k target, live[k]? = some target ∧ target.messageId = targetId
      ∧ indices.head? = some k ∧ indices.Pairwise (· < ·)
      ∧ (∀ i ∈ indices, ∃ m, live[i]? = some m ∧ m.sameCard target.cardRef = true
        ∧ sameDeliveryLane target.gate m.gate = true ∧ m.isDeliverable limits now = true)
      ∧ (∀ j m, live[j]? = some m → m.status.isOpen = true → m.sameCard target.cardRef = true →
          sameDeliveryLane target.gate m.gate = true → m.isDeliverable limits now = true →
          k ≤ j ∧ ∀ i ∈ indices, j < i → j ∈ indices)
      ∧ (∀ j m, j < k → live[j]? = some m → m.status = .sent → m.body = .prompt →
          m.sentHoldExpired limits now = false → m.sameCard target.cardRef = true →
          sameDeliveryLane target.gate m.gate = true → m.softCompact = some .wrapUp)
      ∧ (target.gate ≠ .resume → queueHead limits live target.cardRef now = some target) := by
  obtain ⟨k, target, b⟩ := deliveryBatchIndices_batchOf h
  refine ⟨k, target, b.at_, b.id, ?_, b.increasing, ?_, ?_, ?_, b.queueHead sorted⟩
  · obtain ⟨selected, rfl, -⟩ := b.behind
    rfl
  · intro i hi
    obtain ⟨m, hm, w, -⟩ := b.mem i hi
    exact ⟨m, hm, w.inLane.1, w.inLane.2, w.deliverable⟩
  · intro j m hj isOpen card lane deliverable
    have w : Waiting limits target now m := ⟨isOpen, ⟨card, lane⟩, deliverable⟩
    exact ⟨b.first hj w, fun i hi hji => b.contiguous hi hji hj w⟩
  · intro j m hjk hj sent prompt unexpired card lane
    by_contra step
    refine b.clear j m hjk hj ?_ ⟨card, lane⟩ (.inl sent)
    simp [holdsBoundary, sent, prompt, unexpired, step]

/-- A prompt to one card. -/
def promptTo (agentId : AgentSessionId) (id : MessageId) : NewMessage :=
  newForCard id 0 "room" "codex" agentId none "hello" true .done

/-- A quiet world in which `MessageId::new` returns `tailId`. -/
def quietEnv (tailId : MessageId) : Env :=
  ⟨0, [], { showTimestamp := fun _ => "" }, [], "room", tailId, fun k => 1000 + k⟩

/-- Two prompts to one card travel together behind a third one to another card. -/
theorem batch_is_lane_front_pair :
    queueHead (quietEnv 0).limits ([promptTo "b" 1, promptTo "a" 2, promptTo "a" 3].map (·.1))
      (promptTo "a" 2).cardRef 0 = some (promptTo "a" 2).toMessageRecord := by
  obtain ⟨k, target, at_, -, front, -, -, -, -, head⟩ := batch_is_lane_front (quietEnv 0).limits
    ([promptTo "b" 1, promptTo "a" 2, promptTo "a" 3].map (·.1)) 2 .idle 0 [1, 2] (by decide)
    (by decide)
  obtain rfl : 1 = k := Option.some.inj front
  obtain rfl := Option.some.inj at_
  exact head (by decide)

/-- A wrap-up step on its way to the agent stands before a batch of its card and lane. -/
theorem batch_passes_sent_wrapUp :
    ∃ wrapUp target : MessageRecord,
      deliveryBatchIndices (quietEnv 0).limits [wrapUp, target] target.messageId .idle 1 = some [1]
        ∧ wrapUp.messageId < target.messageId ∧ wrapUp.status = .sent ∧ wrapUp.body = .prompt
        ∧ wrapUp.sentHoldExpired (quietEnv 0).limits 1 = false
        ∧ wrapUp.sameCard target.cardRef = true
        ∧ sameDeliveryLane target.gate wrapUp.gate = true :=
  ⟨{ (promptTo "a" 1).toMessageRecord with
      status := .sent, gate := .any, automated := true, softCompact := some .wrapUp,
      lastSentAt := some 0 },
    (promptTo "a" 2).toMessageRecord, by decide⟩

end Rimz.Queue
