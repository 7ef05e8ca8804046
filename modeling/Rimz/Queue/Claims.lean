import Rimz.Queue.Conservation

/-!
# Delivery claims are exclusive

A sender that claims a record is handed a copy stamped with the instant of the claim. Over every
interleaving of transactions in which the claim instants are distinct and no clock runs behind an
earlier claim: a claim younger than its lease is not taken over, at most one of the copies handed
out for a message holds the live record, and a report made with a copy that does not hold changes
nothing.
-/

namespace Rimz.Queue
open Rimz.Lib

/-- What a transaction hands out and stamps, beside what it returns otherwise. -/
structure ClaimSpec (t : Txn) (files : QueueFiles) (q : QueueTxn) (reply : Reply) : Prop where
  stamped : ∀ c ∈ reply.claims, ∃ now, t.instant = some now ∧ c.lastAttemptAt = some now
  distinct : (idsOf files.live).Nodup → (idsOf reply.claims).Nodup
  source : ∀ m' ∈ q.live, ∀ i, m'.lastAttemptAt = some i →
    (∃ c ∈ reply.claims, c.lastAttemptAt = some i) ∨ ∃ m ∈ files.live, m.lastAttemptAt = some i

/-- Only the four claiming transactions hand out claims. -/
lemma claims_eq_nil {t : Txn} (env : Env) (files : QueueFiles) (q : QueueTxn)
    (h : t.instant = none) : (t.edit env files q).2.claims = [] := by
  cases t
  case queueClaimedMessage | queueBoundaryMessage | claimDeliveryBatch | claimMessageForSteer =>
    cases h
  -- The reply of every other one is of a kind without claims, on each of its branches.
  all_goals
    simp only [Txn.edit, Queue.queueMessageOnce, Queue.queueResumingMessage,
      Queue.queueStillQueuedNotice, Queue.editMessage, Queue.recordTypingHoldReplay,
      Queue.deferMessageWake, Queue.confirmDeliveredForCard, Queue.markMessageTimedOut,
      Queue.recordSendError, Queue.recordMessageDeliveryFailures, Queue.cancelMessage,
      Queue.retireMessage, cancelWhen]
    repeat' split
  all_goals rfl

lemma nodup_idsOf_filterMap {live} (hl : (idsOf live).Nodup) {indices : List Nat}
    (hi : indices.Nodup) {f} (hf : ∀ m, (f m).messageId = m.messageId) :
    (idsOf (indices.filterMap fun i => live[i]?.map f)).Nodup := by
  have e : idsOf (indices.filterMap fun i => live[i]?.map f)
      = indices.filterMap fun i => (idsOf live)[i]? := by
    simp only [idsOf, List.map_filterMap, map_map, List.getElem?_map]
    refine List.filterMap_congr fun i _ => ?_
    cases live[i]? with
    | none => rfl
    | some m => simp [hf]
  rw [e]
  refine hi.filterMap fun i j id h1 h2 => ?_
  obtain ⟨a, ha⟩ := List.getElem?_eq_some_iff.mp h1
  obtain ⟨b, hb⟩ := List.getElem?_eq_some_iff.mp h2
  exact (List.Nodup.getElem_inj_iff hl).mp (ha.trans hb.symm)

/-- A take-over hands out what it claims. -/
lemma Txn.takeOver_claimSpec {t : Txn} {now} (env : Env) (files : QueueFiles)
    (ht : t.takesOver = some now) :
    ClaimSpec t files (t.edit env files (.new files)).1
      (t.edit env files (.new files)).2 := by
  obtain ⟨indices, taken⟩ := Txn.takeOver env files ht
  obtain ⟨batch, handed, keeps⟩ := taken.handed
  have hcl := claimIndices_claimed now taken.nodup (.new files)
  rw [taken.edit]
  refine ⟨fun c hc => ⟨now, Txn.instant_of_takesOver ht, ?_⟩, fun hl => ?_, fun m hm i hi => ?_⟩
  · rw [handed, hcl] at hc
    obtain ⟨c', hc', rfl⟩ := mem_map.mp hc
    obtain ⟨i, -, e⟩ := mem_filterMap.mp hc'
    obtain ⟨m, -, rfl⟩ := map_eq_some_iff.mp e
    exact (keeps _).2
  · have e : idsOf (((QueueTxn.new files).claimIndices now indices).2.map batch)
        = idsOf ((QueueTxn.new files).claimIndices now indices).2 := by
      simp [idsOf, comp_def, keeps]
    rw [handed, e, hcl]
    exact nodup_idsOf_filterMap hl taken.nodup fun _ => rfl
  · rcases mem_claimIndices now indices (.new files) m hm with hm | hm
    · exact .inr ⟨m, hm, hi⟩
    · exact .inl ⟨batch m, handed ▸ mem_map_of_mem hm, (keeps m).2.trans hi⟩

lemma upsertClaimed_spec {t : Txn} {files} {q : QueueTxn} {m now reply} (ht : t.instant = some now)
    (hu : m.lastAttemptAt = none) (hq : ∀ x ∈ q.live, x ∈ files.live)
    (hr : reply.claims = (q.upsertClaimed m now).2.toList) {e} :
    ClaimSpec t files ((q.upsertClaimed m now).1.stageEvent e) reply := by
  obtain ⟨hc, hlive⟩ := upsertClaimed_claim q m now
  have hcl : reply.claims = [claimRecord m now] := by rw [hr, hc]; rfl
  refine ⟨fun x hx => ?_, fun _ => by simp [hcl], fun x hx i hi => ?_⟩
  · rw [hcl, mem_singleton] at hx
    exact ⟨now, ht, hx ▸ rfl⟩
  · rcases hlive x hx with rfl | rfl | h
    · exact .inl ⟨claimRecord m now, by simp [hcl], hi⟩
    · cases hu.symm.trans hi
    · exact .inr ⟨x, hq x h, hi⟩

/-- Every transaction meets the specification of its claims. -/
theorem Txn.edit_claimSpec (t : Txn) (env : Env) (files : QueueFiles) :
    ClaimSpec t files (t.edit env files (.new files)).1
      (t.edit env files (.new files)).2 := by
  have spec := t.edit_spec env files
  cases hi : t.instant with
  | none =>
    have hnil := claims_eq_nil env files (.new files) hi
    refine ⟨by simp [hnil], by simp [hnil], fun m hm i h => .inr ?_⟩
    exact (spec.stamps m hm i h).resolve_left (by simp [hi])
  | some now' =>
    cases t with
    | queueClaimedMessage m session now =>
      refine upsertClaimed_spec rfl m.unclaimed (fun _ h => h) ?_
      have hc := (upsertClaimed_claim (QueueTxn.new files) m.toMessageRecord now).1
      simp [Txn.edit, Queue.queueClaimedMessage, hc, Reply.claims]
    | queueBoundaryMessage m session now =>
      have hu := (m.atTail_queued (QueueTxn.new files) env.tailId).2
      simp only [Txn.edit, Queue.queueBoundaryMessage]
      split
      · refine ⟨by simp [Reply.claims], by simp [Reply.claims], fun x hx i h => .inr ?_⟩
        rcases mem_upsertBy hx with rfl | hx
        · cases hu.symm.trans h
        · exact ⟨x, (mem_filter.mp hx).1, h⟩
      · refine upsertClaimed_spec rfl hu (fun x hx => (mem_filter.mp hx).1) ?_
        generalize QueueTxn.upsertClaimed _ _ _ = claimed
        cases claimed.2 <;> rfl
    | claimDeliveryBatch | claimMessageForSteer => exact Txn.takeOver_claimSpec env files hi
    | _ => cases hi

/-- The room as the senders see it: the files, and every claim record handed out so far. -/
structure Room where
  files : QueueFiles
  handed : List MessageRecord

/-- The instant a transaction works at. -/
def Txn.clock (t : Txn) (env : Env) : Timestamp :=
  match t with
  | .queueClaimedMessage _ _ now | .queueBoundaryMessage _ _ now | .applyDeliverySweep _ now _
  | .claimDeliveryBatch _ _ now | .claimMessageForSteer _ now
  | .reconcileStaleMessages _ now _ => now
  | _ => env.clock

/-- The claims a transaction reports on: a release, a hold, a send error or a delivery failure. -/
def Txn.reports : Txn → Option (List MessageRecord)
  | .releaseMessageClaims held _ _ => some held
  | .holdMessageClaims held _ _ _ => some held
  | .recordSendError held _ _ => some [held]
  | .recordMessageDeliveryFailures held _ _ _ => some held
  | _ => none

/-- One transaction of some sender. Its clock is not behind a claim made before, a claim it makes
has an instant of its own, and the notices it queues get fresh ids. -/
structure ClaimStep (room : Room) (call : Call) (room' : Room) : Prop where
  clock : ∀ c ∈ room.handed, ∀ i, c.lastAttemptAt = some i → i ≤ call.1.clock call.2
  apart : ∀ c ∈ (call.1.run call.2 room.files).2.claims, ∀ c' ∈ room.handed,
    c.lastAttemptAt ≠ c'.lastAttemptAt
  distinct : ∀ j k, call.2.noticeId j = call.2.noticeId k → j = k
  notices : ∀ k, call.2.noticeId k ∉ room.files.ids
    ∧ call.2.noticeId k ∉ (call.1.edit call.2 room.files (.new room.files)).1.ids
  result : room' = ⟨(call.1.run call.2 room.files).1,
    room.handed ++ (call.1.run call.2 room.files).2.claims⟩

/-- What every interleaving keeps: ids are unique, every stamp in the queue was handed out, and two
copies handed out for one message bear different instants. -/
structure ClaimInv (room : Room) : Prop where
  nodup : (idsOf room.files.live).Nodup
  source : ∀ m ∈ room.files.live, ∀ i, m.lastAttemptAt = some i →
    ∃ c ∈ room.handed, c.lastAttemptAt = some i
  apart : room.handed.Pairwise fun a b =>
    a.messageId = b.messageId → a.lastAttemptAt ≠ b.lastAttemptAt

/-- One transaction keeps the invariant. -/
lemma ClaimStep.preserves {room room' call} (h : ClaimStep room call room') (inv : ClaimInv room) :
    ClaimInv room' := by
  obtain ⟨t, env⟩ := call
  have hcs := t.edit_claimSpec env room.files
  obtain ⟨_, commit⟩ := t.run_commit env room.files
  have hreply : (t.run env room.files).2 = (t.edit env room.files (.new room.files)).2 := rfl
  obtain ⟨-, hap, -, -, rfl⟩ := h
  refine ⟨commit.unique inv.nodup, ?_, ?_⟩
  · intro m hm i hi
    rcases commit.back m hm with hm | ⟨n, -, rfl, -⟩
    · rcases hcs.source m hm i hi with ⟨c, hc, e⟩ | ⟨x, hx, e⟩
      · exact ⟨c, mem_append_right _ hc, e⟩
      · obtain ⟨c, hc, e⟩ := inv.source x hx i e
        exact ⟨c, mem_append_left _ hc, e⟩
    · cases n.unclaimed.symm.trans hi
  · refine pairwise_append.mpr ⟨inv.apart, ?_, fun a ha b hb _ => (hap b hb a ha).symm⟩
    -- Copies handed out by one transaction are for different messages.
    have hids := pairwise_map.mp (hcs.distinct inv.nodup)
    exact hids.imp fun hne he => absurd he hne

lemma ClaimInv.holder_unique {room} (inv : ClaimInv room) (m : MessageRecord) :
    (room.handed.filter fun c => holds c m).length ≤ 1 := by
  have hp := inv.apart.sublist (filter_sublist (p := fun c => holds c m))
  have hall : ∀ c ∈ room.handed.filter fun c => holds c m,
      c.messageId = m.messageId ∧ c.lastAttemptAt = m.lastAttemptAt := by
    intro c hc
    have h := (mem_filter.mp hc).2
    simp only [holds, and_eq_true, beq_iff_eq] at h
    exact ⟨h.1.1.1, h.2⟩
  generalize room.handed.filter (fun c => holds c m) = hs at hp hall
  rcases hs with _ | ⟨a, _ | ⟨b, rest⟩⟩
  · simp
  · simp
  · have ha := hall a (by simp)
    have hb := hall b (by simp)
    have hne := (pairwise_cons.mp hp).1 b (by simp)
    exact absurd (ha.2.trans hb.2.symm) (hne (ha.1.trans hb.1.symm))

/-- A copy handed out by a take-over is of a record under no unexpired claim. -/
lemma takesOver_expired {t : Txn} {env files now} (ht : t.takesOver = some now) {c}
    (hc : c ∈ (t.edit env files (.new files)).2.claims) :
    ∃ m ∈ files.live, m.messageId = c.messageId ∧ claimExpired m.lastAttemptAt now = true := by
  obtain ⟨indices, taken⟩ := Txn.takeOver env files ht
  obtain ⟨batch, handed, keeps⟩ := taken.handed
  rw [handed, claimIndices_claimed now taken.nodup] at hc
  obtain ⟨c, claimed, rfl⟩ := mem_map.mp hc
  obtain ⟨i, hi, e⟩ := mem_filterMap.mp claimed
  obtain ⟨m, hm, rfl⟩ := map_eq_some_iff.mp e
  obtain ⟨m', hm', expired, -⟩ := taken.mem i hi
  obtain rfl : m = m' := Option.some.inj (hm.symm.trans hm')
  exact ⟨m, mem_of_getElem? hm, (keeps (claimRecord m now)).1.symm, expired⟩

/-- A record its update keeps stays live. -/
lemma mem_applyAll {update} {q : QueueTxn} {session now m} (hm : m ∈ q.live)
    (h : update m = (m, .keep)) : m ∈ (q.applyAll session now update).1.live := by
  have keep : ∀ (acc : QueueTxn × List MessageRecord) (x : MessageRecord), m ∈ acc.1.live →
      m ∈ (QueueTxn.applyStep session now update acc x).1.live := by
    intro acc x hx
    simp only [QueueTxn.applyStep]
    split <;> simp [hx]
  have main : ∀ (ms : List MessageRecord) (acc : QueueTxn × List MessageRecord),
      m ∈ acc.1.live ∨ m ∈ ms → m ∈ (ms.foldl (QueueTxn.applyStep session now update) acc).1.live := by
    intro ms
    induction ms with
    | nil => simp
    | cons x ms ih =>
      intro acc hx
      refine ih _ ?_
      rcases hx with hx | hx
      · exact .inl (keep acc x hx)
      · rcases mem_cons.mp hx with rfl | hx
        · exact .inl (by simp [QueueTxn.applyStep, h])
        · exact .inr hx
  exact main q.live _ (.inr hm)

/-- A report made with claims that do not hold a record leaves the record in the edit. -/
lemma reports_frame {t : Txn} (env : Env) {files held} (ht : t.reports = some held)
    (hnd : (idsOf files.live).Nodup) {m} (hm : m ∈ files.live)
    (hno : ∀ c ∈ held, holds c m = false) : m ∈ (t.edit env files (.new files)).1.live := by
  have hany : (held.any fun claim => holds claim m) = false := any_eq_false.mpr (by simpa using hno)
  cases t with
  | releaseMessageClaims held' note session =>
    obtain rfl : held' = held := Option.some.inj ht
    exact mem_applyAll hm (if_pos hany)
  | holdMessageClaims held' hold compacted session =>
    obtain rfl : held' = held := Option.some.inj ht
    have hf : held'.find? (fun claim => holds claim m) = none :=
      List.find?_eq_none.mpr (by simpa using hno)
    exact mem_applyAll hm (by simp only [hf])
  | recordMessageDeliveryFailures held' disposition error session =>
    obtain rfl : held' = held := Option.some.inj ht
    simp only [Txn.edit, Queue.recordMessageDeliveryFailures]
    split
    · exact hm
    · exact mem_applyAll hm (if_pos hany)
  | recordSendError held' error session =>
    obtain rfl : [held'] = held := Option.some.inj ht
    simp only [Txn.edit, Queue.recordSendError]
    split
    · exact hm
    rename_i x hx
    split
    · exact hm
    -- The record that is closed is another one: it is held, and ids are unique.
    rename_i hholds
    obtain ⟨hxm, hxid⟩ := findId_some hx
    have hne : m.messageId ≠ x.messageId := by
      intro e
      obtain rfl := List.inj_on_of_nodup_map hnd hm hxm e
      exact hholds (hno held' (by simp))
    simp only [QueueTxn.terminalize]
    split
    · refine (List.mem_eraseP_of_neg ?_).mpr hm
      simpa using hne
    · exact hm
  | _ => cases ht

/-- Fifteen seconds, the lease of a claim. -/
def claimTtl : Duration := claimTtlSecs * 1000000000

lemma le_of_claimExpired {at_ now : Timestamp} (h : claimExpired (some at_) now = true)
    (hle : at_ ≤ now) : claimTtl ≤ now - at_ := by
  simp only [claimExpired, claimTtlSecs, or_eq_true, decide_eq_true_eq] at h
  have key : ∀ a b : Int, a ≤ b → (b - a < 0 ∨ 15 ≤ (b - a).toNat / 1000000000) →
      15 * 1000000000 ≤ b - a := by omega
  exact key at_ now hle (h.imp id of_decide_eq_true)

/-- Over every interleaving of transactions whose claim instants are distinct and never ahead of a
later clock: at most one claim record ever handed out holds a live record; no take-over hands out a
record whose claim is younger than the lease; and a release, hold, send error or delivery failure
reported with claims that do not hold a live record leaves it as it is. -/
theorem claims_are_exclusive {room : Room}
    (h : Reachable (· = ⟨QueueFiles.empty, []⟩) ClaimStep room) :
    (∀ m ∈ room.files.live, (room.handed.filter fun c => holds c m).length ≤ 1)
      ∧ ∀ call room', ClaimStep room call room' →
        (∀ now, call.1.takesOver = some now → ∀ c ∈ (call.1.run call.2 room.files).2.claims,
          ∀ m ∈ room.files.live, m.messageId = c.messageId →
            ∀ at_, m.lastAttemptAt = some at_ → claimTtl ≤ now - at_)
        ∧ (∀ held, call.1.reports = some held → ∀ m ∈ room.files.live,
          (∀ c ∈ held, holds c m = false) → m ∈ room'.files.live) := by
  have inv : ClaimInv room := by
    refine h.invariant (P := ClaimInv) ?_ fun s a s' _ hs st => st.preserves hs
    rintro s rfl
    exact ⟨nodup_nil, by simp [QueueFiles.empty], List.Pairwise.nil⟩
  refine ⟨fun m _ => inv.holder_unique m, ?_⟩
  rintro ⟨t, env⟩ room' st
  refine ⟨?_, ?_⟩
  · intro now ht c hc m hm hid at_ hat
    obtain ⟨x, hx, hxid, hexp⟩ := takesOver_expired ht hc
    obtain rfl := List.inj_on_of_nodup_map inv.nodup hm hx (hid.trans hxid.symm)
    rw [hat] at hexp
    obtain ⟨c', hc', e⟩ := inv.source m hm at_ hat
    have hclock := st.clock c' hc' at_ e
    have hnow : t.clock env = now := by
      cases t with
      | claimDeliveryBatch id status now' | claimMessageForSteer id now' => exact Option.some.inj ht
      | _ => cases ht
    exact le_of_claimExpired hexp (hnow ▸ hclock)
  · intro held ht m hm hno
    have hedit := reports_frame env ht inv.nodup hm hno
    obtain ⟨_, commit⟩ := t.run_commit env room.files
    have hlive := commit.kept m hedit fun k e =>
      (st.notices k).1 (mem_append_left _ (mem_idsOf.mpr ⟨m, hm, e.symm⟩))
    rw [st.result]
    exact hlive

def Room.after (room : Room) (call : Call) : Room :=
  ⟨(call.1.run call.2 room.files).1, room.handed ++ (call.1.run call.2 room.files).2.claims⟩

lemma ClaimStep.of_fresh {room call} (fresh : Fresh call.1 call.2 room.files)
    (clock : ∀ c ∈ room.handed, ∀ i ∈ c.lastAttemptAt.toList, i ≤ call.1.clock call.2)
    (apart : ∀ c ∈ (call.1.run call.2 room.files).2.claims, ∀ c' ∈ room.handed,
      c.lastAttemptAt ≠ c'.lastAttemptAt) : ClaimStep room call (room.after call) :=
  ⟨fun c hc i hi => clock c hc i (by simp [hi]), apart, fresh.distinct, fresh.notices, rfl⟩

/-- An instant so many seconds after the start of a run. -/
def atSecond (n : Nat) : Timestamp := n * 1000000000

/-- A quiet world at an instant. -/
def quietAt (n : Nat) : Env := { quietEnv 100 with clock := atSecond n }

/-- One message is queued; behind it a sender enqueues and claims another one, and dies. -/
def claimedRoom : Room :=
  ((Room.mk .empty []).after (.queueMessage (promptTo "a" 1) "s", quietAt 0)).after
    (.queueClaimedMessage (promptTo "a" 2) "s" (atSecond 0), quietAt 0)

/-- The lease of the claim is over: the batch of the first message takes the second one over. -/
def takeOver : Call := (.claimDeliveryBatch 1 .idle (atSecond 15), quietAt 15)

/-- The sender that died was only slow, and reports on its old claim. -/
def staleRelease : Call := (.releaseMessageClaims claimedRoom.handed "gone" "s", quietAt 16)

/-- Of three claims handed out for two messages, one holds each; the second message was taken over
after the lease of its first claim, whose release leaves both as they are. -/
theorem claim_taken_over_after_lease :
    let room := claimedRoom.after takeOver
    (idsOf room.handed = [2, 1, 2]
        ∧ ∀ m ∈ room.files.live, (room.handed.filter fun c => holds c m).length ≤ 1)
      ∧ claimTtl ≤ atSecond 15 - atSecond 0
      ∧ ∀ m ∈ room.files.live, m ∈ (room.after staleRelease).files.live := by
  intro room
  have queued : ClaimStep ⟨.empty, []⟩ (.queueMessage (promptTo "a" 1) "s", quietAt 0) _ :=
    .of_fresh (.of_bound rfl (by decide)) (by decide) (by decide)
  have h1 : Reachable (· = ⟨QueueFiles.empty, []⟩) ClaimStep _ := .next (.start rfl) queued
  have h2 : Reachable (· = ⟨QueueFiles.empty, []⟩) ClaimStep claimedRoom := h1.next
    (.of_fresh (.of_bound rfl (by decide)) (by decide) (by decide))
  have taken : ClaimStep claimedRoom takeOver room :=
    .of_fresh (.of_bound rfl (by decide)) (by decide) (by decide)
  have released : ClaimStep room staleRelease (room.after staleRelease) :=
    .of_fresh (.of_bound rfl (by decide)) (by decide) (by decide)
  have h3 := h2.next taken
  refine ⟨⟨by decide, (claims_are_exclusive h3).1⟩, ?_, fun m hm => ?_⟩
  · let lost := claimRecord (promptTo "a" 2).toMessageRecord (atSecond 0)
    exact ((claims_are_exclusive h2).2 _ _ taken).1 _ rfl
      { claimRecord lost (atSecond 15) with batchId := some 1 } (by decide) lost (by decide) rfl _ rfl
  · refine ((claims_are_exclusive h3).2 _ _ released).2 _ rfl m hm ?_
    revert m
    decide

end Rimz.Queue
