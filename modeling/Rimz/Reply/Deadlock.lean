import Rimz.Queue.Notice
import Rimz.Reply.Cycle

/-!
# Wait cycles are broken

Every waiting agent judges its own waits on the same view, each by the first cycle its search finds.
The youngest of all waits that lie on cycles is failed whichever cycle its sender looks at, since
all waits of that cycle lie on one; and a wait is failed only on a cycle in which it is the
youngest. Where no agent has two waits, the cycles are disjoint and each loses exactly one.
-/

namespace Rimz.Reply
open Rimz.Lib Rimz.Queue

/-- The record is sent by the agent of that index, under its kind and name. -/
def SentBy (agents : List PeerRow) (record : MessageRecord) (sender : Nat) : Prop :=
  ∃ agent name agentId profile role channel, agents[sender]? = some agent ∧ agent.name = some name
    ∧ record.sender = .agent agent.kind agentId (some name) profile role channel

/-- The record is addressed to the agent of that index and to no other. -/
def AddressedTo (agents : List PeerRow) (record : MessageRecord) (receiver : Nat) : Prop :=
  receiver < agents.length ∧ ∀ i agent, agents[i]? = some agent →
    (record.sameCard agent.cardRef = true ↔ i = receiver)

/-- The turn of the agent of that index was opened by the record, and no other agent's turn was. -/
def Opened (agents : List PeerRow) (record : MessageRecord) (receiver : Nat) : Prop :=
  receiver < agents.length ∧ ∀ i agent, agents[i]? = some agent →
    (record.messageId ∈ agent.turnOpenedBy.getD [] ↔ i = receiver)

/-- A view of running agents with distinct names and cards in which every reply wait is pending:
live and addressed to another agent, or delivered and the opener of another agent's turn. -/
structure WaitView where
  agents : List PeerRow
  live : List MessageRecord
  history : List MessageRecord
  running : ∀ agent ∈ agents, agent.status = .running
  names : agents.Pairwise fun a b => a.name ≠ b.name
  cards : agents.Pairwise fun a b => a.cardRef.matches b.cardRef = false
  ids : (((live ++ history).filter (·.replyWait)).map MessageRecord.messageId).Nodup
  liveWaits : ∀ record ∈ live, record.replyWait = true →
    (record.status = .queued ∨ record.status = .claimed ∨ record.status = .sent)
      ∧ ∃ sender receiver, sender ≠ receiver ∧ SentBy agents record sender
        ∧ AddressedTo agents record receiver
  historyWaits : ∀ record ∈ history, record.replyWait = true →
    record.status = .delivered ∧ ∃ sender receiver, sender ≠ receiver
      ∧ SentBy agents record sender ∧ Opened agents record receiver

namespace WaitView
variable (view : WaitView)

/-- The edge is a pending wait of the view. -/
def IsWait (edge : WaitEdge) : Prop :=
  ∃ record, record.replyWait = true ∧ record.messageId = edge.messageId
    ∧ SentBy view.agents record edge.sender
    ∧ ((record ∈ view.live ∧ AddressedTo view.agents record edge.receiver)
      ∨ (record ∈ view.history ∧ Opened view.agents record edge.receiver))

variable {view}

lemma findIdx?_of_unique {α : Type*} {l : List α} {p i a} (hi : l[i]? = some a) (ha : p a = true)
    (unique : ∀ j b, l[j]? = some b → p b = true → j = i) : l.findIdx? p = some i := by
  obtain ⟨hlt, e⟩ := List.getElem?_eq_some_iff.mp hi
  refine List.findIdx?_eq_some_iff_getElem.mpr ⟨hlt, e ▸ ha, fun j hj => ?_⟩
  have := unique j l[j] (List.getElem?_eq_getElem (Nat.lt_trans hj hlt))
  exact fun h => absurd (this h) (Nat.ne_of_lt hj)

lemma index_of_name {i j : Nat} {a b} (hi : view.agents[i]? = some a)
    (hj : view.agents[j]? = some b) (h : a.name = b.name) : i = j := by
  obtain ⟨hilt, rfl⟩ := List.getElem?_eq_some_iff.mp hi
  obtain ⟨hjlt, rfl⟩ := List.getElem?_eq_some_iff.mp hj
  have distinct := List.pairwise_iff_getElem.mp view.names
  rcases Nat.lt_trichotomy i j with lt | rfl | gt
  · exact absurd h (distinct i j hilt hjlt lt)
  · rfl
  · exact absurd h.symm (distinct j i hjlt hilt gt)

lemma matches_comm {a b : AgentCardRef} (h : a.matches b = true) : b.matches a = true := by
  simp only [AgentCardRef.matches, and_eq_true, or_eq_true, beq_iff_eq] at h ⊢
  obtain ⟨kind, id | ⟨named, name⟩⟩ := h
  · exact ⟨kind.symm, .inl id.symm⟩
  · exact ⟨kind.symm, .inr ⟨name ▸ named, name.symm⟩⟩

lemma matches_self (a : AgentCardRef) : a.matches a = true := by simp [AgentCardRef.matches]

lemma index_of_card {i j : Nat} {a b} (hi : view.agents[i]? = some a)
    (hj : view.agents[j]? = some b) (h : a.cardRef.matches b.cardRef = true) : i = j := by
  obtain ⟨hilt, rfl⟩ := List.getElem?_eq_some_iff.mp hi
  obtain ⟨hjlt, rfl⟩ := List.getElem?_eq_some_iff.mp hj
  have distinct := List.pairwise_iff_getElem.mp view.cards
  rcases Nat.lt_trichotomy i j with lt | rfl | gt
  · exact absurd h (by simp [distinct i j hilt hjlt lt])
  · rfl
  · exact absurd (matches_comm h) (by simp [distinct j i hjlt hilt gt])

/-- The sender of a record is found where it is. -/
lemma runningSenderIndex_eq {record : MessageRecord} {sender} :
    runningSenderIndex record view.agents = some sender ↔ SentBy view.agents record sender := by
  constructor
  · intro h
    unfold runningSenderIndex at h
    split at h
    · rename_i kind agentId name profile role channel e
      obtain ⟨hlt, here, -⟩ := List.findIdx?_eq_some_iff_getElem.mp h
      simp only [and_eq_true, beq_iff_eq] at here
      refine ⟨_, name, agentId, profile, role, channel, List.getElem?_eq_getElem hlt, here.1.2, ?_⟩
      rw [here.1.1]
      exact e
    · cases h
  · rintro ⟨agent, name, agentId, profile, role, channel, hi, hname, e⟩
    simp only [runningSenderIndex, e]
    refine findIdx?_of_unique hi ?_ fun j b hj hb => ?_
    · simp [hname, view.running agent (mem_of_getElem? hi)]
    · simp only [and_eq_true, beq_iff_eq] at hb
      exact index_of_name hj hi (hb.1.2.trans hname.symm)

lemma sentBy_unique {record i j} (hi : SentBy view.agents record i)
    (hj : SentBy view.agents record j) : i = j :=
  Option.some.inj ((runningSenderIndex_eq.mpr hi).symm.trans (runningSenderIndex_eq.mpr hj))

lemma addressedTo_unique {agents record i j} (hi : AddressedTo agents record i)
    (hj : AddressedTo agents record j) : i = j := by
  have e := List.getElem?_eq_getElem hi.1
  exact (hj.2 i _ e).mp ((hi.2 i _ e).mpr rfl)

lemma opened_unique {agents record i j} (hi : Opened agents record i)
    (hj : Opened agents record j) : i = j := by
  have e := List.getElem?_eq_getElem hi.1
  exact (hj.2 i _ e).mp ((hi.2 i _ e).mpr rfl)

lemma findIdx?_of_addressed {record : MessageRecord} {receiver}
    (h : AddressedTo view.agents record receiver) :
    view.agents.findIdx? (fun agent => record.sameCard agent.cardRef) = some receiver := by
  have e := List.getElem?_eq_getElem h.1
  exact findIdx?_of_unique e ((h.2 _ _ e).mpr rfl) fun j b hj hb => (h.2 j b hj).mp hb

/-- A live wait gives its edge. -/
lemma liveEdge_eq {record} (hmem : record ∈ view.live) {edge} :
    liveEdge view.agents record = some edge ↔ record.replyWait = true
      ∧ record.messageId = edge.messageId ∧ SentBy view.agents record edge.sender
      ∧ AddressedTo view.agents record edge.receiver := by
  cases hwait : record.replyWait with
  | false => simp [liveEdge, hwait]
  | true =>
    obtain ⟨status, sender, receiver, -, sent, addressed⟩ := view.liveWaits record hmem hwait
    have pending : (record.status == .queued || record.status == .claimed
        || record.status == .sent) = true := by
      rcases status with h | h | h <;> simp [h]
    simp only [liveEdge, hwait, pending, Bool.and_self, if_true, runningSenderIndex_eq.mpr sent,
      findIdx?_of_addressed addressed, bind, bind_some, pure, Option.some.injEq, true_and]
    constructor
    · rintro rfl
      exact ⟨rfl, sent, addressed⟩
    · rintro ⟨id, sent', addressed'⟩
      rw [sentBy_unique sent sent', addressedTo_unique addressed addressed', id]

lemma record_unique {a b} (ha : a ∈ view.live ++ view.history) (hb : b ∈ view.live ++ view.history)
    (wa : a.replyWait = true) (wb : b.replyWait = true) (h : a.messageId = b.messageId) : a = b :=
  List.inj_on_of_nodup_map view.ids (mem_filter.mpr ⟨ha, wa⟩) (mem_filter.mpr ⟨hb, wb⟩) h

lemma not_live_and_history {record} (hl : record ∈ view.live) (hh : record ∈ view.history)
    (wait : record.replyWait = true) : False := by
  have nodup := view.ids
  rw [filter_append, map_append, nodup_append] at nodup
  exact nodup.2.2 _ (mem_map_of_mem (mem_filter.mpr ⟨hl, wait⟩)) _
    (mem_map_of_mem (mem_filter.mpr ⟨hh, wait⟩)) rfl

/-- Waits are told apart by their ids. -/
lemma isWait_unique {e f} (he : view.IsWait e) (hf : view.IsWait f)
    (h : e.messageId = f.messageId) : e = f := by
  obtain ⟨a, wa, ida, senta, placea⟩ := he
  obtain ⟨b, wb, idb, sentb, placeb⟩ := hf
  have memOf : ∀ {r : MessageRecord} {P Q : Prop}, (r ∈ view.live ∧ P) ∨ (r ∈ view.history ∧ Q) →
      r ∈ view.live ++ view.history := by
    rintro r P Q (h | h)
    · exact mem_append_left _ h.1
    · exact mem_append_right _ h.1
  obtain rfl := record_unique (memOf placea) (memOf placeb) wa wb (ida.trans (h.trans idb.symm))
  have receiver : e.receiver = f.receiver := by
    rcases placea with ⟨la, pa⟩ | ⟨ha, pa⟩ <;> rcases placeb with ⟨lb, pb⟩ | ⟨hb, pb⟩
    · exact addressedTo_unique pa pb
    · exact (not_live_and_history la hb wa).elim
    · exact (not_live_and_history lb ha wa).elim
    · exact opened_unique pa pb
  obtain ⟨es, er, ei⟩ := e
  obtain ⟨fs, fr, fi⟩ := f
  simp only at h receiver senta sentb
  rw [sentBy_unique senta sentb, receiver, h]

/-- The delivered waits that opened a turn give the edges into its agent. -/
lemma mem_turnEdges {receiver agent} (hi : view.agents[receiver]? = some agent) {edge} :
    edge ∈ turnEdges view.history view.agents receiver agent ↔ edge.receiver = receiver
      ∧ ∃ record ∈ view.history, record.replyWait = true ∧ record.messageId = edge.messageId
        ∧ SentBy view.agents record edge.sender ∧ Opened view.agents record receiver := by
  have running := view.running agent (mem_of_getElem? hi)
  simp only [turnEdges, running, if_true, mem_filterMap, bind, bind_eq_some_iff, pure,
    Option.some.injEq]
  constructor
  · rintro ⟨id, named, record, found, sender, sent, rfl⟩
    have test := List.find?_some found
    simp only [and_eq_true, beq_iff_eq] at test
    have hmem := List.mem_of_find?_eq_some found
    obtain ⟨-, s, t, -, -, opened⟩ := view.historyWaits record hmem test.1.2
    obtain rfl : receiver = t := (opened.2 receiver agent hi).mp (test.1.1 ▸ named)
    exact ⟨rfl, record, hmem, test.1.2, rfl, runningSenderIndex_eq.mp sent, opened⟩
  · rintro ⟨at_, record, hmem, wait, id, sent, opened⟩
    have delivered := (view.historyWaits record hmem wait).1
    refine ⟨record.messageId, (opened.2 receiver agent hi).mpr rfl, record, ?_, edge.sender,
      runningSenderIndex_eq.mpr sent, ?_⟩
    · cases found : view.history.find? fun r =>
          r.messageId == record.messageId && r.replyWait && r.status == .delivered with
      | none => exact absurd (List.find?_eq_none.mp found record hmem) (by simp [wait, delivered])
      | some r =>
        have test := List.find?_some found
        simp only [and_eq_true, beq_iff_eq] at test
        rw [record_unique (mem_append_right _ (List.mem_of_find?_eq_some found))
          (mem_append_right _ hmem) test.1.2 wait test.1.1]
    · rw [← at_, id]

/-- The guard collects the waits of the view. -/
lemma mem_waitEdges {edge} :
    edge ∈ waitEdges view.live view.history view.agents ↔ view.IsWait edge := by
  simp only [waitEdges, mem_append, mem_filterMap, mem_flatMap, Prod.exists]
  constructor
  · rintro (⟨record, hmem, e⟩ | ⟨agent, i, hrow, hedge⟩)
    · obtain ⟨wait, id, sent, addressed⟩ := (liveEdge_eq hmem).mp e
      exact ⟨record, wait, id, sent, .inl ⟨hmem, addressed⟩⟩
    · have hi : view.agents[i]? = some agent := List.mem_zipIdx_iff_getElem?.mp hrow
      obtain ⟨rfl, record, hmem, wait, id, sent, opened⟩ := (mem_turnEdges hi).mp hedge
      exact ⟨record, wait, id, sent, .inr ⟨hmem, opened⟩⟩
  · rintro ⟨record, wait, id, sent, ⟨hmem, addressed⟩ | ⟨hmem, opened⟩⟩
    · exact .inl ⟨record, hmem, (liveEdge_eq hmem).mpr ⟨wait, id, sent, addressed⟩⟩
    · have hi := List.getElem?_eq_getElem opened.1
      exact .inr ⟨_, edge.receiver, List.mem_zipIdx_iff_getElem?.mpr hi,
        (mem_turnEdges hi).mpr ⟨rfl, record, hmem, wait, id, sent, opened⟩⟩

/-! ### The search -/

/-- The path back to its sender that the guard finds for a wait. -/
def back (view : WaitView) (edge : WaitEdge) : Option (List WaitEdge) :=
  (firstPath WaitEdge.sender WaitEdge.receiver (waitEdges view.live view.history view.agents)
    edge.sender (view.agents.length + 1) edge.receiver []).1

lemma receiver_lt {edge} (h : view.IsWait edge) : edge.receiver < view.agents.length := by
  obtain ⟨_, _, _, _, place⟩ := h
  rcases place with ⟨-, addressed⟩ | ⟨-, opened⟩
  · exact addressed.1
  · exact opened.1

lemma backs : Backs WaitEdge.sender WaitEdge.receiver view.IsWait view.back where
  path e p _ found := by
    obtain ⟨path, simple, avoids⟩ := (firstPath_finds _ _ _).path _ _ _ found
    exact ⟨path.mono fun f hf => mem_waitEdges.mp hf, simple, fun h => (avoids _ h).2 rfl⟩
  exists_ e p he path lost := by
    have inside : ∀ f ∈ waitEdges view.live view.history view.agents,
        f.receiver ∈ Finset.range view.agents.length := fun f hf =>
      Finset.mem_range.mpr (receiver_lt (mem_waitEdges.mp hf))
    exact no_path_of_firstPath inside (Finset.mem_range.mpr (receiver_lt he))
      (by rw [Finset.card_range]; exact Nat.lt_succ_self _) lost p
      (path.mono fun f hf => mem_waitEdges.mpr hf)

/-! ### The verdict -/

lemma foldl_youngest_le {ids : List MessageId} {id own} :
    ids.foldl (fun best id => if best ≤ id then id else best) id ≤ own ↔ id ≤ own ∧ ∀ x ∈ ids, x ≤ own := by
  induction ids generalizing id with
  | nil => simp
  | cons y ys ih =>
    rw [foldl_cons, ih]
    simp only [mem_cons, forall_eq_or_imp, ← and_assoc]
    refine and_congr_left fun _ => ?_
    split
    · rename_i le
      exact ⟨fun h => ⟨Nat.le_trans le h, h⟩, fun h => h.2⟩
    · rename_i gt
      exact ⟨fun h => ⟨h, Nat.le_trans (Nat.le_of_not_le gt) h⟩, fun h => h.1⟩

lemma youngestWaitMessage_eq {cycle : List WaitCycleHop} {own} :
    youngestWaitMessage cycle own = own ↔ ∀ hop ∈ cycle, hop.messageId ≤ own := by
  cases cycle with
  | nil => simp [youngestWaitMessage]
  | cons first rest =>
    have le : (rest.map WaitCycleHop.messageId).foldl (fun best id => if best ≤ id then id else best)
        first.messageId ≤ own ↔ _ := foldl_youngest_le
    simp only [youngestWaitMessage, map_cons, cons_append, foldl_append,
      foldl_cons, List.foldl_nil, mem_cons, forall_eq_or_imp]
    simp only [mem_map, forall_exists_index, and_imp, forall_apply_eq_imp_iff₂] at le
    rw [← le]
    split
    · rename_i h
      exact ⟨fun _ => h, fun _ => rfl⟩
    · rename_i h
      exact ⟨fun e => absurd (Nat.le_of_eq e) h, fun h' => absurd h' h⟩

variable (agentHandle : PeerRow → List PeerRow → String)

/-- The legs of an agent are its waits, each aimed at its receiver and at no other agent. -/
structure OwnLegs (view : WaitView) (sender : Nat) (legs : List Leg) : Prop where
  wait : ∀ leg ∈ legs, leg.done = false ∧ ∃ receiver, view.IsWait ⟨sender, receiver, leg.messageId⟩
    ∧ ∀ i agent, view.agents[i]? = some agent → (leg.target.matches agent = true ↔ i = receiver)
  all : ∀ receiver messageId, view.IsWait ⟨sender, receiver, messageId⟩ →
    ∃ leg ∈ legs, leg.messageId = messageId

/-- The sender of a wait fails it when it judges its legs on the view. -/
def Failed (view : WaitView) (legs : Nat → List Leg) (edge : WaitEdge) : Prop :=
  view.IsWait edge ∧ ∃ agent name index cycle leg, view.agents[edge.sender]? = some agent
    ∧ agent.name = some name
    ∧ (index, cycle) ∈ deadlockedLegs agentHandle (legs edge.sender) view.live view.history
      view.agents agent.kind name
    ∧ (legs edge.sender)[index]? = some leg ∧ leg.messageId = edge.messageId

variable {agentHandle}

/-- The guard looks for the path back from the receiver to the sender. -/
lemma waitCycle_eq {edge : WaitEdge} {agent target name}
    (hs : view.agents[edge.sender]? = some agent)
    (hname : agent.name = some name) (ht : view.agents[edge.receiver]? = some target) :
    waitCycle agentHandle view.live view.history view.agents agent.kind name target
      = (view.back edge).map fun path => path.map (hop agentHandle view.agents) := by
  have self : view.agents.findIdx? (fun a => a.kind == agent.kind && a.name == some name)
      = some edge.sender := by
    refine findIdx?_of_unique hs (by simp [hname]) fun j b hj hb => ?_
    simp only [and_eq_true, beq_iff_eq] at hb
    exact index_of_name hj hs (hb.2.trans hname.symm)
  have other :=
    findIdx?_of_unique ht (matches_self _) fun j b hj hb => index_of_card hj ht hb
  simp only [waitCycle, self, other, bind, bind_some]
  rfl

/-- A leg fails by the verdict on the wait it stands for. -/
lemma deadlockedLeg_isSome {edge} (hw : view.IsWait edge) {agent name}
    (hs : view.agents[edge.sender]? = some agent) (hname : agent.name = some name) {leg}
    (open_ : leg.done = false) (id : leg.messageId = edge.messageId)
    (aim : ∀ i agent, view.agents[i]? = some agent → (leg.target.matches agent = true ↔ i = edge.receiver)) :
    (∃ cycle, deadlockedLeg agentHandle view.live view.history view.agents agent.kind name leg
      = some cycle) ↔ Yields view.IsWait WaitEdge.messageId view.back edge := by
  obtain ⟨target, ht⟩ : ∃ target, view.agents[edge.receiver]? = some target :=
    ⟨_, List.getElem?_eq_getElem (receiver_lt hw)⟩
  have found : view.agents.find? leg.target.matches = some target := by
    cases e : view.agents.find? leg.target.matches with
    | none =>
      have := List.find?_eq_none.mp e target (mem_of_getElem? ht)
      exact absurd ((aim _ _ ht).mpr rfl) this
    | some other =>
      obtain ⟨i, hi⟩ := List.getElem?_of_mem (List.mem_of_find?_eq_some e)
      obtain rfl := (aim i other hi).mp (List.find?_some e)
      exact hi.symm.trans ht
  simp only [deadlockedLeg, open_, false_eq_true, if_false, found, bind, bind_some,
    waitCycle_eq hs hname ht, id, beq_iff_eq, youngestWaitMessage_eq, bind_eq_some_iff,
    map_eq_some_iff]
  constructor
  · rintro ⟨cycle, path, ⟨p, hp, rfl⟩, verdict⟩
    refine ⟨hw, p, hp, fun f hf => ?_⟩
    split at verdict
    · rename_i youngest
      exact youngest _ (mem_map_of_mem hf)
    · cases verdict
  · rintro ⟨-, p, hp, above⟩
    refine ⟨_, _, ⟨p, hp, rfl⟩, if_pos fun h hh => ?_⟩
    obtain ⟨f, hf, rfl⟩ := mem_map.mp hh
    exact above f hf

/-- The waits that fail are those that yield. -/
lemma failed_iff {legs} (own : ∀ sender, OwnLegs view sender (legs sender)) {edge} :
    Failed agentHandle view legs edge ↔ Yields view.IsWait WaitEdge.messageId view.back edge := by
  constructor
  · rintro ⟨hw, agent, name, index, cycle, leg, hs, hname, hmem, hleg, id⟩
    simp only [deadlockedLegs, mem_filterMap, Prod.exists, map_eq_some_iff,
      Prod.mk.injEq] at hmem
    obtain ⟨leg', index', hrow, cycle', verdict, rfl, -⟩ := hmem
    obtain rfl : leg' = leg :=
      Option.some.inj ((List.mem_zipIdx_iff_getElem?.mp hrow).symm.trans hleg)
    obtain ⟨open_, receiver, wait, aim⟩ := (own edge.sender).wait leg' (mem_of_getElem? hleg)
    obtain rfl : receiver = edge.receiver :=
      congrArg WaitEdge.receiver (isWait_unique wait hw id)
    exact (deadlockedLeg_isSome hw hs hname open_ id aim).mp ⟨cycle', verdict⟩
  · intro yields
    have hw := yields.1
    obtain ⟨record, -, -, ⟨agent, name, -, -, -, -, hs, hname, -⟩, -⟩ := hw
    obtain ⟨leg, hmem, id⟩ := (own edge.sender).all edge.receiver edge.messageId yields.1
    obtain ⟨open_, receiver, wait, aim⟩ := (own edge.sender).wait leg hmem
    obtain rfl : receiver = edge.receiver :=
      congrArg WaitEdge.receiver (isWait_unique wait yields.1 id)
    obtain ⟨cycle, verdict⟩ : ∃ cycle, deadlockedLeg agentHandle view.live view.history view.agents
        agent.kind name leg = some cycle :=
      (deadlockedLeg_isSome yields.1 hs hname open_ id aim).mpr yields
    obtain ⟨index, hleg⟩ := List.getElem?_of_mem hmem
    refine ⟨yields.1, agent, name, index, cycle, leg, hs, hname, ?_, hleg, id⟩
    refine mem_filterMap.mpr ⟨(leg, index), List.mem_zipIdx_iff_getElem?.mpr hleg, ?_⟩
    simp [verdict]

/-- The waits form a cycle. -/
abbrev Cycle (view : WaitView) (c : List WaitEdge) : Prop :=
  IsCycle WaitEdge.sender WaitEdge.receiver view.IsWait c

end WaitView

open WaitView

/-- Wait cycles are broken by a youngest wait. When every agent judges its own waits on one view: a
cycle of waits leaves some wait on a cycle failed; a failed wait has the greatest id of a cycle it
is on; and where no agent has two pending waits, each cycle loses exactly one. -/
theorem wait_cycles_are_broken (agentHandle : PeerRow → List PeerRow → String) (view : WaitView)
    (legs : Nat → List Leg) (own : ∀ sender, OwnLegs view sender (legs sender)) :
    ((∃ c, view.Cycle c) →
        ∃ edge, (∃ c, view.Cycle c ∧ edge ∈ c) ∧ Failed agentHandle view legs edge)
      ∧ (∀ edge, Failed agentHandle view legs edge →
        ∃ c, view.Cycle c ∧ edge ∈ c ∧ ∀ other ∈ c, other.messageId ≤ edge.messageId)
      ∧ ((∀ e f, view.IsWait e → view.IsWait f → e.sender = f.sender → e = f) →
        ∀ c, view.Cycle c → ∃! edge, edge ∈ c ∧ Failed agentHandle view legs edge) := by
  refine ⟨?_, fun edge failed => ?_, fun single c cycle => ?_⟩
  · rintro ⟨c, cycle⟩
    obtain ⟨edge, onCycle, yields⟩ := exists_yields WaitEdge.messageId backs
      (fun e he => mem_waitEdges.mpr he) cycle
    exact ⟨edge, onCycle, (failed_iff own).mpr yields⟩
  · exact Yields.cycle backs ((failed_iff own).mp failed)
  · simp only [failed_iff own]
    exact existsUnique_yields backs (fun e f he hf h => isWait_unique he hf h) single cycle

/-- A running agent named by its session. -/
def peer (name : String) : PeerRow := ⟨"codex", name, some name, .running, none⟩

/-- A queued prompt whose sender waits for the reply. -/
def waitFor (sender receiver : String) (id : MessageId) : MessageRecord :=
  { (newForCard id 0 "room" "codex" receiver (some receiver) "?" true .done).toMessageRecord with
    sender := .agent "codex" (some sender) (some sender) none none none, replyWait := true }

lemma forall_pair {p : Nat → PeerRow → Prop} {a b} (ha : p 0 a) (hb : p 1 b) :
    ∀ i agent, [a, b][i]? = some agent → p i agent := by
  rintro (_ | _ | i) agent h
  · obtain rfl := Option.some.inj h
    exact ha
  · obtain rfl := Option.some.inj h
    exact hb
  · simp at h

/-- Two agents that wait for each other. -/
def mutualWait : WaitView where
  agents := [peer "a", peer "b"]
  live := [waitFor "a" "b" 1, waitFor "b" "a" 2]
  history := []
  running := by decide
  names := by decide
  cards := by decide
  ids := by decide
  liveWaits := by
    have toB : AddressedTo [peer "a", peer "b"] (waitFor "a" "b" 1) 1 :=
      ⟨by decide, forall_pair (by decide) (by decide)⟩
    have toA : AddressedTo [peer "a", peer "b"] (waitFor "b" "a" 2) 0 :=
      ⟨by decide, forall_pair (by decide) (by decide)⟩
    intro record hmem _
    simp only [mem_cons, not_mem_nil, or_false] at hmem
    rcases hmem with rfl | rfl
    · exact ⟨.inl rfl, 0, 1, by decide, ⟨peer "a", "a", _, _, _, _, rfl, rfl, rfl⟩, toB⟩
    · exact ⟨.inl rfl, 1, 0, by decide, ⟨peer "b", "b", _, _, _, _, rfl, rfl, rfl⟩, toA⟩
  historyWaits := by simp

/-- The legs of the two. -/
def mutualLegs : Nat → List Leg
  | 0 => [⟨⟨"codex", "b", some "b"⟩, 1, false⟩]
  | 1 => [⟨⟨"codex", "a", some "a"⟩, 2, false⟩]
  | _ => []

lemma mutualWait_ownLegs (sender : Nat) : OwnLegs mutualWait sender (mutualLegs sender) := by
  have edge : ∀ e, mutualWait.IsWait e ↔ e = ⟨0, 1, 1⟩ ∨ e = ⟨1, 0, 2⟩ := by
    intro e
    rw [← mem_waitEdges]
    have : waitEdges mutualWait.live mutualWait.history mutualWait.agents
        = [⟨0, 1, 1⟩, ⟨1, 0, 2⟩] := by decide
    simp [this]
  constructor
  · intro leg hleg
    match sender with
    | 0 =>
      obtain rfl := mem_singleton.mp hleg
      exact ⟨rfl, 1, (edge _).mpr (.inl rfl), forall_pair (by decide) (by decide)⟩
    | 1 =>
      obtain rfl := mem_singleton.mp hleg
      exact ⟨rfl, 0, (edge _).mpr (.inr rfl), forall_pair (by decide) (by decide)⟩
    | n + 2 => cases hleg
  · intro receiver id wait
    rcases (edge _).mp wait with e | e
    all_goals
      cases e
      exact ⟨_, mem_singleton.mpr rfl, rfl⟩

/-- One of two agents that wait for each other gives up. -/
theorem mutual_wait_is_broken :
    ∃ edge, Failed (fun _ _ => "") mutualWait mutualLegs edge := by
  have forth : mutualWait.IsWait ⟨0, 1, 1⟩ := mem_waitEdges.mp (by decide)
  have back_ : mutualWait.IsWait ⟨1, 0, 2⟩ := mem_waitEdges.mp (by decide)
  have cycle : mutualWait.Cycle [⟨0, 1, 1⟩, ⟨1, 0, 2⟩] :=
    ⟨by decide, ⟨0, .cons forth (.cons back_ .nil)⟩, by decide⟩
  obtain ⟨edge, -, failed⟩ :=
    (wait_cycles_are_broken (fun _ _ => "") mutualWait mutualLegs mutualWait_ownLegs).1 ⟨_, cycle⟩
  exact ⟨edge, failed⟩

end Rimz.Reply
