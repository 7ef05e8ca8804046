import Mathlib.Data.List.Dedup
import Rimz.Follow.Fold
import Rimz.Snapshot.Ledger

/-!
# The follower and the rollup agree on lifecycle

The follower's stored state of a session is what `EventFollower::open` would take from the session's
row. This holds along every fold of root sessions in which no event is treated by a rule that only
one of the two folds has.
-/

namespace Rimz.Follow
open Rimz.Lib Rimz.Agents Rimz.Snapshot

/-! ### What a lifecycle event leaves in the row -/

/-- The fields of a row that the follower keeps too, and the open ping. -/
def lifecycleView (row : AgentState) : FollowState × Bool := (.ofRow row, row.pingTurn)

section View
variable (row : AgentState) (prior : Option AgentState) (payload : AgentLifecyclePayload)

@[simp] lemma lifecycleView_trimEndedText : lifecycleView row.trimEndedText = lifecycleView row := by
  unfold AgentState.trimEndedText
  split <;> rfl

@[simp] lemma lifecycleView_foldUsage (kind observed retiresUsage) :
    lifecycleView (foldUsage kind row prior observed retiresUsage) = lifecycleView row := rfl

@[simp] lemma lifecycleView_place (agentId timestamp card) :
    lifecycleView (place row agentId timestamp payload prior card) = lifecycleView row := rfl

@[simp] lemma lifecycleView_notePrompt (prompt) :
    lifecycleView (notePrompt row prompt) = lifecycleView row := by
  cases prompt with
  | none => rfl
  | some prompt =>
    simp only [notePrompt]
    split <;> rfl

@[simp] lemma lifecycleView_noteReport (observation) :
    lifecycleView (noteReport row observation) = lifecycleView row := rfl

@[simp] lemma lifecycleView_inheritCompactionMarks (predecessor signal) :
    lifecycleView (inheritCompactionMarks predecessor prior signal row) = lifecycleView row := by
  unfold inheritCompactionMarks
  split <;> rfl

@[simp] lemma lifecycleView_inheritCompactionRegistration (predecessor) :
    lifecycleView (inheritCompactionRegistration predecessor row) = lifecycleView row := by
  cases predecessor <;> rfl

@[simp] lemma lifecycleView_inheritLaunchIdentity (map) :
    lifecycleView (inheritLaunchIdentity map row) = lifecycleView row := by
  unfold inheritLaunchIdentity
  split
  · rfl
  · cases launchPredecessor map row <;> rfl

lemma lifecycleView_lifecycleRow (map kind agentId timestamp card) :
    lifecycleView (ReducerState.lifecycleRow map kind agentId timestamp payload prior card)
      = lifecycleView (settle (foldLifecycle (observedBase kind agentId timestamp payload prior) prior
          timestamp payload.observation.signal payload.observation.prompt payload.observation.askQueue
          (payload.observation.stateSnapshot == some true)).1 payload prior timestamp) := by
  simp [ReducerState.lifecycleRow, ReducerState.continuedRow, assembleAgentState]

end View

/-! ### The two transitions -/

/-- The machine's step on the row, as the rollup takes it. -/
def rowStep (prior : Option AgentState) (signal : LifecycleSignal) : Transition :=
  step (prior.map (·.lifecycle)) (prior.bind (·.openAskKey)) ((prior.map (·.turnIds)).getD {}) signal

/-- A prompt of keepalives alone opens a ping on this row. -/
def opensPing (prior : Option AgentState) (signal : LifecycleSignal) (prompt : Option String) :
    Bool :=
  signal.isTurnStarted && !(rowStep prior signal).kind.isIgnored
    && prompt.any Queue.promptIsKeepaliveOnly
    && prior.any fun row => row.restsInLifecycle && row.compactingSince.isNone

@[simp] lemma step_ping (prev key ids signal) : (step prev key ids signal).ping = none := by
  simp only [step]
  split <;> rfl

@[simp] lemma snapshotTransition_ping (prior signal) :
    (snapshotTransition prior signal).ping = none :=
  rfl

lemma step_ended_status (prev key ids) : (step prev key ids .ended).next.status ≠ .waiting := by
  cases prev with
  | none => simp [step, ignoredReason, staleTurnReport, mapStatus]
  | some prev =>
    obtain ⟨status, phase, compacting⟩ := prev
    cases status <;> simp [step, ignoredReason, staleTurnReport, mapStatus]

section Edge
variable {prior : Option AgentState} {payload : AgentLifecyclePayload} {base : AgentState}
variable {timestamp : Timestamp}

lemma pingEdge_eq_none {row : AgentState} {signal keepalive stale} (hp : row.pingTurn = false)
    (hk : signal.isTurnStarted = true → stale = false → keepalive = true →
      (row.restsInLifecycle && row.compactingSince.isNone) = false) :
    row.pingEdge signal keepalive stale = none := by
  unfold AgentState.pingEdge
  cases signal with
  | turnStarted turnId =>
    cases stale with
    | true => simp
    | false =>
      cases keepalive with
      | false => simp
      | true => simp [hp, hk rfl rfl rfl]
  | turnEnded errored parked turnId | turnInterrupted turnId => simp [hp]
  | _ => rfl

lemma transition_eq_step {signal : LifecycleSignal} {prompt}
    (hp : ∀ row ∈ prior, row.pingTurn = false) (hk : opensPing prior signal prompt = false) :
    AgentState.transition prior signal (prompt.any Queue.promptIsKeepaliveOnly) false
      = rowStep prior signal := by
  cases prior with
  | none => rfl
  | some row =>
    have none_edge : row.pingEdge signal (prompt.any Queue.promptIsKeepaliveOnly)
        (rowStep (some row) signal).kind.isIgnored = none := by
      apply pingEdge_eq_none (hp row rfl)
      intro starts fresh keepalive
      simpa [opensPing, starts, fresh, keepalive] using hk
    simp only [AgentState.transition]
    rw [show step ((some row).map AgentState.lifecycle) ((some row).bind AgentState.openAskKey)
      (((some row).map AgentState.turnIds).getD {}) signal = rowStep (some row) signal from rfl,
      none_edge]
    rfl

lemma stepped_ofRow {eventName signal} :
    EventFollower.stepped (prior.map .ofRow) eventName signal
      = if signal = .ended ∧ reapedEndRestsAtIdle eventName (prior.map (·.status)) = true then
          { rowStep prior signal with
            next := { (rowStep prior signal).next with status := .idle } }
        else rowStep prior signal := by
  cases prior <;> rfl

lemma openAskAfter_nativeKey (timestamp : Timestamp) {signal status} :
    (openAskAfter prior signal status timestamp).bind (·.nativeKey)
      = EventFollower.askKeyAfter (prior.map .ofRow) signal status := by
  cases signal with
  | awaitingInput kind askId detail extra nativeKey => cases askId <;> rfl
  | _ =>
    simp only [openAskAfter, EventFollower.askKeyAfter]
    by_cases h : status = .waiting
    · cases prior <;> simp [h, FollowState.ofRow, AgentState.openAskKey]
    · simp [h]

lemma head_isSome (compacting : Bool) :
    (if compacting = true then some timestamp else none).isSome = compacting := by
  cases compacting <;> rfl

/-- A real edge leaves in the row what the follower stores. -/
lemma lifecycleView_edge (hp : ∀ row ∈ prior, row.pingTurn = false)
    (hk : opensPing prior payload.observation.signal payload.observation.prompt = false) :
    let transition := EventFollower.stepped (prior.map .ofRow) payload.eventName
      payload.observation.signal
    lifecycleView (settle (foldLifecycle base prior timestamp payload.observation.signal
        payload.observation.prompt payload.observation.askQueue false).1 payload prior timestamp)
      = (⟨transition.next,
          EventFollower.askKeyAfter (prior.map .ofRow) payload.observation.signal
            transition.next.status,
          turnIdsAfter ((prior.map (·.turnIds)).getD {}) payload.observation.signal
            transition.openedTurn⟩, false) := by
  intro transition
  have no_ping : prior.any (·.pingTurn) = false := by
    cases prior with
    | none => rfl
    | some row => exact hp row rfl
  have real : (rowStep prior payload.observation.signal).ping = none := step_ping ..
  simp only [transition, foldLifecycle, transition_eq_step hp hk]
  rw [stepped_ofRow, ← openAskAfter_nativeKey timestamp]
  generalize ht : rowStep prior payload.observation.signal = t at real ⊢
  by_cases h : payload.observation.signal = .ended
      ∧ reapedEndRestsAtIdle payload.eventName (prior.map (·.status)) = true
  · have rests : t.next.status ≠ .waiting := by
      rw [← ht, h.1]
      exact step_ended_status _ _ _
    have open_none : ∀ status : AgentStatus, status ≠ .waiting →
        openAskAfter prior .ended status timestamp = none := by
      intro status hs
      simp [openAskAfter, hs]
    simp [lifecycleView, FollowState.ofRow, settle, foldEdge, real, h, no_ping, AgentState.lifecycle,
      AgentState.openAskKey, AgentState.turnIds, open_none _ rests, open_none .idle (by decide),
      head_isSome]
  · simp [lifecycleView, FollowState.ofRow, settle, foldEdge, real, h, no_ping,
      AgentState.lifecycle, AgentState.openAskKey, AgentState.turnIds, head_isSome]

lemma snapshotTransition_next (prior : Option LifecycleState) (signal : LifecycleSignal) :
    let next := (snapshotTransition prior signal).next
    ⟨next.status, next.phase, (prior.map (·.compacting)).getD false⟩ = next := by
  cases prior <;> rfl

/-- A report of the current state leaves in the row what the follower stores, unless it is a reaped
end of an active session. -/
lemma lifecycleView_snapshot (hp : ∀ row ∈ prior, row.pingTurn = false)
    (hb : lifecycleView base = (⟨⟨base.status, base.phase, false⟩, none, {}⟩, false))
    (hr : ¬ (payload.observation.signal = .ended
      ∧ reapedEndRestsAtIdle payload.eventName (prior.map (·.status)) = true)) :
    lifecycleView (settle (foldLifecycle base prior timestamp payload.observation.signal
        payload.observation.prompt payload.observation.askQueue true).1 payload prior timestamp)
      = (⟨(snapshotTransition (prior.map (·.lifecycle)) payload.observation.signal).next, none,
          (prior.map (·.turnIds)).getD {}⟩, false) := by
  simp only [foldLifecycle, AgentState.transition, snapshotTransition_ping, settle, hr, if_true,
    if_false]
  simp only [lifecycleView, FollowState.ofRow, AgentState.lifecycle, AgentState.openAskKey,
    AgentState.turnIds, Prod.mk.injEq, FollowState.mk.injEq, LifecycleState.mk.injEq, true_and] at hb
  obtain ⟨⟨no_head, no_ask, no_ids⟩, no_ping⟩ := hb
  rw [← snapshotTransition_next]
  cases prior with
  | none =>
    simp only [foldSnapshot]
    split <;> simp [lifecycleView, FollowState.ofRow, AgentState.lifecycle, AgentState.openAskKey,
      AgentState.turnIds, no_head, no_ask, no_ids, no_ping]
  | some row =>
    simp only [foldSnapshot]
    split <;> simp [lifecycleView, FollowState.ofRow, AgentState.lifecycle, AgentState.openAskKey,
      AgentState.turnIds, no_ask, hp row rfl]

end Edge

/-! ### Runs -/

section Runs
variable {env : NamingEnv} {s : ReducerState} {f : EventFollower} {event : Event}
  {ends : List AgentKey}

/-- Signals, and lifecycle events of root sessions: with a session id, no side conversation, and no
placeholder that a first event adopts. -/
def InScope (s : ReducerState) (event : Event) : Prop :=
  match event.kind with
  | .signal _ => True
  | .agentLifecycle payload =>
    payload.observation.parentAgentId = none
      ∧ payload.observation.origin ≠ some .sideConversation
      ∧ ∃ agentId, payload.observation.agentId = some agentId
        ∧ (s.map[(event.source, agentId)]? = none →
          (payload.observation.agentName.bind fun name =>
            s.identity.adoptableOwnerForName s.map event.source name (event.source, agentId)) = none
          ∧ (payload.observation.paneId.bind fun paneId =>
            CardIdentityAllocator.adoptableOwnerForPane s.map event.source paneId
              (event.source, agentId)) = none)
  | _ => False

/-- No rule that only one of the two folds has decides the event: no keepalive opens a ping, no
reaped end comes as a report of the current state, no first event is quarantined, no placeholder on
the pane is released, and the searches of the card's name and ordinal end. -/
structure SharedRules (env : NamingEnv) (s : ReducerState) (event : Event)
    (payload : AgentLifecyclePayload) (agentId : AgentSessionId) : Prop where
  no_ping : payload.observation.stateSnapshot ≠ some true →
    opensPing s.map[(event.source, agentId)]? payload.observation.signal payload.observation.prompt
      = false
  no_reaped_report : payload.observation.stateSnapshot = some true →
    ¬ (payload.observation.signal = .ended ∧ reapedEndRestsAtIdle payload.eventName
      (s.map[(event.source, agentId)]?.map (·.status)) = true)
  not_quarantined : ReducerState.quarantineReason payload.observation.signal
    s.map[(event.source, agentId)]? payload.observation = none
  no_release : ∀ existing, s.map[(event.source, agentId)]? = some existing →
    (existing.pane.isSome && existing.endedAt.isNone) = false →
    (payload.observation.paneId.bind fun paneId =>
      CardIdentityAllocator.adoptableOwnerForPane s.map event.source paneId (event.source, agentId))
      = none
  searches_end : (s.identity.assign env event.source agentId payload.observation
    s.map[(event.source, agentId)]?).isSome = true

def Shared (env : NamingEnv) (s : ReducerState) (event : Event) : Prop :=
  ∀ payload agentId, event.kind = .agentLifecycle payload →
    payload.observation.agentId = some agentId → SharedRules env s event payload agentId

/-- Every event of the list meets both on the state the rollup is in before it. -/
def Admissible (env : NamingEnv) : ReducerState → List Event → Prop
  | _, [] => True
  | s, event :: events => InScope s event ∧ Shared env s event
    ∧ ∀ s', s.reduce env event = some s' → Admissible env s' events

/-- The session an event ends. -/
def endedKey (event : Event) : Option AgentKey :=
  match event.kind with
  | .agentLifecycle payload =>
    if payload.observation.signal = .ended then payload.observation.agentId.map (event.source, ·)
    else none
  | _ => none

/-- The two folds agree, and no session outside `ends` has ended. -/
structure Agrees (ends : List AgentKey) (f : EventFollower) (s : ReducerState) : Prop where
  states : ∀ key : AgentKey, f.states[key]? = s.map[key]?.map FollowState.ofRow
  rooted : ∀ (key : AgentKey) row, s.map[key]? = some row →
    row.pingTurn = false ∧ row.parentAgentId = none
  no_side : s.identity.sideSessions = ∅
  ended_nodup : f.ended.Nodup
  ended_sub : ∀ key ∈ f.ended, key ∈ ends

lemma pruneEnded_of_le (h : f.ended.length ≤ endedStatesRetained) : f.pruneEnded = f := by
  have : f.ended.length - endedStatesRetained = 0 := by omega
  simp [EventFollower.pruneEnded, this]

/-- A row of a root session names no parent, when no row of the map does. -/
lemma lifecycleRow_parent {map payload prior} (kind agentId timestamp card)
    (hm : ∀ (key : AgentKey) row, map[key]? = some row → row.parentAgentId = none)
    (hp : ∀ row ∈ prior, row.parentAgentId = none) (he : payload.observation.parentAgentId = none) :
    (ReducerState.lifecycleRow map kind agentId timestamp payload prior card).parentAgentId =
    none := by
  have marks : ∀ (predecessor : Option AgentState) (row : AgentState),
      (inheritCompactionMarks predecessor prior payload.observation.signal row).parentAgentId
        = row.parentAgentId := by
    intro predecessor row
    unfold inheritCompactionMarks
    split <;> rfl
  have registration : ∀ (predecessor : Option AgentState) (row : AgentState),
      (inheritCompactionRegistration predecessor row).parentAgentId = row.parentAgentId := by
    intro predecessor row
    cases predecessor <;> rfl
  have own : parentAfter prior payload.eventName none = none := by
    cases prior with
    | none => rfl
    | some row => simp [parentAfter, hp row rfl]
  simp only [ReducerState.lifecycleRow, ReducerState.continuedRow]
  rcases inheritLaunchIdentity_cases map with h | ⟨predecessor, found, h⟩
  · rw [h, registration, marks, assembleAgentState_parent, he]
    exact own
  · rw [h]
    obtain ⟨-, key, entry⟩ := launchPredecessor_some found
    exact hm key predecessor entry

/-- An event in scope is folded onto its own row, with no placeholder in between. -/
lemma resolvePrior_inScope {payload agentId} (root : payload.observation.parentAgentId = none)
    (first : s.map[(event.source, agentId)]? = none →
      (payload.observation.agentName.bind fun name =>
        s.identity.adoptableOwnerForName s.map event.source name (event.source, agentId)) = none
      ∧ (payload.observation.paneId.bind fun paneId =>
        CardIdentityAllocator.adoptableOwnerForPane s.map event.source paneId
          (event.source, agentId)) = none)
    (shared : SharedRules env s event payload agentId) :
    s.resolvePrior event.source (event.source, agentId) payload.observation
      = (s, s.map[(event.source, agentId)]?) := by
  cases held : s.map[(event.source, agentId)]? with
  | none =>
    obtain ⟨no_name, no_pane⟩ := first held
    simp [ReducerState.resolvePrior, root, held, ReducerState.adoptProvisional, no_name, no_pane,
      Std.ExtTreeMap.contains_eq_isSome_getElem?]
  | some existing =>
    have kept : s.releaseStampedProvisionalForExisting event.source (event.source, agentId)
        payload.observation = s := by
      simp only [ReducerState.releaseStampedProvisionalForExisting, held]
      split
      · rfl
      · rename_i resting
        rw [shared.no_release existing held (Bool.eq_false_iff.mpr fun h => resting (by simp [h]))]
    simp [ReducerState.resolvePrior, root, held, kept, Std.ExtTreeMap.contains_eq_isSome_getElem?]

/-- An event in scope replaces its own row. -/
lemma reduce_inScope {payload agentId} (hk : event.kind = .agentLifecycle payload)
    (hi : payload.observation.agentId = some agentId) (scope : InScope s event)
    (shared : SharedRules env s event payload agentId) (no_side : s.identity.sideSessions = ∅) :
    ∃ identity card, identity.sideSessions = ∅ ∧ s.reduce env event = some
      ⟨s.map.insert (event.source, agentId) (ReducerState.lifecycleRow s.map event.source agentId
        event.timestamp payload s.map[(event.source, agentId)]? card), identity⟩ := by
  simp only [InScope, hk] at scope
  obtain ⟨root, main, id, hid, first⟩ := scope
  obtain rfl : agentId = id := Option.some.inj (hi.symm.trans hid)
  obtain ⟨⟨identity, card⟩, assigned⟩ := isSome_iff_exists.mp shared.searches_end
  refine ⟨identity, card,
    (CardIdentityAllocator.assign_sideSessions assigned).trans no_side, ?_⟩
  simp [ReducerState.reduce, hk, ReducerState.reduceLifecycleEvent, hi, ReducerState.markSide, main,
    no_side, resolvePrior_inScope root first shared, shared.not_quarantined, assigned]

lemma ended_step (key : AgentKey) (p : Prop) [Decidable p] {ended : List AgentKey}
    (nodup : ended.Nodup) (sub : ∀ k ∈ ended, k ∈ ends) (own : p → key ∈ ends) :
    (if p then ended.filter (· ≠ key) ++ [key] else ended.filter (· ≠ key)).Nodup
      ∧ ∀ k ∈ (if p then ended.filter (· ≠ key) ++ [key] else ended.filter (· ≠ key)),
        k ∈ ends := by
  by_cases isEnd : p
  · simp only [isEnd, ↓reduceIte]
    constructor
    · refine (nodup.filter _).append (nodup_singleton key) ?_
      simp
    · intro k hk
      rcases mem_append.mp hk with h | h
      · exact sub k (List.mem_of_mem_filter h)
      · rw [mem_singleton.mp h]
        exact own isEnd
  · simp only [isEnd, ↓reduceIte]
    refine ⟨nodup.filter _, ?_⟩
    intro k hk
    exact sub k (List.mem_of_mem_filter hk)

lemma Agrees.of_pruned {f} (fits : ends.length ≤ endedStatesRetained) (h : Agrees ends f s) :
    Agrees ends f.pruneEnded s := by
  have : f.ended.length ≤ ends.length := (List.subperm_of_subset h.ended_nodup h.ended_sub).length_le
  rwa [pruneEnded_of_le (this.trans fits)]

lemma Agrees.insert {key row identity ended} (h : Agrees ends f s) (resting : row.pingTurn = false)
    (root : row.parentAgentId = none) (no_side : identity.sideSessions = ∅) (nodup : ended.Nodup)
    (sub : ∀ k ∈ ended, k ∈ ends) :
    Agrees ends ⟨f.states.insert key (.ofRow row), ended⟩ ⟨s.map.insert key row, identity⟩ where
  states k := by
    rw [get_insert, get_insert, h.states]
    split <;> rfl
  rooted k r hr := by
    rw [get_insert] at hr
    split at hr
    · cases hr
      exact ⟨resting, root⟩
    · exact h.rooted k r hr
  no_side := no_side
  ended_nodup := nodup
  ended_sub := sub

/-- The two folds of one lifecycle event agree. -/
lemma Agrees.lifecycle {payload : AgentLifecyclePayload} {agentId} (h : Agrees ends f s)
    (fits : ends.length ≤ endedStatesRetained) (hk : event.kind = .agentLifecycle payload)
    (hi : payload.observation.agentId = some agentId) (scope : InScope s event)
    (shared : SharedRules env s event payload agentId)
    (own : payload.observation.signal = .ended → (event.source, agentId) ∈ ends) :
    ∃ s', s.reduce env event = some s' ∧ Agrees ends (f.foldOne event).1 s'
      ∧ ∀ published, (f.foldOne event).2 = some (.lifecycle published) →
        s'.map[(published.kind, published.agentId)]?.map (·.status) = some published.status := by
  obtain ⟨identity, card, no_side, reduced⟩ := reduce_inScope hk hi scope shared h.no_side
  refine ⟨_, reduced, ?_⟩
  simp only [InScope, hk] at scope
  have resting : ∀ row ∈ s.map[(event.source, agentId)]?, row.pingTurn = false :=
    fun row hr => (h.rooted (event.source, agentId) row hr).1
  have view :=
    lifecycleView_lifecycleRow s.map[(event.source, agentId)]? payload s.map event.source agentId
    event.timestamp card
  have parentless := lifecycleRow_parent event.source agentId event.timestamp card
    (fun key row hr => (h.rooted key row hr).2)
    (fun row hr => (h.rooted (event.source, agentId) row hr).2) scope.1
  generalize ReducerState.lifecycleRow s.map event.source agentId event.timestamp payload
    s.map[(event.source, agentId)]? card = row at view parentless ⊢
  have prior := h.states (event.source, agentId)
  by_cases report : payload.observation.stateSnapshot = some true
  · rw [report, beq_self_eq_true, lifecycleView_snapshot resting
      (by cases s.map[(event.source, agentId)]? <;> rfl) (shared.no_reaped_report report)] at view
    obtain ⟨stored, no_ping⟩ := Prod.mk.inj view
    have folded : f.foldOne event = (⟨f.states.insert (event.source, agentId) (.ofRow row),
        f.ended.filter (· ≠ (event.source, agentId))⟩, none) := by
      simp only [EventFollower.foldOne, hk, hi, scope.2.1, report, EventFollower.foldSnapshot,
        prior, stored, ↓reduceIte]
      cases s.map[(event.source, agentId)]? <;> rfl
    rw [folded]
    constructor
    · apply h.insert no_ping parentless no_side (h.ended_nodup.filter _)
      intro k hk
      exact h.ended_sub k (List.mem_of_mem_filter hk)
    · intro published he
      cases he
  rw [beq_false_of_ne report, lifecycleView_edge resting (shared.no_ping report)] at view
  obtain ⟨stored, no_ping⟩ := Prod.mk.inj view
  have ids : (f.states[(event.source, agentId)]?.map (·.turnIds)).getD {}
      = (s.map[(event.source, agentId)]?.map (·.turnIds)).getD {} := by
    rw [prior]
    cases s.map[(event.source, agentId)]? <;> rfl
  have bounded := ended_step (event.source, agentId) (payload.observation.signal = .ended)
    h.ended_nodup h.ended_sub own
  simp only [EventFollower.foldOne, hk, hi, scope.2.1, report, ↓reduceIte, ids]
  rw [prior, ← stored]
  refine ⟨(h.insert no_ping parentless no_side bounded.1 bounded.2).of_pruned fits, ?_⟩
  intro published he
  cases he
  have status : row.status = _ := congrArg (·.lifecycle.status) stored
  simp [status]

/-- The two folds of one event agree. -/
lemma Agrees.step (h : Agrees ends f s) (fits : ends.length ≤ endedStatesRetained)
    (scope : InScope s event) (shared : Shared env s event)
    (own : ∀ key, endedKey event = some key → key ∈ ends) :
    ∃ s', s.reduce env event = some s' ∧ Agrees ends (f.foldOne event).1 s'
      ∧ ∀ published, (f.foldOne event).2 = some (.lifecycle published) →
        s'.map[(published.kind, published.agentId)]?.map (·.status) = some published.status := by
  cases hk : event.kind with
  | agentLifecycle payload =>
    have named := scope
    simp only [InScope, hk] at named
    obtain ⟨-, -, agentId, hi, -⟩ := named
    apply h.lifecycle fits hk hi scope (shared payload agentId hk hi)
    intro isEnd
    apply own
    simp [endedKey, hk, isEnd, hi]
  | signal payload =>
    refine ⟨s, by simp [ReducerState.reduce, hk], ?_⟩
    simp only [EventFollower.foldOne, hk]
    refine ⟨h, ?_⟩
    intro published he
    simp at he
  | _ => simp [InScope, hk] at scope

lemma Admissible.append {a b} (h : Admissible env s (a ++ b)) :
    Admissible env s a ∧ ∀ s', a.foldlM (ReducerState.reduce env) s = some s' →
    Admissible env s' b := by
  induction a generalizing s with
  | nil =>
    refine ⟨trivial, ?_⟩
    rintro s' ⟨⟩
    exact h
  | cons event a ih =>
    obtain ⟨scope, shared, rest⟩ := h
    refine ⟨⟨scope, shared, fun s' hs => (ih (rest s' hs)).1⟩, ?_⟩
    intro s' hs
    obtain ⟨mid, hm, hs⟩ := bind_eq_some_iff.mp hs
    exact (ih (rest mid hm)).2 s' hs

/-- The two folds of a list agree. -/
lemma Agrees.run (fits : ends.length ≤ endedStatesRetained) {events} (h : Agrees ends f s)
    (run : Admissible env s events) (own : ∀ key ∈ events.filterMap endedKey, key ∈ ends) :
    ∃ s', events.foldlM (ReducerState.reduce env) s = some s' ∧ Agrees ends (f.fold events) s' := by
  induction events generalizing f s with
  | nil => exact ⟨s, rfl, h⟩
  | cons event events ih =>
    obtain ⟨scope, shared, rest⟩ := run
    obtain ⟨mid, reduced, agrees, -⟩ := h.step fits scope shared fun key hk =>
      own key (mem_filterMap.mpr ⟨event, mem_cons_self, hk⟩)
    obtain ⟨s', folded, agrees⟩ := ih agrees (rest mid reduced) fun key hk => own key (by
      obtain ⟨e, mem, ended⟩ := mem_filterMap.mp hk
      exact mem_filterMap.mpr ⟨e, mem_cons_of_mem _ mem, ended⟩)
    exact ⟨s', by simp [List.foldlM_cons, reduced, folded], agrees⟩

lemma Agrees.empty (env : NamingEnv) (ends : List AgentKey) : Agrees ends {} (.ofSeed env ∅ {}) where
  states key := by simp [ReducerState.ofSeed]
  rooted key row h := by simp [ReducerState.ofSeed] at h
  no_side := by rfl
  ended_nodup := nodup_nil
  ended_sub := nofun

/-- From the empty state, over every list of events that both folds decide by the same rules, the
follower stores for each session the lifecycle of its row, and each event it publishes carries the
row's status after that event. -/
theorem follower_agrees_with_rollup (env : NamingEnv) (events : List Event)
    (run : Admissible env (.ofSeed env ∅ {}) events)
    (few : (events.filterMap endedKey).dedup.length < endedStatesRetained) :
    (∃ rows identity, reduceAgentStatesSeededWithIdentity env ∅ {} events = some (rows, identity)
      ∧ ∀ key : AgentKey, (EventFollower.fold {} events).states[key]? = rows[key]?.map .ofRow)
    ∧ ∀ before event after, events = before ++ event :: after →
      ∀ published, ((EventFollower.fold {} before).foldOne event).2 = some (.lifecycle published) →
      ∃ rows identity,
        reduceAgentStatesSeededWithIdentity env ∅ {} (before ++ [event]) = some (rows, identity)
        ∧ rows[(published.kind, published.agentId)]?.map (·.status) = some published.status := by
  have start := Agrees.empty env (events.filterMap endedKey).dedup
  have own : ∀ key ∈ events.filterMap endedKey, key ∈ (events.filterMap endedKey).dedup :=
    fun key hk => List.mem_dedup.mpr hk
  constructor
  · obtain ⟨s, folded, agrees⟩ := start.run few.le run own
    exact ⟨s.map, s.identity.state, by simp [reduceAgentStatesSeededWithIdentity, folded],
      agrees.states⟩
  · rintro before event after rfl published emitted
    obtain ⟨runs, rest⟩ := run.append
    obtain ⟨mid, folded, agrees⟩ := start.run few.le runs fun key hk => own key (by
      rw [filterMap_append]
      exact mem_append_left _ hk)
    obtain ⟨scope, shared, -⟩ := rest mid folded
    obtain ⟨s, reduced, -, status⟩ := agrees.step few.le scope shared fun key hk => own key (by
      simp [filterMap_append, hk])
    exact ⟨s.map, s.identity.state, by
      simp [reduceAgentStatesSeededWithIdentity, List.foldlM_append, folded, reduced],
      status published emitted⟩

end Runs

/-- A report of the one session of a short run. -/
def report (timestamp : Timestamp) (signal : LifecycleSignal) (eventName : Option String)
    (stateSnapshot : Option Bool) (prompt : Option String) : Event where
  eventId := "e"
  workspaceId := "w"
  source := "claude"
  timestamp
  kind := .agentLifecycle ⟨eventName, { agentId := some "s1", signal, stateSnapshot, prompt }⟩

/-- A session registers and starts a turn: the follower has the row of the rollup. -/
theorem follower_agrees_on_a_turn :
    let env : NamingEnv := { hashU64 := fun _ attempt => attempt }
    let events := [report 1 .registered none none none,
      report 2 (.turnStarted none) none none (some "go")]
    ∃ rows identity, reduceAgentStatesSeededWithIdentity env ∅ {} events = some (rows, identity)
      ∧ ∀ key : AgentKey, (EventFollower.fold {} events).states[key]? = rows[key]?.map .ofRow := by
  intro env events
  have scope : ∀ s timestamp signal prompt, InScope s (report timestamp signal none none prompt) :=
    fun _ _ _ _ => ⟨rfl, nofun, "s1", rfl, fun _ => ⟨rfl, rfl⟩⟩
  have plain : ∀ (s : ReducerState) timestamp signal prompt,
      (!opensPing s.map[(("claude", "s1") : AgentKey)]? signal prompt
        && (ReducerState.quarantineReason signal s.map[(("claude", "s1") : AgentKey)]?
          { agentId := some "s1", signal, stateSnapshot := none, prompt }).isNone
        && (s.identity.assign env "claude" "s1" { agentId := some "s1", signal, prompt }
          s.map[(("claude", "s1") : AgentKey)]?).isSome) = true →
      Shared env s (report timestamp signal none none prompt) := by
    rintro s timestamp signal prompt holds payload agentId ⟨⟩ ⟨⟩
    simp only [and_eq_true, not_eq_true', isNone_iff_eq_none] at holds
    obtain ⟨⟨no_ping, unquarantined⟩, found⟩ := holds
    exact ⟨fun _ => no_ping, nofun, unquarantined, fun _ _ _ => rfl, found⟩
  refine (follower_agrees_with_rollup env events
    ⟨scope _ _ _ _, plain _ _ _ _ (by decide +kernel), ?_⟩ (by decide +kernel)).1
  intro s hs
  refine ⟨scope _ _ _ _, plain _ _ _ _ ?_, fun _ _ => trivial⟩
  have second :
    (((ReducerState.ofSeed env ∅ {}).reduce env (report 1 .registered none none none)).all
      fun s => !opensPing s.map[(("claude", "s1") : AgentKey)]? (.turnStarted none) (some "go")
        && (ReducerState.quarantineReason (.turnStarted none) s.map[(("claude", "s1") : AgentKey)]?
          { agentId := some "s1", signal := .turnStarted none, stateSnapshot := none,
            prompt := some "go" }).isNone
        && (s.identity.assign env "claude" "s1"
          { agentId := some "s1", signal := .turnStarted none, prompt := some "go" }
          s.map[(("claude", "s1") : AgentKey)]?).isSome) = true := by
    decide +kernel
  rw [hs] at second
  exact second

/-- A keepalive opens a ping in the row alone; a reaped end in a report of the current state rests
the row alone; a first event without a session behind it starts a state and no row. -/
theorem follower_and_rollup_disagree :
    let env : NamingEnv := { hashU64 := fun _ attempt => attempt }
    let keepalive := "Type: CACHE_KEEPALIVE\nFrom: @rimz\nContent:\nping"
    let followed (events : List Event) : Option AgentStatus :=
      (EventFollower.fold {} events).states[(("claude", "s1") : AgentKey)]?.map (·.lifecycle.status)
    let reduced (events : List Event) : Option AgentStatus :=
      (reduceAgentStatesSeededWithIdentity env ∅ {} events).bind fun out =>
        out.1[(("claude", "s1") : AgentKey)]?.map (·.status)
    let pinged := [report 1 .registered none none none,
      report 2 (.turnStarted none) none none (some keepalive)]
    let reaped := [report 1 .registered none none none,
      report 2 (.turnStarted none) none none (some "go"),
      report 3 .ended (some "ReapedDead") (some true) none]
    let lost := [report 1 .lost none none none]
    (followed pinged = some .running ∧ reduced pinged = some .idle)
    ∧ (followed reaped = some .running ∧ reduced reaped = some .idle)
    ∧ (followed lost = some .idle ∧ reduced lost = none) := by
  decide +kernel

end Rimz.Follow
