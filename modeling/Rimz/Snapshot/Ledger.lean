import Rimz.Snapshot.Project

/-!
# What an allocation does to the ledger

One lemma for each way an identity is assigned: which entries of the ledger move, and what is known
of the name and the ordinal that come out.
-/

namespace Rimz.Snapshot
open Rimz.Lib Rimz.Agents Rimz.Queue

namespace CardIdentityAllocator
variable {env : NamingEnv} {alloc alloc' : CardIdentityAllocator} {key : AgentKey}
variable {kind : AgentKind} {agentId : AgentSessionId} {prior : Option AgentState}

lemma nameAvailableFor_iff {name} :
    alloc.nameAvailableFor name key = true ↔ ∀ owner, alloc.names[name]? = some owner →
    owner = key := by
  cases h : alloc.names[name]? <;> simp [nameAvailableFor, h]

lemma mintForSession_some {taken name} (h : mintForSession env agentId taken = some name) :
    validAgentName env name = true ∧ taken name = false := by
  simp only [mintForSession, map_eq_some_iff] at h
  obtain ⟨attempt, found, rfl⟩ := h
  have := (findFrom_some found).1
  simp only [and_eq_true, not_eq_true'] at this
  exact ⟨this.1.1, this.2⟩

/-- A name goes to a key that nobody else holds it from. -/
lemma assignNameCandidate_some {candidate fallbackId name}
    (h : alloc.assignNameCandidate env key candidate prior fallbackId = some (alloc', name)) :
    alloc' = { alloc with names := alloc.names.insert name key }
      ∧ alloc.nameAvailableFor name key = true
      ∧ (candidate = some name ∨ validAgentName env name = true) := by
  simp only [assignNameCandidate, chooseName, map_eq_some_iff, Prod.mk.injEq] at h
  obtain ⟨chosen, pick, rfl, rfl⟩ := h
  refine ⟨rfl, ?_⟩
  split at pick
  case h_1 name found =>
    cases pick
    rcases Option.or_eq_some_iff.mp found with h | ⟨-, h⟩
    · obtain ⟨rfl, free⟩ := filter_eq_some_iff.mp h
      exact ⟨free, .inl rfl⟩
    · obtain ⟨named, free⟩ := filter_eq_some_iff.mp h
      exact ⟨free, .inr (filter_eq_some_iff.mp named).2⟩
  case h_2 =>
    obtain ⟨valid, free⟩ := mintForSession_some pick
    refine ⟨?_, .inr valid⟩
    rw [nameAvailableFor_iff]
    intro owner held
    simpa [held] using free

lemma assignOrdinalCandidate_some {candidate : Option Nat} {ordinal : Nat}
    (h : alloc.assignOrdinalCandidate kind agentId candidate prior = some (alloc', ordinal)) :
    ∃ next, alloc' = { alloc with
        ordinals := alloc.ordinals.insert (kind, ordinal) agentId
        nextOrdinal := next }
      ∧ alloc.ordinalAvailableFor kind agentId ordinal = true := by
  unfold assignOrdinalCandidate at h
  split at h
  case h_1 chosen found =>
    cases h
    obtain ⟨-, allowed⟩ := filter_eq_some_iff.mp found
    simp only [ordinalCandidateAllowed, and_eq_true] at allowed
    exact ⟨_, rfl, allowed.1⟩
  case h_2 =>
    simp only [map_eq_some_iff, Prod.mk.injEq] at h
    obtain ⟨next, found, rfl, rfl⟩ := h
    exact ⟨_, rfl, (findFrom_some found).1⟩

lemma numberCard_some {candidate : Option Nat} {isExplicit : String → Bool}
    {named : CardIdentityAllocator × String} {card : CardIdentity}
    (h : numberCard kind agentId candidate prior isExplicit named = some (alloc', card)) :
    ∃ next, alloc' = { named.1 with
        ordinals := named.1.ordinals.insert (kind, card.kindOrdinal) agentId
        nextOrdinal := next }
      ∧ named.1.ordinalAvailableFor kind agentId card.kindOrdinal = true
      ∧ card.name = named.2 := by
  simp only [numberCard, map_eq_some_iff, Prod.mk.injEq] at h
  obtain ⟨⟨numbered, ordinal⟩, chosen, rfl, rfl⟩ := h
  obtain ⟨next, rfl, free⟩ := assignOrdinalCandidate_some chosen
  exact ⟨next, rfl, free, rfl⟩

lemma assignObservedName_some {observation name}
    (h : alloc.assignObservedName env key observation prior = some (alloc', name)) :
    ∃ names, alloc' = { alloc with names := names } := by
  unfold assignObservedName at h
  split at h
  · obtain ⟨_, -, done⟩ := map_eq_some_iff.mp h
    cases done
    exact ⟨_, rfl⟩
  · obtain ⟨rfl, -⟩ := assignNameCandidate_some h
    exact ⟨_, rfl⟩

lemma assign_sideSessions {observation : AgentLifecycleObservation} {card : CardIdentity}
    (h : alloc.assign env kind agentId observation prior = some (alloc', card)) :
    alloc'.sideSessions = alloc.sideSessions := by
  obtain ⟨⟨mid, name⟩, named, numbered⟩ := bind_eq_some_iff.mp h
  obtain ⟨names, rfl⟩ := assignObservedName_some named
  obtain ⟨next, rfl, -⟩ := numberCard_some numbered
  rfl

end CardIdentityAllocator

/-! ### Links to other rows -/

lemma firstMinBy_mem {α : Type*} {le l} {a : α} (h : firstMinBy le l = some a) : a ∈ l := by
  induction l generalizing a with
  | nil => cases h
  | cons b rest ih =>
    simp only [firstMinBy] at h
    split at h
    · cases h; exact mem_cons_self
    cases h
    split
    · exact mem_cons_self
    · exact mem_cons_of_mem _ (ih ‹_›)

lemma launchPredecessor_some {map successor row} (h : launchPredecessor map successor = some row) :
    isLaunchPredecessor successor row = true ∧ ∃ key : AgentKey, map[key]? = some row := by
  obtain ⟨mem, accepted⟩ := mem_filter.mp (firstMinBy_mem h)
  obtain ⟨⟨key, row'⟩, entry, rfl⟩ := mem_map.mp mem
  exact ⟨accepted, key, Std.ExtTreeMap.mem_toList_iff_getElem?_eq_some.mp entry⟩

lemma assembleAgentState_parent (kind agentId timestamp payload prior card) :
    (assembleAgentState kind agentId timestamp payload prior card).parentAgentId
      = parentAfter prior payload.eventName (nonEmptyString payload.observation.parentAgentId) := by
  have trimmed : ∀ row : AgentState, row.trimEndedText.parentAgentId = row.parentAgentId := by
    intro row
    unfold AgentState.trimEndedText
    split <;> rfl
  have noted : ∀ (row : AgentState) prompt, (notePrompt row prompt).parentAgentId = row.parentAgentId := by
    intro row prompt
    cases prompt with
    | none => rfl
    | some prompt =>
      simp only [notePrompt]
      split <;> rfl
  simp only [assembleAgentState, trimmed, noteReport, noted, place]

lemma inheritLaunchIdentity_cases (map : Rows) {row} :
    inheritLaunchIdentity map row = row
      ∨ ∃ predecessor, launchPredecessor map row = some predecessor
        ∧ inheritLaunchIdentity map row = inheritFrom row predecessor := by
  unfold inheritLaunchIdentity
  split
  · exact .inl rfl
  · cases found : launchPredecessor map row with
    | none => exact .inl rfl
    | some predecessor => exact .inr ⟨predecessor, rfl, rfl⟩

end Rimz.Snapshot
