import Rimz.Snapshot.Ledger

/-!
# When an ordinal is found

The search of `assign_ordinal_candidate` counts up with saturating arithmetic. Every ordinal on the
ledger lies behind the kind's next one, except that the counter sticks at `u32::MAX`: once another
session has that ordinal, a session without an admissible candidate is searched for without end.
-/

namespace Rimz.Snapshot
open Rimz.Lib Rimz.Agents Rimz.Queue

section Cover
variable {next : Std.ExtTreeMap AgentKind Nat} {kind : AgentKind} {n : Nat}

lemma coverOrdinal_get {k} : (coverOrdinal next kind n)[k]?
    = if kind = k then some (max (next[k]?.getD 0) (satSucc n)) else next[k]? := by
  rw [coverOrdinal, get_insert]
  split
  · next h => rw [h]
  · rfl

end Cover

/-! ### The claims of rows -/

def claimsOrdinal (kind : AgentKind) (n : Nat) (entry : AgentKey × AgentState) : Bool :=
  entry.1.1 == kind && entry.2.kindOrdinal == some n

namespace CardIdentityAllocator
variable {env : NamingEnv} {alloc : CardIdentityAllocator}

section ClaimRow
variable (key : AgentKey) (row : AgentState)

lemma claimRow_ordinals {kind n} : (alloc.claimRow env key row).ordinals[(kind, n)]?
    = alloc.ordinals[(kind, n)]?.or (if claimsOrdinal kind n (key, row) then some key.2 else none) := by
  have named : (alloc.claimName env key row).ordinals = alloc.ordinals := by
    unfold claimName
    split
    · split <;> rfl
    · rfl
  rcases Option.eq_none_or_eq_some row.kindOrdinal with hn | ⟨ordinal, hn⟩
  · simp [claimRow, claimOrdinal, claimsOrdinal, hn, named]
  simp only [claimRow, claimOrdinal, claimsOrdinal, hn, get_insertIfNew, named]
  by_cases e : (key.1, ordinal) = (kind, n)
  · cases e
    cases alloc.ordinals[(key.1, n)]? <;> simp
  · have : ¬ (key.1 = kind ∧ ordinal = n) := by simpa using e
    simp [e, this]

lemma claimRow_frame : (alloc.claimRow env key row).nextOrdinal
      = row.kindOrdinal.elim alloc.nextOrdinal (coverOrdinal alloc.nextOrdinal key.1)
    ∧ (alloc.claimRow env key row).sideSessions = alloc.sideSessions
    ∧ (alloc.claimRow env key row).consumedLaunches = alloc.consumedLaunches := by
  have named : (alloc.claimName env key row).nextOrdinal = alloc.nextOrdinal
      ∧ (alloc.claimName env key row).sideSessions = alloc.sideSessions
      ∧ (alloc.claimName env key row).consumedLaunches = alloc.consumedLaunches := by
    unfold claimName
    split
    · split <;> exact ⟨rfl, rfl, rfl⟩
    · exact ⟨rfl, rfl, rfl⟩
  simp only [claimRow, claimOrdinal]
  cases row.kindOrdinal <;> simp [named]

end ClaimRow

end CardIdentityAllocator

/-! ### Allocators of a history -/

/-- The counters are `u32`s. -/
def Bounded (next : Std.ExtTreeMap AgentKind Nat) : Prop :=
  ∀ (kind : AgentKind) (m : Nat), next[kind]? = some m → m ≤ u32Max

/-- The allocators of any history: seeded from rows and counters, then changed as the reducer and
the backfill change them. -/
inductive Arises (env : NamingEnv) : CardIdentityAllocator → Prop
  | seeded (map : Rows) (state : AgentIdentityState) (u32 : Bounded state.nextOrdinal) :
      Arises env (.fromMapAndState env map state)
  | renamed {alloc : CardIdentityAllocator} (names : Std.ExtTreeMap String AgentKey) :
      Arises env alloc → Arises env { alloc with names := names }
  | marked {alloc : CardIdentityAllocator} (agentId : AgentSessionId) :
      Arises env alloc → Arises env (alloc.markSideSession agentId)
  | released {alloc : CardIdentityAllocator} (key : AgentKey) :
      Arises env alloc → Arises env (alloc.releaseKey key)
  | consumed {alloc : CardIdentityAllocator} (key : AgentKey) :
      Arises env alloc → Arises env (alloc.consumeLaunchKey key)
  | reset {alloc : CardIdentityAllocator} : Arises env alloc → Arises env alloc.resetOrdinals
  | numbered {alloc alloc' : CardIdentityAllocator} {kind : AgentKind} {agentId : AgentSessionId}
      {candidate : Option Nat} {prior : Option AgentState} {ordinal : Nat} :
      Arises env alloc →
      alloc.assignOrdinalCandidate kind agentId candidate prior = some (alloc', ordinal) →
      Arises env alloc'

section Reserved

/-- Every ordinal on the ledger lies behind its kind's next one, as far as the counter goes. -/
structure Reserved (alloc : CardIdentityAllocator) : Prop where
  bounded : Bounded alloc.nextOrdinal
  behind : ∀ (kind : AgentKind) (n : Nat) (id : AgentSessionId), alloc.ordinals[(kind, n)]? =
    some id → ∃ m, alloc.nextOrdinal[kind]? = some m ∧ satSucc n ≤ m

variable {env : NamingEnv} {alloc alloc' : CardIdentityAllocator} {kind : AgentKind}
  {agentId : AgentSessionId} {candidate : Option Nat} {prior : Option AgentState} {ordinal : Nat}

lemma satSucc_le (n : Nat) : satSucc n ≤ u32Max := Nat.min_le_right _ _

lemma Bounded.coverOrdinal {next} (h : Bounded next) (kind : AgentKind) (n : Nat) :
    Bounded (coverOrdinal next kind n) := by
  intro k m hm
  rw [coverOrdinal_get] at hm
  split at hm
  · cases hm
    apply Nat.max_le.mpr
    refine ⟨?_, satSucc_le n⟩
    cases hk : next[k]? with
    | none => exact Nat.zero_le _
    | some m => exact h k m hk
  · exact h k m hm

lemma Reserved.enter (h : Reserved alloc) (hbounded : Bounded alloc'.nextOrdinal)
    (hnext : ∀ (k : AgentKind) (m : Nat), alloc.nextOrdinal[k]? = some m →
      ∃ m', alloc'.nextOrdinal[k]? = some m' ∧ m ≤ m')
    (hentries : ∀ (k : AgentKind) (n : Nat) (id : AgentSessionId), alloc'.ordinals[(k, n)]? =
      some id → (∃ id', alloc.ordinals[(k, n)]? = some id')
        ∨ ∃ m, alloc'.nextOrdinal[k]? = some m ∧ satSucc n ≤ m) : Reserved alloc' where
  bounded := hbounded
  behind k n id hid := by
    rcases hentries k n id hid with ⟨id', hold⟩ | hnew
    · obtain ⟨m, hm, hle⟩ := h.behind k n id' hold
      obtain ⟨m', hm', hle'⟩ := hnext k m hm
      exact ⟨m', hm', Nat.le_trans hle hle'⟩
    · exact hnew

lemma coverOrdinal_mono {next n} {k : AgentKind} {m} (hm : next[k]? = some m) :
    ∃ m', (coverOrdinal next kind n)[k]? = some m' ∧ m ≤ m' := by
  rw [coverOrdinal_get]
  split
  · exact ⟨_, rfl, by rw [hm]; exact Nat.le_max_left _ _⟩
  · exact ⟨m, hm, Nat.le_refl _⟩

lemma coverOrdinal_self {next kind n} :
    ∃ m, (coverOrdinal next kind n)[kind]? = some m ∧ satSucc n ≤ m := by
  rw [coverOrdinal_get, if_pos rfl]
  exact ⟨_, rfl, Nat.le_max_right _ _⟩

/-- A row's claims keep the ledger reserved. -/
lemma Reserved.claimRow (h : Reserved alloc) (key : AgentKey) (row : AgentState) :
    Reserved (alloc.claimRow env key row) := by
  have hnext : (alloc.claimRow env key row).nextOrdinal
      = row.kindOrdinal.elim alloc.nextOrdinal (coverOrdinal alloc.nextOrdinal key.1) :=
    (CardIdentityAllocator.claimRow_frame key row).1
  apply h.enter
  · rw [hnext]
    cases row.kindOrdinal with
    | none => exact h.bounded
    | some n => exact h.bounded.coverOrdinal key.1 n
  · intro k m hm
    rw [hnext]
    cases row.kindOrdinal with
    | none => exact ⟨m, hm, Nat.le_refl _⟩
    | some n => exact coverOrdinal_mono hm
  · intro k n id hid
    rw [CardIdentityAllocator.claimRow_ordinals] at hid
    rcases Option.or_eq_some_iff.mp hid with hold | ⟨_, hclaim⟩
    · exact .inl ⟨id, hold⟩
    have hclaims : claimsOrdinal k n (key, row) = true := by
      by_contra hnot
      rw [if_neg hnot] at hclaim
      cases hclaim
    obtain ⟨hkind, hordinal⟩ : key.1 = k ∧ row.kindOrdinal = some n := by
      simpa [claimsOrdinal] using hclaims
    rw [hnext, hordinal, ← hkind]
    exact .inr (coverOrdinal_self)

lemma Reserved.seeded (map : Rows) (state : AgentIdentityState) (h : Bounded state.nextOrdinal) :
    Reserved (.fromMapAndState env map state) := by
  have claimAll (l : List (AgentKey × AgentState)) {alloc : CardIdentityAllocator}
      (h : Reserved alloc) :
      Reserved (l.foldl (fun alloc entry => alloc.claimRow env entry.1 entry.2) alloc) := by
    induction l generalizing alloc with
    | nil => exact h
    | cons entry l ih => exact ih (h.claimRow entry.1 entry.2)
  refine claimAll _ ⟨h, fun kind n id hid => ?_⟩
  simp at hid

lemma Reserved.firstOrdinal_le (h : Reserved alloc) (kind : AgentKind) :
    alloc.firstOrdinal kind ≤ u32Max := by
  have hone : 1 ≤ u32Max := by decide
  apply Nat.max_le.mpr
  refine ⟨?_, hone⟩
  cases hk : alloc.nextOrdinal[kind]? with
  | none => exact hone
  | some m => exact h.bounded kind m hk

/-- An assignment enters an ordinal behind the counter. -/
lemma Reserved.numbered (h : Reserved alloc)
    (hassign : alloc.assignOrdinalCandidate kind agentId candidate prior = some (alloc', ordinal)) :
    Reserved alloc' := by
  have hentries {next : Std.ExtTreeMap AgentKind Nat}
      (hself : ∃ m, next[kind]? = some m ∧ satSucc ordinal ≤ m) (k : AgentKind) (n : Nat) (id : AgentSessionId)
      (hid : (alloc.ordinals.insert (kind, ordinal) agentId)[(k, n)]? = some id) :
      (∃ id', alloc.ordinals[(k, n)]? = some id') ∨ ∃ m, next[k]? = some m ∧ satSucc n ≤ m := by
    rw [get_insert] at hid
    split at hid
    · next hkey =>
      cases hkey
      exact .inr hself
    · exact .inl ⟨id, hid⟩
  unfold CardIdentityAllocator.assignOrdinalCandidate at hassign
  split at hassign
  · cases hassign
    exact h.enter (h.bounded.coverOrdinal kind ordinal) (fun k m hm => coverOrdinal_mono hm)
      (hentries (coverOrdinal_self))
  obtain ⟨next, hfound, heq⟩ := map_eq_some_iff.mp hassign
  cases heq
  obtain ⟨-, hbelow, habove⟩ := findFrom_some hfound
  have hgrows : ordinal ≤ satSucc ordinal := by
    simp only [satSucc]
    omega
  refine h.enter ?_ ?_ (hentries ⟨_, by rw [get_insert, if_pos rfl], Nat.le_refl _⟩)
  · intro k m hm
    rw [get_insert] at hm
    split at hm
    · cases hm
      exact satSucc_le ordinal
    · exact h.bounded k m hm
  · intro k m hm
    rw [get_insert]
    split
    · next hkind =>
      subst hkind
      refine ⟨_, rfl, ?_⟩
      have hstart : m ≤ alloc.firstOrdinal kind := by
        rw [CardIdentityAllocator.firstOrdinal, hm]
        exact Nat.le_max_left _ _
      omega
    · exact ⟨m, hm, Nat.le_refl _⟩

/-- Every allocator of a history is reserved. -/
lemma Arises.reserved (h : Arises env alloc) : Reserved alloc := by
  induction h with
  | seeded map state u32 => exact .seeded map state u32
  | renamed names _ ih | marked agentId _ ih => exact ⟨ih.bounded, ih.behind⟩
  | released key _ ih =>
    refine ⟨ih.bounded, fun kind n id hid => ?_⟩
    have hid : (Std.ExtTreeMap.filter (fun _ owner => owner != key.2) _)[(kind, n)]? = some id := hid
    rw [get_filter] at hid
    exact ih.behind kind n id (filter_eq_some_iff.mp hid).1
  | consumed key _ ih =>
    unfold CardIdentityAllocator.consumeLaunchKey
    split
    · exact ⟨ih.bounded, ih.behind⟩
    · exact ih
  | reset _ _ =>
    constructor
    · intro kind m hm
      simp [CardIdentityAllocator.resetOrdinals] at hm
    · intro kind n id hid
      simp [CardIdentityAllocator.resetOrdinals] at hid
  | numbered _ hassign ih => exact ih.numbered hassign

/-! ## The reducer -/

lemma Arises.numberCard {isExplicit named card} (h : Arises env named.1)
    (hcard : CardIdentityAllocator.numberCard kind agentId candidate prior isExplicit named
      = some (alloc', card)) :
    Arises env alloc' := by
  obtain ⟨⟨numbered, ordinal⟩, hassign, heq⟩ := map_eq_some_iff.mp hcard
  cases heq
  exact h.numbered hassign

lemma Arises.assign {observation card} (h : Arises env alloc)
    (hassign : alloc.assign env kind agentId observation prior = some (alloc', card)) :
    Arises env alloc' := by
  obtain ⟨⟨mid, name⟩, hname, hcard⟩ := bind_eq_some_iff.mp hassign
  obtain ⟨names, rfl⟩ := CardIdentityAllocator.assignObservedName_some hname
  exact (h.renamed names).numberCard hcard

lemma Arises.assignLaunch {payload card} (h : Arises env alloc)
    (hassign : alloc.assignLaunch env kind agentId payload prior = some (alloc', card)) :
    Arises env alloc' := by
  obtain ⟨⟨mid, name⟩, hname, hcard⟩ := bind_eq_some_iff.mp hassign
  obtain ⟨rfl, -⟩ := CardIdentityAllocator.assignNameCandidate_some hname
  exact (h.renamed _).numberCard hcard

section Reducer
variable {s s' : ReducerState}

section
variable (h : Arises env s.identity)
include h

section
variable (key : AgentKey)
include key

lemma Arises.retireProvisional :
    Arises env (s.retireProvisional key).1.identity := (h.released key).consumed key

section
variable (observation : AgentLifecycleObservation)
include observation

lemma Arises.adoptProvisional :
    Arises env (s.adoptProvisional kind key observation).1.identity := by
  unfold ReducerState.adoptProvisional
  extract_lets byName named
  have retired : Arises env named.1.identity := by
    clear_value byName
    cases byName with
    | none => exact h
    | some owner => exact h.retireProvisional owner
  split
  · exact retired
  · split
    · exact retired.retireProvisional _
    · exact retired

lemma Arises.releaseStamped :
    Arises env (s.releaseStampedProvisionalForExisting kind key observation).identity := by
  unfold ReducerState.releaseStampedProvisionalForExisting
  split
  · exact h
  split
  · exact h
  split
  · exact h
  dsimp only
  split
  all_goals exact h.retireProvisional _

lemma Arises.resolvePrior :
    Arises env (s.resolvePrior kind key observation).1.identity := by
  unfold ReducerState.resolvePrior
  split
  · exact h
  · split
    · exact h.releaseStamped key observation
    · exact h.adoptProvisional key observation

lemma Arises.markSide :
    Arises env (s.markSide key observation).identity := by
  unfold ReducerState.markSide
  split
  · exact (h.marked key.2).released key
  · exact h

end

end

lemma Arises.reduceLifecycleEvent {event payload}
    (hreduce : s.reduceLifecycleEvent env event payload = some s') : Arises env s'.identity := by
  unfold ReducerState.reduceLifecycleEvent at hreduce
  dsimp only at hreduce
  split at hreduce
  · cases hreduce
    exact h
  rename_i agentId _
  have hside := h.markSide (event.source, agentId) payload.observation
  have hprior : Arises env
      ((s.markSide (event.source, agentId) payload.observation).resolvePrior event.source
        (event.source, agentId) payload.observation).1.identity := hside.resolvePrior _ _
  split at hreduce
  · cases hreduce
    exact hside
  split at hreduce
  · cases hreduce
    exact hprior
  · obtain ⟨⟨identity, card⟩, hassign, heq⟩ := map_eq_some_iff.mp hreduce
    cases heq
    exact hprior.assign hassign

lemma Arises.reduceAgentLaunch {event payload}
    (hreduce : s.reduceAgentLaunch env event payload = some s') :
    Arises env s'.identity := by
  unfold ReducerState.reduceAgentLaunch at hreduce
  dsimp only at hreduce
  split at hreduce
  · cases hreduce
    exact h
  split at hreduce
  · cases hreduce
    exact h
  split at hreduce
  · cases hreduce
    exact h.consumed _
  split at hreduce
  · cases hreduce
    exact h
  · obtain ⟨⟨identity, card⟩, hassign, heq⟩ := map_eq_some_iff.mp hreduce
    cases heq
    exact h.assignLaunch hassign

lemma Arises.reduce {event} (hreduce : s.reduce env event = some s') : Arises env s'.identity := by
  unfold ReducerState.reduce at hreduce
  cases hkind : event.kind with
  | sessionRebirth =>
    rw [hkind] at hreduce
    cases hreduce
    exact h.reset
  | agentLaunch payload =>
    rw [hkind] at hreduce
    exact h.reduceAgentLaunch hreduce
  | agentLifecycle payload =>
    rw [hkind] at hreduce
    exact h.reduceLifecycleEvent hreduce
  | agentAttach payload =>
    rw [hkind] at hreduce
    cases hreduce
    unfold ReducerState.reduceAgentAttach
    dsimp only
    split <;> exact h
  | _ =>
    rw [hkind] at hreduce
    cases hreduce
    exact h

end

lemma arises_of_reduced {seed identity} {events : List Event} (hu32 : Bounded identity.nextOrdinal)
    (hreduce : events.foldlM (ReducerState.reduce env) (ReducerState.ofSeed env seed identity) = some s) :
    Arises env s.identity := by
  have run (events : List Event) {s s' : ReducerState} (h : Arises env s.identity)
      (hreduce : events.foldlM (ReducerState.reduce env) s = some s') : Arises env s'.identity := by
    induction events generalizing s with
    | nil =>
      cases hreduce
      exact h
    | cons event events ih =>
      obtain ⟨mid, hfirst, hrest⟩ := bind_eq_some_iff.mp hreduce
      exact ih (h.reduce hfirst) hrest
  exact run events (.seeded seed identity hu32) hreduce

end Reducer

/-! ## The search -/

lemma Reserved.search_eq_none (h : Reserved alloc) {owner}
    (howner : alloc.ordinals[(kind, u32Max)]? = some owner) (hother : owner ≠ agentId) :
    findFrom (alloc.ordinalAvailableFor kind agentId) (u32Max + 1 - alloc.firstOrdinal kind)
      (alloc.firstOrdinal kind) = none := by
  obtain ⟨m, hm, hle⟩ := h.behind kind u32Max owner howner
  have hmax : satSucc u32Max = u32Max := by simp only [satSucc]; omega
  have hfirst : alloc.firstOrdinal kind = u32Max := by
    apply Nat.le_antisymm (h.firstOrdinal_le kind)
    rw [CardIdentityAllocator.firstOrdinal, hm]
    exact Nat.le_trans (hmax ▸ hle) (Nat.le_max_left _ _)
  have htaken : alloc.ordinalAvailableFor kind agentId u32Max = false := by
    simp [CardIdentityAllocator.ordinalAvailableFor, howner, hother]
  rw [hfirst, Nat.add_sub_cancel_left]
  simp [findFrom, htaken]

lemma available_iff : alloc.ordinalAvailableFor kind agentId ordinal = true
    ↔ ∀ owner, alloc.ordinals[(kind, ordinal)]? = some owner → owner = agentId := by
  cases h : alloc.ordinals[(kind, ordinal)]? <;> simp [CardIdentityAllocator.ordinalAvailableFor, h]

/-- An ordinal that no other session owns is assigned, exactly where the candidate is admitted or
the last ordinal of the kind is not another session's. -/
lemma Reserved.assigned_iff (h : Reserved alloc) :
    (∃ alloc' ordinal, alloc.assignOrdinalCandidate kind agentId candidate prior
          = some (alloc', ordinal)
        ∧ ∀ owner, alloc.ordinals[(kind, ordinal)]? = some owner → owner = agentId)
      ↔ (∃ ordinal, candidate = some ordinal
          ∧ alloc.ordinalCandidateAllowed kind agentId ordinal prior = true)
        ∨ ∀ owner, alloc.ordinals[(kind, u32Max)]? = some owner → owner = agentId := by
  have hfresh {alloc' : CardIdentityAllocator} {ordinal : Nat}
      (hassign : alloc.assignOrdinalCandidate kind agentId candidate prior
        = some (alloc', ordinal)) :
      ∀ owner, alloc.ordinals[(kind, ordinal)]? = some owner → owner = agentId := by
    obtain ⟨_, _, hfree⟩ := CardIdentityAllocator.assignOrdinalCandidate_some hassign
    exact available_iff.mp hfree
  cases hcandidate : candidate.filter (alloc.ordinalCandidateAllowed kind agentId · prior) with
  | some ordinal =>
    obtain ⟨hsome, hallowed⟩ := filter_eq_some_iff.mp hcandidate
    have hassign : alloc.assignOrdinalCandidate kind agentId candidate prior
        = some ({ alloc with
          ordinals := alloc.ordinals.insert (kind, ordinal) agentId
          nextOrdinal := coverOrdinal alloc.nextOrdinal kind ordinal }, ordinal) := by
      simp only [CardIdentityAllocator.assignOrdinalCandidate, hcandidate]
    exact iff_of_true ⟨_, ordinal, hassign, hfresh hassign⟩ (.inl ⟨ordinal, hsome, hallowed⟩)
  | none =>
    have hrefused : ¬∃ ordinal, candidate = some ordinal
        ∧ alloc.ordinalCandidateAllowed kind agentId ordinal prior = true := by
      rintro ⟨ordinal, hsome, hallowed⟩
      rw [filter_eq_some_iff.mpr ⟨hsome, hallowed⟩] at hcandidate
      cases hcandidate
    rw [or_iff_right hrefused, ← available_iff]
    constructor
    · rintro ⟨alloc', ordinal, hassign, _⟩
      rw [available_iff]
      intro owner howner
      by_contra hother
      simp only [CardIdentityAllocator.assignOrdinalCandidate, hcandidate,
        h.search_eq_none howner hother] at hassign
      cases hassign
    · intro hlast
      have hfirst := h.firstOrdinal_le kind
      have hfound : (findFrom (alloc.ordinalAvailableFor kind agentId)
          (u32Max + 1 - alloc.firstOrdinal kind) (alloc.firstOrdinal kind)).isSome = true :=
        findFrom_isSome hlast hfirst (by omega)
      obtain ⟨next, hnext⟩ := isSome_iff_exists.mp hfound
      have hassign : alloc.assignOrdinalCandidate kind agentId candidate prior
          = some ({ alloc with
            ordinals := alloc.ordinals.insert (kind, next) agentId
            nextOrdinal := alloc.nextOrdinal.insert kind (satSucc next) }, next) := by
        simp only [CardIdentityAllocator.assignOrdinalCandidate, hcandidate, hnext, map_some]
      exact ⟨_, next, hassign, hfresh hassign⟩

end Reserved

/-- The reducer's allocators are among those that arise, and in every one that does,
`assign_ordinal_candidate` returns an ordinal no other session of the kind owns if and only if the
candidate is admitted or `u32::MAX` is not another session's. -/
theorem ordinal_assigned_iff (env : NamingEnv) :
    (∀ (seed : Rows) (identity : AgentIdentityState) (events : List Event) (s : ReducerState),
      Bounded identity.nextOrdinal →
      events.foldlM (ReducerState.reduce env) (ReducerState.ofSeed env seed identity) = some s →
      Arises env s.identity)
    ∧ ∀ alloc, Arises env alloc →
      ∀ (kind : AgentKind) (agentId : AgentSessionId) (candidate : Option Nat)
        (prior : Option AgentState),
        (∃ alloc' ordinal, alloc.assignOrdinalCandidate kind agentId candidate prior
              = some (alloc', ordinal)
            ∧ ∀ owner, alloc.ordinals[(kind, ordinal)]? = some owner → owner = agentId)
          ↔ (∃ ordinal, candidate = some ordinal
              ∧ alloc.ordinalCandidateAllowed kind agentId ordinal prior = true)
            ∨ ∀ owner, alloc.ordinals[(kind, u32Max)]? = some owner → owner = agentId :=
  ⟨fun _ _ _ _ hu32 hreduce => arises_of_reduced hu32 hreduce,
    fun _ h _ _ _ _ => h.reserved.assigned_iff⟩

/-- A session of kind `claude` registers under a name, with the ordinal its launch carried. -/
def registration (agentId name : String) (kindOrdinal : Option Nat) : Event where
  eventId := agentId
  workspaceId := "w1"
  source := "claude"
  timestamp := 0
  kind := .agentLifecycle
    ⟨none, { agentId := some agentId
             signal := .registered
             agentName := some name
             launch := { kindOrdinal := kindOrdinal } }⟩

/-- Two sessions have registered, the first with ordinal 7. -/
def twoRegistered : Option ReducerState :=
  [registration "s1" "amber-fox" (some 7), registration "s2" "brave-owl" none].foldlM
    (ReducerState.reduce ⟨fun _ _ => 0, []⟩) (.ofSeed ⟨fun _ _ => 0, []⟩ ∅ {})

lemma twoRegistered_isSome : twoRegistered.isSome = true := by decide +kernel

/-- A third session's launch carries ordinal 7 as well: it is refused, and the search goes on behind
the two that are taken. -/
theorem ordinal_assigned_past_taken : ∃ s, twoRegistered = some s
    ∧ s.identity.ordinals.toList = [(("claude", 7), "s1"), (("claude", 8), "s2")]
    ∧ s.identity.ordinalCandidateAllowed "claude" "s3" 7 none = false
    ∧ ∃ alloc' ordinal, s.identity.assignOrdinalCandidate "claude" "s3" (some 7) none
        = some (alloc', ordinal)
      ∧ ∀ owner, s.identity.ordinals[("claude", ordinal)]? = some owner → owner = "s3" := by
  refine ⟨twoRegistered.get twoRegistered_isSome, by simp, by decide +kernel, by decide +kernel, ?_⟩
  obtain ⟨arises, assigned⟩ := ordinal_assigned_iff ⟨fun _ _ => 0, []⟩
  have harises :=
    arises ∅ {} _ (twoRegistered.get twoRegistered_isSome) (fun kind m hm => by simp at hm)
    (Option.some_get twoRegistered_isSome).symm
  refine (assigned _ harises "claude" "s3" (some 7) none).mpr (.inr fun owner howner => ?_)
  have free : (twoRegistered.get twoRegistered_isSome).identity.ordinals[("claude", u32Max)]?
      = none := by decide +kernel
  cases free.symm.trans howner

/-- A session registers with the ordinal `u32::MAX`; the reducer does not come back from the
registration of the next one of its kind. -/
theorem last_ordinal_blocks_the_fold :
    (reduceAgentStatesSeededWithIdentity ⟨fun _ _ => 0, []⟩ ∅ {}
        [registration "s1" "amber-fox" (some u32Max)]).isSome = true
      ∧ (reduceAgentStatesSeededWithIdentity ⟨fun _ _ => 0, []⟩ ∅ {}
        [registration "s1" "amber-fox" (some u32Max), registration "s2" "brave-owl" none]).isNone
          = true := by
  decide +kernel

end Rimz.Snapshot
