import Mathlib.Data.List.Sort
import Rimz.Agents.Petname
import Rimz.Snapshot.Event

/-!
# Card identities

`store/snapshot/project/identity.rs`: the ledger of names and ordinals that launches, observations
and backfills allocate from. A search for a free name or ordinal that runs out of numbers is `none`:
the source's loop does not come back from it.
-/

namespace Rimz.Snapshot
open Rimz.Lib Rimz.Agents Rimz.Queue

/-- The rows of the fold, by key. -/
abbrev Rows := Std.ExtTreeMap AgentKey AgentState pairCmp

/-- The part of the ledger that a fold hands on. -/
structure AgentIdentityState where
  names : Std.ExtTreeMap String AgentKey := ∅
  nextOrdinal : Std.ExtTreeMap AgentKind Nat := ∅
  consumedLaunches : Std.ExtTreeSet AgentSessionId := ∅
  sideSessions : Std.ExtTreeSet AgentSessionId := ∅

/-- Move a kind's next ordinal past `ordinal`. -/
def coverOrdinal (next : Std.ExtTreeMap AgentKind Nat) (kind : AgentKind) (ordinal : Nat) :
    Std.ExtTreeMap AgentKind Nat :=
  next.insert kind (max (next[kind]?.getD 0) (satSucc ordinal))

namespace AgentIdentityState

end AgentIdentityState

structure CardIdentity where
  name : String
  nameExplicit : Bool
  kindOrdinal : Nat

structure CardIdentityAllocator extends AgentIdentityState where
  ordinals : Std.ExtTreeMap (AgentKind × Nat) AgentSessionId pairCmp := ∅

namespace CardIdentityAllocator

/-- A root row claims its valid name, where no earlier claim stands in the way. -/
def claimName (env : NamingEnv) (alloc : CardIdentityAllocator) (key : AgentKey)
    (row : AgentState) : CardIdentityAllocator :=
  match row.name with
  | some name =>
    if !row.isProviderSubagent && validAgentName env name then
      { alloc with names := alloc.names.insertIfNew name key }
    else alloc
  | none => alloc

def claimOrdinal (alloc : CardIdentityAllocator) (key : AgentKey) (row : AgentState) :
    CardIdentityAllocator :=
  match row.kindOrdinal with
  | some ordinal =>
    { alloc with
      ordinals := alloc.ordinals.insertIfNew (key.1, ordinal) key.2
      nextOrdinal := coverOrdinal alloc.nextOrdinal key.1 ordinal }
  | none => alloc

def claimRow (env : NamingEnv) (alloc : CardIdentityAllocator) (key : AgentKey) (row : AgentState) :
    CardIdentityAllocator :=
  (alloc.claimName env key row).claimOrdinal key row

/-- `from_map_and_state`: names whose owner has no row any more are dropped, then every row claims
what it carries. -/
def fromMapAndState (env : NamingEnv) (map : Rows) (state : AgentIdentityState) :
    CardIdentityAllocator :=
  let kept : CardIdentityAllocator :=
    { state with
      names := state.names.filter fun _ owner => map[owner]?.any fun row => !row.isProviderSubagent
      ordinals := ∅ }
  map.toList.foldl (fun alloc entry => alloc.claimRow env entry.1 entry.2) kept

/-- `state`. The consumed launches stay behind. -/
def state (alloc : CardIdentityAllocator) : AgentIdentityState :=
  { names := alloc.names
    nextOrdinal := alloc.ordinals.toList.foldl (fun next entry => coverOrdinal next entry.1.1 entry.1.2)
      alloc.nextOrdinal
    consumedLaunches := ∅
    sideSessions := alloc.sideSessions }

def markSideSession (alloc : CardIdentityAllocator) (agentId : AgentSessionId) :
    CardIdentityAllocator :=
  { alloc with sideSessions := alloc.sideSessions.insert agentId }

def resetOrdinals (alloc : CardIdentityAllocator) : CardIdentityAllocator :=
  { alloc with ordinals := ∅, nextOrdinal := ∅ }

/-- `adoptable_owner_for_name`: the named row, when it is a placeholder or has no ordinal or
pane. -/
def adoptableOwnerForName (alloc : CardIdentityAllocator) (map : Rows) (kind : AgentKind)
    (name : String) (newKey : AgentKey) : Option AgentKey :=
  match alloc.names[name]? with
  | none => none
  | some owner =>
    if owner.1 ≠ kind ∨ owner = newKey then none
    else if isProvisional owner.2 then some owner
    else match map[owner]? with
      | none => none
      | some prior => if prior.kindOrdinal.isNone || prior.pane.isNone then some owner else none

/-- `(registered_at, kind_ordinal)` under the derived order, `None` first. -/
def adoptionRank (row : AgentState) : Option Timestamp × Option Nat :=
  (row.registeredAt, row.kindOrdinal)

/-- The order of two ranks. -/
def rankLe (a b : Option Timestamp × Option Nat) : Bool :=
  (compareLex (compareOn Prod.fst) (compareOn Prod.snd) a b).isLE

/-- `Iterator::max_by_key`: the last of the greatest. -/
def lastMaxBy {α : Type*} (le : α → α → Bool) : List α → Option α
  | [] => none
  | a :: rest =>
    match lastMaxBy le rest with
    | none => some a
    | some best => some (if le a best then best else a)

/-- `adoptable_owner_for_pane`: the newest placeholder on the pane. -/
def adoptableOwnerForPane (map : Rows) (kind : AgentKind) (paneId : PaneId) (newKey : AgentKey) :
    Option AgentKey :=
  (lastMaxBy (fun a b => rankLe (adoptionRank a.2) (adoptionRank b.2))
    (map.toList.filter fun entry =>
      entry.1 != newKey && entry.1.1 == kind && isProvisional entry.1.2
        && entry.2.pane.any (·.paneId == paneId))).map (·.1)

/-- `release_key`. Ordinals go by session id, whatever the kind. -/
def releaseKey (alloc : CardIdentityAllocator) (key : AgentKey) : CardIdentityAllocator :=
  { alloc with
    names := alloc.names.filter fun _ owner => owner != key
    ordinals := alloc.ordinals.filter fun _ owner => owner != key.2 }

def consumeLaunchKey (alloc : CardIdentityAllocator) (key : AgentKey) : CardIdentityAllocator :=
  if isProvisional key.2 then
    { alloc with consumedLaunches := alloc.consumedLaunches.insert key.2 }
  else alloc

def nameAvailableFor (alloc : CardIdentityAllocator) (name : String) (key : AgentKey) : Bool :=
  alloc.names[name]?.all (· == key)

/-- The prior row's name, if it is valid. -/
def priorName (env : NamingEnv) (prior : Option AgentState) : Option String :=
  (prior.bind (·.name)).filter (validAgentName env)

/-- `assign_child_name`: a provider's child is no claim on the ledger. -/
def assignChildName (env : NamingEnv) (alloc : CardIdentityAllocator) (candidate : Option String)
    (prior : Option AgentState) (fallbackId : AgentSessionId) : Option String :=
  match (candidate.filter (validAgentName env)).or (priorName env prior) with
  | some name => some name
  | none => mintForSession env fallbackId fun name => alloc.names.contains name

/-- The name `assign_name_candidate` settles on: the candidate, else the prior name, else a fresh
pet name. -/
def chooseName (env : NamingEnv) (alloc : CardIdentityAllocator) (key : AgentKey)
    (candidate : Option String) (prior : Option AgentState) (fallbackId : AgentSessionId) :
    Option String :=
  match (candidate.filter (alloc.nameAvailableFor · key)).or
      ((priorName env prior).filter (alloc.nameAvailableFor · key)) with
  | some name => some name
  | none => mintForSession env fallbackId fun name => alloc.names[name]?.any (· != key)

def assignNameCandidate (env : NamingEnv) (alloc : CardIdentityAllocator) (key : AgentKey)
    (candidate : Option String) (prior : Option AgentState) (fallbackId : AgentSessionId) :
    Option (CardIdentityAllocator × String) :=
  (alloc.chooseName env key candidate prior fallbackId).map fun name =>
    ({ alloc with names := alloc.names.insert name key }, name)

/-- `assign_name`: a revived closed row keeps its handle over the stamp; a live one takes the
stamp. -/
def assignName (env : NamingEnv) (alloc : CardIdentityAllocator) (key : AgentKey)
    (observation : AgentLifecycleObservation) (prior : Option AgentState) :
    Option (CardIdentityAllocator × String) :=
  let stamped := observation.agentName.filter (validAgentName env)
  let candidate :=
    if prior.any (·.endedAt.isSome) then (priorName env prior).or stamped
    else stamped.or (priorName env prior)
  alloc.assignNameCandidate env key candidate prior key.2

def ordinalAvailableFor (alloc : CardIdentityAllocator) (kind : AgentKind)
    (agentId : AgentSessionId) (ordinal : Nat) : Bool :=
  alloc.ordinals[(kind, ordinal)]?.all (· == agentId)

def ordinalCandidateAllowed (alloc : CardIdentityAllocator) (kind : AgentKind)
    (agentId : AgentSessionId) (ordinal : Nat) (prior : Option AgentState) : Bool :=
  alloc.ordinalAvailableFor kind agentId ordinal
    && (prior.bind (·.kindOrdinal) == some ordinal || (alloc.nextOrdinal[kind]?.getD 1) ≤ ordinal)

/-- Where the search for a fresh ordinal starts. -/
def firstOrdinal (alloc : CardIdentityAllocator) (kind : AgentKind) : Nat :=
  max (alloc.nextOrdinal[kind]?.getD 1) 1

/-- `assign_ordinal_candidate`. The counter saturates, so the search has no end once every ordinal
up to `u32::MAX` is another session's. -/
def assignOrdinalCandidate (alloc : CardIdentityAllocator) (kind : AgentKind)
    (agentId : AgentSessionId) (candidate : Option Nat) (prior : Option AgentState) :
    Option (CardIdentityAllocator × Nat) :=
  match candidate.filter (alloc.ordinalCandidateAllowed kind agentId · prior) with
  | some ordinal =>
    some ({ alloc with
      ordinals := alloc.ordinals.insert (kind, ordinal) agentId
      nextOrdinal := coverOrdinal alloc.nextOrdinal kind ordinal }, ordinal)
  | none =>
    let first := alloc.firstOrdinal kind
    (findFrom (alloc.ordinalAvailableFor kind agentId) (u32Max + 1 - first) first).map fun next =>
      ({ alloc with
        ordinals := alloc.ordinals.insert (kind, next) agentId
        nextOrdinal := alloc.nextOrdinal.insert kind (satSucc next) }, next)

/-- The prior row bears `name` explicitly. -/
def keepsExplicit (prior : Option AgentState) (name : String) : Bool :=
  prior.any fun row => row.nameExplicit && row.name == some name

/-- The common end of the three assignments: with the name chosen, an ordinal is. -/
def numberCard (kind : AgentKind) (agentId : AgentSessionId) (candidate : Option Nat)
    (prior : Option AgentState) (isExplicit : String → Bool)
    (named : CardIdentityAllocator × String) : Option (CardIdentityAllocator × CardIdentity) :=
  (named.1.assignOrdinalCandidate kind agentId candidate prior).map fun numbered =>
    (numbered.1, ⟨named.2, isExplicit named.2, numbered.2⟩)

/-- The name of an observed row: a child's is no claim and gives up the claims of its key. -/
def assignObservedName (env : NamingEnv) (alloc : CardIdentityAllocator) (key : AgentKey)
    (observation : AgentLifecycleObservation) (prior : Option AgentState) :
    Option (CardIdentityAllocator × String) :=
  if observation.parentAgentId.isSome || prior.any (·.isProviderSubagent) then
    let alloc := { alloc with names := alloc.names.filter fun _ owner => owner != key }
    (alloc.assignChildName env observation.agentName prior key.2).map (alloc, ·)
  else alloc.assignName env key observation prior

/-- `assign`, for a lifecycle observation. -/
def assign (env : NamingEnv) (alloc : CardIdentityAllocator) (kind : AgentKind)
    (agentId : AgentSessionId)
    (observation : AgentLifecycleObservation) (prior : Option AgentState) :
    Option (CardIdentityAllocator × CardIdentity) :=
  (alloc.assignObservedName env (kind, agentId) observation prior).bind <|
    numberCard kind agentId (observation.launch.kindOrdinal.or (prior.bind (·.kindOrdinal))) prior
      fun name => (observation.parentAgentId.isSome && observation.agentName == some name)
        || keepsExplicit prior name

def assignLaunch (env : NamingEnv) (alloc : CardIdentityAllocator) (kind : AgentKind)
    (agentId : AgentSessionId) (payload : AgentLaunchPayload) (prior : Option AgentState) :
    Option (CardIdentityAllocator × CardIdentity) :=
  (alloc.assignNameCandidate env (kind, agentId) (some payload.agentName) prior agentId).bind <|
    numberCard kind agentId (payload.launch.kindOrdinal.or (prior.bind (·.kindOrdinal))) prior
      fun name => payload.agentNameExplicit && name == payload.agentName

end CardIdentityAllocator

end Rimz.Snapshot
