import Rimz.Presence.Room

/-!
# Client queries

`FocusSync`: Zellij answers `list_clients` with an event that names no query. The synchronizer keeps
at most one query in flight, asks again when a query stays unanswered for a minute, and counts the
answers it then no longer expects. A tab switch is confirmed by a query of its own, once its settle
window is over.
-/

namespace Rimz.Presence
open Rimz.Lib

inductive ClientQueryPurpose where
  | general
  | switchSettled (generation tab : Nat)
  deriving DecidableEq

structure InFlightClientQuery where
  purpose : ClientQueryPurpose
  issuedAt : Nat
  rosterInvalidated : Bool
  deadline : Nat

structure PendingSwitch where
  generation : Nat
  tab : Nat
  settleAt : Nat
  deriving DecidableEq

inductive FocusMode where
  | stable
  | switching (pending : PendingSwitch)
  deriving DecidableEq

structure SettledSwitch where
  tab : Nat
  generation : Nat
  clients : List ClientViewEntry

structure FocusUpdate where
  settled : Option SettledSwitch := none
  sampleChanged : Bool := false

/-- The synchronizer. `generation` counts tab switches, in a `u64`. -/
structure FocusSync where
  activeTab : Option Nat := none
  generation : Nat := 0
  mode : FocusMode := .stable
  inFlight : Option InFlightClientQuery := none
  queued : Option ClientQueryPurpose := none
  staleReplies : Nat := 0
  connectedClients : Option Nat := none
  clientSample : Option ClientSample := none
  rosterChangedAt : Option Nat := none

/-- The purpose a query serves when two are wanted: the newer switch. -/
def latestClientQuery : ClientQueryPurpose → ClientQueryPurpose → ClientQueryPurpose
  | current, .general => current
  | .general, next => next
  | .switchSettled current tab, .switchSettled next tab' =>
    if next < current then .switchSettled current tab else .switchSettled next tab'

/-- A sample lists each view once, in order. -/
def clientSampleOf (clients : List ClientViewEntry) : ClientSample :=
  { views := sortByKey (fun view => toLex (view.clientId, toLex view.paneId.key)) clients.dedup }

namespace FocusSync

def queue (f : FocusSync) (purpose : ClientQueryPurpose) : FocusSync :=
  { f with queued := some (match f.queued with
      | none => purpose
      | some existing => latestClientQuery existing purpose) }

def requestGeneralObservation (f : FocusSync) : FocusSync :=
  f.queue .general

def invalidateClientSample (f : FocusSync) (now : Nat) : FocusSync :=
  requestGeneralObservation { f with
    rosterChangedAt := some now
    inFlight := f.inFlight.map fun query => { query with rosterInvalidated := true } }

def acceptTabUpdate (f : FocusSync) (active : Option Nat) (now : Nat) : FocusSync :=
  let updated := { f with activeTab := active }
  match f.activeTab, active with
  | some previous, some next =>
    if previous ≠ next then
      let generation := (f.generation + 1) % 2 ^ 64
      { updated with
        generation
        mode := .switching { generation, tab := next, settleAt := now + focusSettleMs } }
    else updated
  | _, none => requestGeneralObservation { updated with mode := .stable }
  | none, some _ => requestGeneralObservation updated

def acceptConnectedClients (f : FocusSync) (connectedClients : Option Nat) : FocusSync :=
  if connectedClients.isSome && decide (f.connectedClients ≠ connectedClients) then
    requestGeneralObservation { f with connectedClients }
  else f

def hasQuery (f : FocusSync) (purpose : ClientQueryPurpose) : Bool :=
  decide (f.queued = some purpose) || f.inFlight.any fun query => decide (query.purpose = purpose)

def expireQuery (f : FocusSync) (now : Nat) : FocusSync :=
  match f.inFlight with
  | some expired =>
    if expired.deadline ≤ now then
      queue { f with inFlight := none, staleReplies := min (f.staleReplies + 1) u32Max }
        expired.purpose
    else f
  | none => f

/-- An answer belongs to the query in flight, unless an expired one is still owed an answer: then
the query in flight is asked again. -/
def takeReply (f : FocusSync) : FocusSync × Option InFlightClientQuery :=
  if f.staleReplies > 0 then
    let counted := { f with staleReplies := f.staleReplies - 1, inFlight := none }
    match f.inFlight with
    | some query => (counted.queue query.purpose, none)
    | none => (counted, none)
  else ({ f with inFlight := none }, f.inFlight)

def consumeReply (f : FocusSync) (now : Nat) : FocusSync × Option InFlightClientQuery :=
  (f.expireQuery now).takeReply

/-- The switch a query of this purpose confirms now. -/
def confirms (f : FocusSync) : ClientQueryPurpose → Bool
  | .general => false
  | .switchSettled generation tab =>
    match f.mode with
    | .stable => false
    | .switching pending =>
      decide (pending.generation = generation) && decide (pending.tab = tab) &&
        decide (f.activeTab = some tab)

def applyObservation (f : FocusSync) (purpose : ClientQueryPurpose)
    (clients : List ClientViewEntry) : FocusSync × FocusUpdate :=
  match purpose with
  | .general => (f, {})
  | .switchSettled generation tab =>
    if f.confirms purpose then
      ({ f with mode := .stable }, { settled := some { tab, generation, clients } })
    else (f, {})

/-- Whether an answer shows the room after its last change of roster. -/
def clearsRosterMark (f : FocusSync) (query : Option InFlightClientQuery) : Bool :=
  decide (f.mode = .stable) && f.rosterChangedAt.any fun at_ =>
    query.any fun query => !query.rosterInvalidated && decide (at_ ≤ query.issuedAt)

def acceptClientSample (f : FocusSync) (clients : List ClientViewEntry) (now : Nat) :
    FocusSync × FocusUpdate :=
  let (f, query) := f.consumeReply now
  let sample := clientSampleOf clients
  let sampleChanged := decide (f.clientSample ≠ some sample)
  let f := { f with clientSample := some sample }
  let (f, update) := f.applyObservation ((query.map (·.purpose)).getD .general) clients
  let cleared := f.clearsRosterMark query
  let f := if cleared then { f with rosterChangedAt := none } else f
  (f, { update with sampleChanged := sampleChanged || cleared })

/-- A switch whose settle window is over wants its query. -/
def queueSettled (f : FocusSync) (now : Nat) : FocusSync :=
  match f.mode with
  | .stable => f
  | .switching pending =>
    let purpose := ClientQueryPurpose.switchSettled pending.generation pending.tab
    if f.activeTab = some pending.tab ∧ pending.settleAt ≤ now ∧ f.hasQuery purpose = false then
      f.queue purpose
    else f

/-- The queued query goes out, when none is in flight; the flag says so. -/
def issue (f : FocusSync) (now : Nat) (queryAllowed : Bool) : FocusSync × Bool :=
  if f.inFlight.isSome || !queryAllowed then (f, false)
  else
    match f.queued with
    | none => (f, false)
    | some purpose =>
      ({ f with
          queued := none
          inFlight := some { purpose, issuedAt := now, rosterInvalidated := false,
                             deadline := now + keepaliveMs } }, true)

def driveDueQuery (f : FocusSync) (now : Nat) (queryAllowed : Bool) : FocusSync × Bool :=
  ((f.expireQuery now).queueSettled now).issue now queryAllowed

/-- The settle instant of a switch nobody asks about yet. -/
def settleDeadline (f : FocusSync) : Option Nat :=
  match f.mode with
  | .stable => none
  | .switching pending =>
    if f.hasQuery (.switchSettled pending.generation pending.tab) then none
    else some pending.settleAt

def nextDeadline (f : FocusSync) : Option Nat :=
  (f.settleDeadline.toList ++ (f.inFlight.map (·.deadline)).toList).min?

/-- The sample a topology may carry: none while it may be older than the roster. -/
def publishedSample (f : FocusSync) : Option ClientSample :=
  if f.rosterChangedAt.isSome then none else f.clientSample

end FocusSync

end Rimz.Presence
