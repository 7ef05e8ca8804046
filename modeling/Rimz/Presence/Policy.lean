import Rimz.Lib.Emit
import Rimz.Lib.OrderedMap
import Rimz.Lib.Sort

/-!
# The presence plugin's decision core

The pane fields the Zellij plugin publishes, the poke policy and the timer gate of `policy.rs`.
Instants are Unix milliseconds. They are naturals here: the source adds to them with overflow checks
or saturation, and no clock comes within a minute of `2 ^ 64`.
-/

namespace Rimz.Presence
open Rimz.Lib

/-- The least gap between two `panes-changed` pokes. -/
def pokeFloorMs : Nat := 100

/-- The follow-up after a pane-changing poke. -/
def settlePokeMs : Nat := 250

/-- The settle window after a tab switch. -/
def focusSettleMs : Nat := 250

/-- The keepalive cadence, and the time a client query may stay unanswered. -/
def keepaliveMs : Nat := 60000

/-- One pane as the plugin projects and publishes it. -/
structure PaneFields where
  id : Nat
  isPlugin : Bool
  isFullscreen : Bool := false
  isSuppressed : Bool := false
  isFloating : Bool := false
  exited : Bool := false
  isHeld : Bool := false
  tabPosition : Nat
  tabViewed : Bool := false
  stableTabId : Option Nat := none
  tabName : Option String := none
  paneX : Option Nat := none
  paneColumns : Option Nat := none
  title : String := ""
  paneCommand : Option String := none
  paneCwd : Option String := none
  panePid : Option Nat := none
  terminalCommand : Option String := none
  deriving DecidableEq

inductive ClientPaneId where
  | terminal (id : Nat)
  | plugin (id : Nat)
  deriving DecidableEq

/-- Which pane a client looks at. -/
structure ClientViewEntry where
  clientId : Nat
  paneId : ClientPaneId
  deriving DecidableEq

structure ClientSample where
  views : List ClientViewEntry
  deriving DecidableEq

/-- The plugin instance behind a topology. -/
structure TopologyWriter where
  pluginId : Nat
  clientId : Option Nat
  loadedAtMs : Nat
  build : Option String
  config : Option String
  deriving DecidableEq

structure TopologyPayload where
  sessionName : String
  producedAtMs : Nat
  writer : Option TopologyWriter
  clients : Option ClientSample
  clientsWithheld : Bool
  panes : List PaneFields
  deriving DecidableEq

def publishedTopologyPayload (sessionName : String) (producedAtMs : Nat)
    (writer : Option TopologyWriter) (clients : Option ClientSample) (panes : List PaneFields) :
    Option TopologyPayload :=
  if panes.isEmpty then none
  else some { sessionName, producedAtMs, writer, clients, clientsWithheld := false, panes }

def joinedForegroundCommand (command : List String) : Option String :=
  let joined := " ".intercalate (command.filter fun arg => !arg.isEmpty)
  if joined.isEmpty then none else some joined

inductive ForegroundCommandUpdate where
  | remember (command : String)
  | shell (command : String)
  | forget

def foregroundCommandUpdate (command : List String) (isForeground : Bool) :
    ForegroundCommandUpdate :=
  match isForeground, joinedForegroundCommand command with
  | true, some command => .remember command
  | false, some command => .shell command
  | _, none => .forget

/-! ## The poke policy -/

inductive Poke where
  | changed
  | alive
  deriving DecidableEq

/-- The poke policy. `pendingSince` is the first change of the current burst. -/
structure PokePolicy where
  pendingSince : Option Nat := none
  lastChangedPoke : Option Nat := none
  settleDueAt : Option Nat := none
  nextKeepalive : Nat

namespace PokePolicy

def new (now : Nat) : PokePolicy :=
  { nextKeepalive := now + keepaliveMs }

def onSignal (p : PokePolicy) (now : Nat) : PokePolicy :=
  if p.pendingSince.isNone then { p with pendingSince := some now } else p

/-- When a change pending since `since` may poke. -/
def dueAt (p : PokePolicy) (since : Nat) : Nat :=
  match p.lastChangedPoke with
  | some at_ => max since (at_ + pokeFloorMs)
  | none => since

/-- A pending change whose floor has lifted. -/
def changeDue (p : PokePolicy) (now : Nat) : Bool :=
  p.pendingSince.any fun since => p.dueAt since ≤ now

def dueChange (p : PokePolicy) (now : Nat) : PokePolicy × List Poke :=
  if p.changeDue now then
    ({ p with pendingSince := none, lastChangedPoke := some now,
              settleDueAt := some (now + settlePokeMs) }, [.changed])
  else if p.settleDueAt.any (· ≤ now) then
    ({ p with settleDueAt := none, lastChangedPoke := some now }, [.changed])
  else (p, [])

def dueKeepalive (p : PokePolicy) (now : Nat) : PokePolicy × List Poke :=
  if p.nextKeepalive ≤ now then ({ p with nextKeepalive := now + keepaliveMs }, [.alive])
  else (p, [])

/-- The pokes due at `now`, consuming them. -/
def due (p : PokePolicy) (now : Nat) : PokePolicy × List Poke :=
  andThen (p.dueChange now) fun p => p.dueKeepalive now

/-- The next instant at which the policy should be asked. -/
def nextWakeAt (p : PokePolicy) : Nat :=
  let deadlines := (p.pendingSince.map p.dueAt).toList ++ p.settleDueAt.toList
  deadlines.foldr min p.nextKeepalive

lemma lt_nextWakeAt {p : PokePolicy} {now} :
    now < p.nextWakeAt ↔ p.changeDue now = false ∧ (p.settleDueAt.any (· ≤ now)) = false ∧
      now < p.nextKeepalive := by
  unfold nextWakeAt changeDue
  cases p.pendingSince <;> cases p.settleDueAt <;> simp

/-- After the pokes that are due, the policy wants to be asked later. -/
lemma lt_nextWakeAt_due (p : PokePolicy) (now : Nat) : now < (p.due now).1.nextWakeAt := by
  have keepalive : ∀ q : PokePolicy, q.changeDue now = false →
      (q.settleDueAt.any (· ≤ now)) = false → now < (q.dueKeepalive now).1.nextWakeAt := by
    intro q hchange hsettle
    unfold dueKeepalive
    split
    · exact lt_nextWakeAt.mpr ⟨hchange, hsettle, by simp [keepaliveMs]⟩
    · next hlater => exact lt_nextWakeAt.mpr ⟨hchange, hsettle, Nat.lt_of_not_le hlater⟩
  apply keepalive
  · unfold dueChange
    split
    · rfl
    rename_i hchange
    split
    -- the floor behind a settle poke only moves a pending change back
    · cases p.pendingSince with
      | none => simp [changeDue]
      | some since => simp [changeDue, dueAt, pokeFloorMs]
    · simpa using hchange
  · unfold dueChange
    split
    · simp [settlePokeMs]
    · split
      · rfl
      · next hsettle => simpa using hsettle

end PokePolicy

/-! ## The timer gate -/

/-- The gate remembers the earliest deadline a host timer is armed for. -/
structure TimerGate where
  armedFor : Option Nat := none

namespace TimerGate

/-- A host timer fires; one from a superseded chain leaves the mark. -/
def onFire (g : TimerGate) (now : Nat) : TimerGate :=
  if g.armedFor.any (· ≤ now) then { armedFor := none } else g

/-- Whether a timer is to be armed for a deadline; then it is marked. -/
def shouldArm (g : TimerGate) (deadline : Nat) : TimerGate × Bool :=
  if g.armedFor.all (deadline < ·) then ({ armedFor := some deadline }, true) else (g, false)

end TimerGate

end Rimz.Presence
