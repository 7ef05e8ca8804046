import Mathlib.Data.List.Dedup
import Mathlib.Data.Prod.Lex
import Rimz.Presence.Policy

/-!
# The plugin's room

What the plugin remembers of the panes: the last manifest entry of each, and over it what later
events said of its command, directory and process. A pane an event names before any manifest is
remembered without an entry; it has no tab and is not published.
-/

namespace Rimz.Presence
open Rimz.Lib Std

/-- Terminal and plugin panes have separate identifiers: whether it is a plugin pane, and its id. -/
abbrev PaneKey := Bool × Nat

def PaneKey.terminal (id : Nat) : PaneKey := (false, id)

def ClientPaneId.key : ClientPaneId → PaneKey
  | .terminal id => (false, id)
  | .plugin id => (true, id)

def PaneFields.key (pane : PaneFields) : PaneKey := (pane.isPlugin, pane.id)

inductive PanePid where
  | unprobed
  | missing
  | known (pid : Nat)
  deriving DecidableEq

structure PaneState where
  manifest : Option PaneFields := none
  foreground : Option String := none
  shell : Option String := none
  cwd : Option String := none
  pid : PanePid := .unprobed
  deriving DecidableEq

/-- `usize` on the plugin's target, wasm32. -/
def usizeSpan : Nat := 2 ^ 32

namespace PaneState

def fromManifest (pane : PaneFields) : PaneState :=
  { manifest := some { pane with paneCommand := none, paneCwd := none, panePid := none }
    foreground := pane.paneCommand
    cwd := pane.paneCwd
    pid := match pane.panePid with
      | some pid => .known pid
      | none => .unprobed }

def pending : PaneState := {}

def applyManifest (state : PaneState) (pane : PaneFields) : PaneState :=
  { state with manifest := some pane }

/-- The tab of a pane; `usize` may be too small for the position. -/
def tab (state : PaneState) : Option Nat :=
  (state.manifest.map (·.tabPosition)).filter (· < usizeSpan)

def isLiveTerminal (state : PaneState) (key : PaneKey) : Bool :=
  !key.1 && state.manifest.any fun pane =>
    !pane.isSuppressed && !pane.isFloating && !pane.exited && !pane.isHeld

def published (state : PaneState) : Option PaneFields :=
  state.manifest.map fun pane =>
    { pane with
      paneCommand := state.foreground.or state.shell
      paneCwd := state.cwd
      panePid := match state.pid with
        | .known pid => some pid
        | .unprobed | .missing => none }

end PaneState

structure RoomState where
  panes : ExtTreeMap PaneKey PaneState pairCmp := ∅
  manifestApplied : Bool := false

namespace RoomState

def hasManifest (room : RoomState) : Bool := room.manifestApplied

def roster (room : RoomState) : List (PaneKey × Option Nat) :=
  room.panes.toList.map fun (key, state) => (key, state.tab)

/-- One pane of a manifest: what later events said of a known pane stays. -/
def applyPane (room : RoomState) (pane : PaneFields) : RoomState :=
  match room.panes[pane.key]? with
  | some state => { room with panes := room.panes.insert pane.key (state.applyManifest pane) }
  | none => { room with panes := room.panes.insert pane.key (PaneState.fromManifest pane) }

/-- One tab of a manifest: panes it no longer reports are gone. -/
def applyTab (room : RoomState) (tab : Nat) (panes : List PaneFields) : RoomState :=
  if panes.isEmpty then room
  else
    let kept := room.panes.filter fun key state =>
      decide (state.tab ≠ some tab) || (panes.map PaneFields.key).contains key
    panes.foldl applyPane { room with panes := kept }

/-- The process of a live terminal is looked up once. -/
def probe (panePid : Nat → Option Nat) (room : RoomState) (id : Nat) : RoomState :=
  match room.panes[PaneKey.terminal id]? with
  | some state =>
    if state.pid = .unprobed then
      let pid := match panePid id with
        | some pid => PanePid.known pid
        | none => .missing
      { room with panes := room.panes.insert (PaneKey.terminal id) { state with pid } }
    else room
  | none => room

def probeMissingPids (room : RoomState) (panePid : Nat → Option Nat) : RoomState :=
  let live := (room.panes.toList.filter fun (key, state) => state.isLiveTerminal key).map (·.1.2)
  live.foldl (probe panePid) room

/-- A manifest, and whether it changed the room. -/
def applyManifest (room : RoomState) (projected : ExtTreeMap Nat (List PaneFields) compare)
    (panePid : Nat → Option Nat) : RoomState × Bool :=
  let applied := projected.toList.foldl (fun room (tab, panes) => room.applyTab tab panes)
    { room with manifestApplied := true }
  let probed := applied.probeMissingPids panePid
  (probed, decide (probed.panes.toList ≠ room.panes.toList))

/-- An event about a terminal, known or not. -/
def updateTerminal (room : RoomState) (pane : ClientPaneId) (unchanged : PaneState → Bool)
    (change : PaneState → PaneState) : RoomState × Bool :=
  match pane with
  | .plugin _ => (room, false)
  | .terminal id =>
    let state := (room.panes[PaneKey.terminal id]?).getD PaneState.pending
    if unchanged state then
      ({ room with panes := room.panes.insert (PaneKey.terminal id) state }, false)
    else ({ room with panes := room.panes.insert (PaneKey.terminal id) (change state) }, true)

def updateForeground (room : RoomState) (pane : ClientPaneId) (command : Option String) :
    RoomState × Bool :=
  room.updateTerminal pane (fun state => decide (state.foreground = command))
    fun state => { state with foreground := command }

def updateShell (room : RoomState) (pane : ClientPaneId) (command : String) : RoomState × Bool :=
  room.updateTerminal pane
    (fun state => state.foreground.isNone && decide (state.shell = some command))
    fun state => { state with foreground := none, shell := some command }

def updateCwd (room : RoomState) (pane : ClientPaneId) (cwd : Option String) : RoomState × Bool :=
  room.updateTerminal pane (fun state => decide (state.cwd = cwd)) fun state => { state with cwd }

def closePane (room : RoomState) (pane : ClientPaneId) : RoomState × Bool :=
  ({ room with panes := room.panes.erase pane.key }, room.panes.contains pane.key)

/-- The panes that have a tab, in the order of their tabs. -/
def publishedPanes (room : RoomState) : List PaneFields :=
  let placed := room.panes.toList.filterMap fun (key, state) =>
    state.tab.map fun tab => (tab, key, state)
  (sortByKey (fun (tab, key, _) => toLex (tab, toLex key)) placed).filterMap
    fun (_, _, state) => state.published

/-- The panes that have a tab, each with it: the roster a topology shows. -/
def placed (room : RoomState) : ExtTreeMap PaneKey Nat pairCmp :=
  room.panes.filterMap fun _ state => state.tab

/-- The panes' tabs get the identifiers of a tab update. -/
def setTabIds (room : RoomState) (tabIds : ExtTreeMap Nat Nat compare) : RoomState :=
  { room with panes := room.panes.map fun _ state =>
      { state with manifest := state.manifest.map fun pane =>
          { pane with stableTabId := tabIds[pane.tabPosition % usizeSpan]? } } }

/-! ## What changes the roster -/

variable {room : RoomState}

lemma getElem?_placed (key : PaneKey) :
    room.placed[key]? = room.panes[key]?.bind PaneState.tab := by
  simp only [placed, ExtTreeMap.getElem?_filterMap']

lemma placed_eq_of_roster_eq {room' : RoomState} (h : room.roster = room'.roster) :
    room.placed = room'.placed := by
  have tabs (key : PaneKey) (tab : Nat) (r : RoomState) :
      r.placed[key]? = some tab ↔ (key, some tab) ∈ r.roster := by
    rw [getElem?_placed, bind_eq_some_iff, roster, mem_map]
    constructor
    · rintro ⟨state, hstate, htab⟩
      exact ⟨(key, state), ExtTreeMap.mem_toList_iff_getElem?_eq_some.mpr hstate,
        Prod.ext rfl htab⟩
    · rintro ⟨⟨key', state⟩, hmem, hpair⟩
      obtain ⟨rfl, htab⟩ := Prod.mk.inj hpair
      exact ⟨state, ExtTreeMap.mem_toList_iff_getElem?_eq_some.mp hmem, htab⟩
  apply ExtTreeMap.ext_getElem?
  intro key
  apply Option.ext
  intro tab
  rw [tabs, tabs, h]

lemma placed_insert {key state} (h : state.tab = room.panes[key]?.bind PaneState.tab) :
    placed { room with panes := room.panes.insert key state } = room.placed := by
  apply ExtTreeMap.ext_getElem?
  intro k
  simp only [getElem?_placed, ExtTreeMap.getElem?_insert, LawfulEqCmp.compare_eq_iff_eq]
  split
  · next hk =>
    subst hk
    simpa using h
  · rfl

lemma placed_updateTerminal {pane unchanged change}
    (h : ∀ state, (change state).manifest = state.manifest) :
    (room.updateTerminal pane unchanged change).1.placed = room.placed := by
  cases pane with
  | plugin _ => rfl
  | terminal id =>
    have shows : ((room.panes[PaneKey.terminal id]?).getD PaneState.pending).tab =
        room.panes[PaneKey.terminal id]?.bind PaneState.tab := by
      cases room.panes[PaneKey.terminal id]? <;> rfl
    simp only [updateTerminal]
    split
    · exact placed_insert shows
    · refine placed_insert (Eq.trans ?_ shows)
      simp only [PaneState.tab, h]

lemma placed_probe {panePid id} : (room.probe panePid id).placed = room.placed := by
  unfold probe
  split
  · next state hstate =>
    split
    · apply placed_insert
      rw [hstate]
      rfl
    · rfl
  · rfl

lemma placed_probeMissingPids {panePid} : (room.probeMissingPids panePid).placed = room.placed := by
  have probes : ∀ (ids : List Nat) (r : RoomState),
      (ids.foldl (probe panePid) r).placed = r.placed := by
    intro ids
    induction ids with
    | nil => exact fun _ => rfl
    | cons id ids ih =>
      intro r
      rw [foldl_cons, ih, placed_probe]
  exact probes _ room

lemma placed_setTabIds {tabIds} : (room.setTabIds tabIds).placed = room.placed := by
  apply ExtTreeMap.ext_getElem?
  intro key
  rw [getElem?_placed, getElem?_placed, setTabIds, ExtTreeMap.getElem?_map]
  cases room.panes[key]? with
  | none => rfl
  | some state =>
    simp only [map_some, bind_some, PaneState.tab, map_map]
    rfl

end RoomState

end Rimz.Presence
