import Rimz.Presence.Focus
import Rimz.Presence.Wire

/-!
# The presence engine

`engine.rs`: the callbacks the plugin's shell makes, and the effects it then runs in order. A
callback folds its event into the room and the client synchronizer, sends the pokes that are due,
asks for the clients when it may, and arms a host timer for the earliest deadline.
-/

namespace Rimz.Presence
open Rimz.Lib Std

inductive PaletteMode where
  | commands
  | new
  | cards
  deriving DecidableEq

inductive Command where
  | wake (wake : Wake)
  | focusSidebar (context : WakeContext)
  | zoomPane (context : WakeContext)
  | palette (context : WakeContext) (mode : PaletteMode) (pane : Option ClientPaneId)
  deriving DecidableEq

inductive Effect where
  | runCommand (command : Command) (topologyIssuedAt : Option Nat)
  | hideSelf
  | reconfigure (kdl : String)
  | closeSelf
  | setTimeout (ms : Nat)
  | listClients
  | togglePaneFullscreen (pane : ClientPaneId)
  deriving DecidableEq

structure EngineConfig where
  workspaceId : Option String := none
  sessionName : Option String := none
  rimzBin : Option String := none
  pluginId : Option Nat := none
  clientId : Option Nat := none
  pluginBuild : Option String := none
  pluginConfig : Option String := none
  focusKey : Option String := none
  zoomKey : Option String := none
  sessionOptions : List (String × String) := []

structure Engine where
  config : EngineConfig
  policy : PokePolicy
  room : RoomState := {}
  lastRawStableHash : Option Nat := none
  tabNames : ExtTreeMap Nat String compare := ∅
  viewedTabs : ExtTreeSet Nat compare := ∅
  focus : FocusSync := {}
  granted : Bool := false
  pendingPregrantChange : Bool := false
  timerGate : TimerGate := {}
  loadedAtMs : Nat
  muted : Bool := false
  wakeForkFailures : Nat := 0
  staleWriterRejections : Nat := 0
  latestAcceptedTopologyAt : Option Nat := none
  lastInputPublishedAt : Option Nat := none
  pendingInputMs : Option Nat := none

def inputPublishFloorMs : Nat := 1000

def wakeForkFallbackThreshold : Nat := 3

def staleWriterMuteThreshold : Nat := 3

namespace Engine

def new (now : Nat) (config : EngineConfig) : Engine :=
  { config, policy := PokePolicy.new now, loadedAtMs := now }

/-! ## Wakes -/

def wakeContext (e : Engine) : WakeContext :=
  { rimzBin := e.config.rimzBin, workspaceId := e.config.workspaceId,
    sessionName := e.config.sessionName }

def writer (e : Engine) : TopologyWriter :=
  { pluginId := e.config.pluginId.getD 0, clientId := e.config.clientId,
    loadedAtMs := e.loadedAtMs, build := e.config.pluginBuild, config := e.config.pluginConfig }

/-- The panes of a topology, with the tabs somebody has seen. -/
def shownPanes (e : Engine) : List PaneFields :=
  e.room.publishedPanes.map fun pane =>
    { pane with tabViewed := pane.stableTabId.any fun id => e.viewedTabs.contains id }

def topology (e : Engine) (now : Nat) : Option TopologyPayload :=
  topologyJson e.config.sessionName now (e.config.pluginId.map fun _ => e.writer)
    e.focus.publishedSample e.focus.rosterChangedAt.isSome e.shownPanes

def runWake (e : Engine) (request : WakeRequest) (now : Nat) (host : Host) : List Effect :=
  if !e.granted || e.muted then []
  else
    match wakeArgv host e.wakeContext request (e.topology now) with
    | none => []
    | some wake =>
      [.runCommand (.wake wake) (if publishesTopology wake then some now else none)]

def poke (e : Engine) (poke : Poke) (now : Nat) (host : Host) : List Effect :=
  if !e.granted then []
  else
    match poke with
    | .changed => e.runWake .changed now host
    | .alive =>
      e.runWake (.alive { host.telemetry with
        pluginId := e.config.pluginId
        pluginBuild := e.config.pluginBuild
        loadedAtMs := e.loadedAtMs
        uptimeMs := now - e.loadedAtMs }) now host

def applyRuntimeReconfigure (e : Engine) : List Effect :=
  ((runtimeReconfigureKdl
    { pluginId := e.config.pluginId, focusKey := e.config.focusKey, zoomKey := e.config.zoomKey,
      sessionOptions := e.config.sessionOptions }).map Effect.reconfigure).toList

/-! ## The end of every callback -/

def signalChange (e : Engine) (now : Nat) : Engine :=
  if !e.granted then { e with pendingPregrantChange := true }
  else { e with policy := e.policy.onSignal now }

def flushPregrantChange (e : Engine) (now : Nat) : Engine :=
  if e.pendingPregrantChange then
    { e with pendingPregrantChange := false, policy := e.policy.onSignal now }
  else e

def requestGeneralObservation (e : Engine) : Engine :=
  { e with focus := e.focus.requestGeneralObservation }

def markGranted (e : Engine) (now : Nat) (host : Host) : Engine × List Effect :=
  if e.granted then (e.flushPregrantChange now, [])
  else
    let granted := requestGeneralObservation { e with granted := true }
    andThen (granted, granted.applyRuntimeReconfigure) fun e =>
      if e.pendingPregrantChange then (e.flushPregrantChange now, [])
      else (e, e.poke .alive now host)

def dispatchPoke (now : Nat) (host : Host) (e : Engine) (poke : Poke) : Engine × List Effect :=
  let e := if poke = .alive then e.requestGeneralObservation else e
  (e, e.poke poke now host)

def dispatchDue (e : Engine) (now : Nat) (host : Host) : Engine × List Effect :=
  let (policy, pokes) := e.policy.due now
  emitAll (dispatchPoke now host) { e with policy } pokes

def driveQuery (e : Engine) (now : Nat) : Engine × List Effect :=
  let (focus, asks) := e.focus.driveDueQuery now (!e.muted)
  ({ e with focus }, if asks then [.listClients] else [])

def inputDeadline (e : Engine) : Option Nat :=
  e.pendingInputMs.map fun stamp =>
    (e.lastInputPublishedAt.map (· + inputPublishFloorMs)).getD stamp

/-- The earliest instant the engine wants to be called at. -/
def nextDeadline (e : Engine) : Nat :=
  (e.focus.nextDeadline.toList ++ e.inputDeadline.toList).foldr min e.policy.nextWakeAt

def rearm (e : Engine) (now : Nat) : Engine × List Effect :=
  let (timerGate, arms) := e.timerGate.shouldArm e.nextDeadline
  ({ e with timerGate }, if arms then [.setTimeout (e.nextDeadline - now)] else [])

def finishUpdate (e : Engine) (now : Nat) (host : Host) : Engine × List Effect :=
  andThen (e.dispatchDue now host) fun e =>
    andThen (e.driveQuery now) fun e => e.rearm now

/-! ## The callbacks -/

def onLoad (e : Engine) (now : Nat) (host : Host) : Engine × List Effect :=
  e.finishUpdate now host

def onPermissionGranted (e : Engine) (now : Nat) (host : Host) : Engine × List Effect :=
  andThen (e, [.hideSelf]) fun e =>
    andThen (e.markGranted now host) fun e =>
      andThen (e, e.applyRuntimeReconfigure) fun e => e.finishUpdate now host

def onPermissionDenied (e : Engine) (now : Nat) (host : Host) : Engine × List Effect :=
  finishUpdate { e with granted := false } now host

/-- A manifest that changes the roster puts the client sample in doubt, unless it is the first one
and there is no sample. -/
def invalidatesSample (e : Engine) (room : RoomState) : Bool :=
  decide (e.room.roster ≠ room.roster) && (e.room.hasManifest || e.focus.clientSample.isSome)

/-- A manifest whose stable fields are those of the last one is not read. -/
def foldManifest (e : Engine) (rawHash : Nat)
    (project : ExtTreeMap Nat String compare → ExtTreeMap Nat (List PaneFields) compare)
    (now : Nat) (host : Host) : Engine :=
  let seen := { e with lastRawStableHash := some rawHash }
  if decide (e.lastRawStableHash = some rawHash) && e.room.hasManifest then seen
  else
    let (room, changed) := e.room.applyManifest (project e.tabNames) host.panePid
    let applied := { seen with
      room
      focus := if e.invalidatesSample room then e.focus.invalidateClientSample now else e.focus }
    if changed && e.room.hasManifest then applied.signalChange now else applied

/-- The plugin's own pane, where a manifest shows it. -/
def ownPaneShows (e : Engine) : Bool :=
  ((e.config.pluginId.bind fun id => e.room.panes[(ClientPaneId.plugin id).key]?).bind
    (·.manifest)).any fun pane => !pane.isSuppressed

def onPaneManifest (e : Engine) (rawHash : Nat)
    (project : ExtTreeMap Nat String compare → ExtTreeMap Nat (List PaneFields) compare)
    (now : Nat) (host : Host) : Engine × List Effect :=
  andThen (e.markGranted now host) fun e =>
    let e := e.requestGeneralObservation.foldManifest rawHash project now host
    andThen (e, if e.ownPaneShows then [.hideSelf] else []) fun e => e.finishUpdate now host

/-- The tabs somebody has seen, after a tab update. -/
def viewedAfter (e : Engine) (active : Option Nat) (tabIds : ExtTreeMap Nat Nat compare)
    (otherViewedTabs : List Nat) : ExtTreeSet Nat compare :=
  let kept := e.viewedTabs.filter fun id => tabIds.values.contains id
  let seen := otherViewedTabs ++ (active.bind fun position => tabIds[position]?).toList
  seen.foldl (fun viewed id => viewed.insert id) kept

/-- The tabs a tab update names, folded into the room. -/
def foldTabs (e : Engine) (active : Option Nat) (tabNames : ExtTreeMap Nat String compare)
    (tabIds : ExtTreeMap Nat Nat compare) (otherViewedTabs : List Nat) (now : Nat) : Engine :=
  let viewedTabs := e.viewedAfter active tabIds otherViewedTabs
  let room := e.room.setTabIds tabIds
  let identityChanged := decide (room.panes.toList ≠ e.room.panes.toList)
  let updated := { e with tabNames, viewedTabs, room }
  if identityChanged || decide (viewedTabs.toList ≠ e.viewedTabs.toList) then
    updated.signalChange now
  else updated

def onTabUpdate (e : Engine) (active : Option Nat) (tabNames : ExtTreeMap Nat String compare)
    (tabIds : ExtTreeMap Nat Nat compare) (otherViewedTabs : List Nat) (now : Nat) (host : Host) :
    Engine × List Effect :=
  andThen (e.markGranted now host) fun e =>
    let e := e.foldTabs active tabNames tabIds otherViewedTabs now
    finishUpdate { e with focus := e.focus.acceptTabUpdate active now } now host

/-- What an event said of one pane, and whether it changed the room. -/
def foldRoom (e : Engine) (folded : RoomState × Bool) (now : Nat) : Engine :=
  let updated := { e with room := folded.1 }
  if folded.2 then updated.signalChange now else updated

def commandUpdate (room : RoomState) (pane : ClientPaneId) :
    ForegroundCommandUpdate → RoomState × Bool
  | .remember command => room.updateForeground pane (some command)
  | .shell command => room.updateShell pane command
  | .forget => room.updateForeground pane none

def onCommandChanged (e : Engine) (pane : ClientPaneId) (command : List String)
    (isForeground : Bool) (now : Nat) (host : Host) : Engine × List Effect :=
  (e.foldRoom (commandUpdate e.room pane (foregroundCommandUpdate command isForeground)) now)
    |>.finishUpdate now host

/-- The source returns early for a plugin pane, whose directory `update_cwd` leaves alone anyway. -/
def onCwdChanged (e : Engine) (pane : ClientPaneId) (cwd : Option String) (now : Nat)
    (host : Host) : Engine × List Effect :=
  (e.foldRoom (e.room.updateCwd pane cwd) now).finishUpdate now host

/-- A pane id may be used again for a pane of the same shape, so the next manifest is read. -/
def foldClosed (e : Engine) (pane : ClientPaneId) (now : Nat) : Engine :=
  let (room, changed) := e.room.closePane pane
  if changed then
    signalChange { e with
      room
      lastRawStableHash := none
      focus := e.focus.invalidateClientSample now } now
  else { e with room }

def onPaneClosed (e : Engine) (pane : ClientPaneId) (now : Nat) (host : Host) :
    Engine × List Effect :=
  andThen (e.markGranted now host) fun e => (e.foldClosed pane now).finishUpdate now host

def publishDueInput (e : Engine) (now : Nat) (host : Host) : Engine × List Effect :=
  if !e.granted || e.inputDeadline.all (now < ·) then (e, [])
  else
    match e.config.clientId, e.pendingInputMs with
    | some clientId, some lastInputMs =>
      match wakeArgv host e.wakeContext (.input clientId lastInputMs) none with
      | some wake =>
        ({ e with pendingInputMs := none, lastInputPublishedAt := some now },
          [.runCommand (.wake wake) none])
      | none => ({ e with pendingInputMs := none }, [])
    | _, _ => ({ e with pendingInputMs := none }, [])

def onTimer (e : Engine) (now : Nat) (host : Host) : Engine × List Effect :=
  andThen (publishDueInput { e with timerGate := e.timerGate.onFire now } now host) fun e =>
    e.finishUpdate now host

def onUserAction (e : Engine) (clientId : Nat) (cliClientId : Option Nat) (buttonlessMotion : Bool)
    (now : Nat) (host : Host) : Engine × List Effect :=
  if !e.granted || decide (e.config.clientId ≠ some clientId) || cliClientId.isSome ||
      buttonlessMotion then (e, [])
  else
    andThen (publishDueInput { e with pendingInputMs := some now } now host) fun e => e.rearm now

/-- A session nobody is attached to is seen by nobody. -/
def foldSession (e : Engine) (connectedClients : Option Nat) (now : Nat) : Engine :=
  let updated := { e with focus := e.focus.acceptConnectedClients connectedClients }
  if decide (connectedClients = some 0) && !e.viewedTabs.isEmpty then
    signalChange { updated with viewedTabs := ∅ } now
  else updated

def onSessionUpdate (e : Engine) (connectedClients : Option Nat) (now : Nat) (host : Host) :
    Engine × List Effect :=
  let attached := connectedClients.any fun count => e.focus.connectedClients.getD 0 < count
  andThen (e, if e.granted && attached then e.applyRuntimeReconfigure else []) fun e =>
    andThen (e.markGranted now host) fun e =>
      (e.foldSession connectedClients now).finishUpdate now host

def onListClients (e : Engine) (clients : List ClientViewEntry) (now : Nat) (host : Host) :
    Engine × List Effect :=
  let (focus, update) := e.focus.acceptClientSample clients now
  let e := { e with focus }
  let settled := match update.settled with
    | some settled =>
      e.runWake (.switchSettled settled.tab settled.generation settled.clients) now host
    | none => []
  andThen (if update.sampleChanged then e.signalChange now else e, settled) fun e =>
    e.finishUpdate now host

def onFocusSidebarPipe (e : Engine) : Engine × List Effect :=
  (e, if !e.muted && e.granted then [.runCommand (.focusSidebar e.wakeContext) none] else [])

def onZoomPanePipe (e : Engine) : Engine × List Effect :=
  (e, if !e.muted && e.granted then [.runCommand (.zoomPane e.wakeContext) none] else [])

def paletteMode : Option String → PaletteMode
  | some "commands" => .commands
  | some "new" => .new
  | _ => .cards

def onPalettePipe (e : Engine) (payload : Option String) (focus : Option ClientPaneId) :
    Engine × List Effect :=
  (e, if e.muted || !e.granted then []
    else [.runCommand (.palette e.wakeContext (paletteMode payload) focus) none])

def onToggleFullscreenPipe (e : Engine) (payload : Option String) : Engine × List Effect :=
  (e, if e.muted || !e.granted then []
    else ((fullscreenPane payload).map Effect.togglePaneFullscreen).toList)

/-- A muted instance that is asked for its topology works again. -/
def revive (e : Engine) (now : Nat) : Engine :=
  if e.muted then
    { e with muted := false, staleWriterRejections := 0, timerGate := {}
             focus := e.focus.invalidateClientSample now }
  else e

def onDumpTopologyPipe (e : Engine) (now : Nat) (host : Host) : Engine × List Effect :=
  let e := e.revive now
  if !e.granted then ({ e with pendingPregrantChange := true }, [])
  else
    let e := { e with room := e.room.probeMissingPids host.panePid }
    andThen (e, e.poke .alive now host) fun e =>
      andThen (e.driveQuery now) fun e => e.rearm now

/-- `generation` is the payload as `serde_json` reads it. -/
def onRetirePipe (e : Engine) (generation : Option TopologyWriter) : Engine × List Effect :=
  match generation with
  | none => (e, [])
  | some generation =>
    let own := e.writer
    if generation.build.isSome && generation.config.isSome &&
        (decide (own.build ≠ generation.build) || decide (own.config ≠ generation.config)) then
      (e, [.closeSelf])
    else if toLex (generation.loadedAtMs, generation.pluginId) ≤ toLex (own.loadedAtMs, own.pluginId)
    then (e, [])
    else if own.pluginId = generation.pluginId then ({ e with muted := true }, [])
    else (e, [.closeSelf])

/-- A topology was refused for its writer. -/
def countRejection (e : Engine) (issuedAt : Nat) : Engine :=
  if e.latestAcceptedTopologyAt.any (issuedAt ≤ ·) then e
  else
    { e with
      staleWriterRejections := e.staleWriterRejections + 1
      muted := e.muted || decide (staleWriterMuteThreshold ≤ e.staleWriterRejections + 1) }

/-- A topology was accepted. Pokes that fell due while muted were spent unpublished. -/
def acceptTopology (e : Engine) (issuedAt now : Nat) : Engine :=
  let accepted := { e with
    latestAcceptedTopologyAt := some ((e.latestAcceptedTopologyAt.map (max · issuedAt)).getD issuedAt)
    staleWriterRejections := 0 }
  if e.muted then signalChange { accepted with muted := false } now else accepted

/-- A command could not be run: the third time in a row the engine falls back to `rimz`. -/
def countForkFailure (e : Engine) (now : Nat) (host : Host) : Engine × List Effect :=
  let failed := { e with wakeForkFailures := e.wakeForkFailures + 1 }
  if failed.wakeForkFailures < wakeForkFallbackThreshold || e.config.rimzBin.isNone then (failed, [])
  else
    let fallen := { failed with config := { e.config with rimzBin := none }, wakeForkFailures := 0 }
    (fallen, fallen.poke .alive now host)

def onRunCommandResult (e : Engine) (exitCode : Option Int) (topologyIssuedAt : Option Nat)
    (now : Nat) (host : Host) : Engine × List Effect :=
  match topologyIssuedAt with
  | some issuedAt =>
    if exitCode = some staleWriterExitCode then (e.countRejection issuedAt, [])
    else if exitCode = some 0 then
      (acceptTopology { e with wakeForkFailures := 0 } issuedAt now).finishUpdate now host
    else e.countForkFailure now host
  | none =>
    if exitCode = some 0 then ({ e with wakeForkFailures := 0 }, [])
    else e.countForkFailure now host

end Engine

/-- What the shell calls the engine with. -/
inductive Callback where
  | load
  | permissionGranted
  | permissionDenied
  | paneManifest (rawHash : Nat)
      (project : ExtTreeMap Nat String compare → ExtTreeMap Nat (List PaneFields) compare)
  | tabUpdate (active : Option Nat) (tabNames : ExtTreeMap Nat String compare)
      (tabIds : ExtTreeMap Nat Nat compare) (otherViewedTabs : List Nat)
  | commandChanged (pane : ClientPaneId) (command : List String) (isForeground : Bool)
  | cwdChanged (pane : ClientPaneId) (cwd : Option String)
  | paneClosed (pane : ClientPaneId)
  | timer
  | userAction (clientId : Nat) (cliClientId : Option Nat) (buttonlessMotion : Bool)
  | sessionUpdate (connectedClients : Option Nat)
  | listClients (clients : List ClientViewEntry)
  | focusSidebarPipe
  | zoomPanePipe
  | palettePipe (payload : Option String) (focus : Option ClientPaneId)
  | toggleFullscreenPipe (payload : Option String)
  | dumpTopologyPipe
  | retirePipe (generation : Option TopologyWriter)
  | runCommandResult (exitCode : Option Int) (topologyIssuedAt : Option Nat)

def Engine.on (e : Engine) (now : Nat) (host : Host) : Callback → Engine × List Effect
  | .load => e.onLoad now host
  | .permissionGranted => e.onPermissionGranted now host
  | .permissionDenied => e.onPermissionDenied now host
  | .paneManifest rawHash project => e.onPaneManifest rawHash project now host
  | .tabUpdate active tabNames tabIds otherViewedTabs =>
    e.onTabUpdate active tabNames tabIds otherViewedTabs now host
  | .commandChanged pane command isForeground =>
    e.onCommandChanged pane command isForeground now host
  | .cwdChanged pane cwd => e.onCwdChanged pane cwd now host
  | .paneClosed pane => e.onPaneClosed pane now host
  | .timer => e.onTimer now host
  | .userAction clientId cliClientId buttonlessMotion =>
    e.onUserAction clientId cliClientId buttonlessMotion now host
  | .sessionUpdate connectedClients => e.onSessionUpdate connectedClients now host
  | .listClients clients => e.onListClients clients now host
  | .focusSidebarPipe => e.onFocusSidebarPipe
  | .zoomPanePipe => e.onZoomPanePipe
  | .palettePipe payload focus => e.onPalettePipe payload focus
  | .toggleFullscreenPipe payload => e.onToggleFullscreenPipe payload
  | .dumpTopologyPipe => e.onDumpTopologyPipe now host
  | .retirePipe generation => e.onRetirePipe generation
  | .runCommandResult exitCode topologyIssuedAt =>
    e.onRunCommandResult exitCode topologyIssuedAt now host

end Rimz.Presence
