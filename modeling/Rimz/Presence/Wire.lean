import Rimz.Lib.Text
import Rimz.Presence.Policy

/-!
# What the plugin asks of the host

The commands and the runtime configuration of `wire.rs`. A command is kept as the request and the
context its arguments spell out, a topology as the payload that `serde_json` writes.
-/

namespace Rimz.Presence
open Rimz.Lib

structure CommandFailure where
  exitCode : Option Int
  detail : String
  atMs : Nat
  deriving DecidableEq

structure PluginTelemetry where
  pluginId : Option Nat := none
  pluginBuild : Option String := none
  loadedAtMs : Nat := 0
  memPages : Nat := 0
  uptimeMs : Nat := 0
  commandsCompleted : Nat := 0
  commandsSucceeded : Nat := 0
  staleWriterRejections : Nat := 0
  topologyFailures : Nat := 0
  otherFailures : Nat := 0
  zellijVersion : String := ""
  lastFailure : Option CommandFailure := none
  deriving DecidableEq

/-- The lookups the engine makes while it decides. `topologyBytes` is the length of the text
`serde_json` writes for a topology. -/
structure Host where
  panePid : Nat → Option Nat
  telemetry : PluginTelemetry
  topologyBytes : TopologyPayload → Nat

/-- `rimz sidebar wake` exits with this status when the topology's writer is not the newest. -/
def staleWriterExitCode : Int := 73

/-- Longer topologies are not sent. -/
def topologyMaxBytes : Nat := 1024 * 1024

structure WakeContext where
  rimzBin : Option String
  workspaceId : Option String
  sessionName : Option String
  deriving DecidableEq

inductive WakeRequest where
  | changed
  | alive (telemetry : PluginTelemetry)
  | input (clientId lastInputMs : Nat)
  | switchSettled (tab generation : Nat) (clients : List ClientViewEntry)
  deriving DecidableEq

/-- The arguments of a `rimz sidebar wake`. -/
structure Wake where
  context : WakeContext
  request : WakeRequest
  topology : Option TopologyPayload
  deriving DecidableEq

/-- Which requests name the session, and cannot be made without it. -/
def WakeRequest.needsSession : WakeRequest → Bool
  | .alive _ => false
  | .changed | .input _ _ | .switchSettled _ _ _ => true

/-- Which requests may carry a topology. -/
def WakeRequest.takesTopology : WakeRequest → Bool
  | .input _ _ => false
  | .changed | .alive _ | .switchSettled _ _ _ => true

def wakeArgv (host : Host) (context : WakeContext) (request : WakeRequest)
    (topology : Option TopologyPayload) : Option Wake :=
  if request.needsSession && context.sessionName.isNone then none
  else some
    { context, request
      topology := if request.takesTopology then
          topology.filter fun payload => host.topologyBytes payload ≤ topologyMaxBytes
        else none }

def publishesTopology (wake : Wake) : Bool := wake.topology.isSome

def topologyJson (sessionName : Option String) (producedAtMs : Nat) (writer : Option TopologyWriter)
    (clients : Option ClientSample) (clientsWithheld : Bool) (panes : List PaneFields) :
    Option TopologyPayload := do
  let payload ← publishedTopologyPayload (← sessionName) producedAtMs writer clients panes
  return { payload with clientsWithheld }

/-- A `u32` as Rust parses it. -/
def parseU32 (text : List Char) : Option Nat :=
  let digits := match text with
    | '+' :: rest => rest
    | _ => text
  if digits.isEmpty || !digits.all Char.isDigit then none
  else (some (digits.foldl (fun n c => 10 * n + (c.toNat - '0'.toNat)) 0)).filter (· < 2 ^ 32)

def fullscreenPane (payload : Option String) : Option ClientPaneId := do
  let raw := trim (← payload).toList
  match dropLeading "terminal_".toList raw with
  | some id => (parseU32 id).map .terminal
  | none => (parseU32 (← dropLeading "plugin_".toList raw)).map .plugin

/-! ## The runtime configuration -/

inductive ChordModifier where
  | alt
  | ctrl
  deriving DecidableEq

structure FocusChord where
  modifier : ChordModifier
  key : Char

/-- The text before and after the first character that meets a test. -/
def splitOnceAt (p : Char → Bool) (text : List Char) : Option (List Char × List Char) :=
  match text.dropWhile (!p ·) with
  | [] => none
  | _ :: after => some (text.takeWhile (!p ·), after)

def FocusChord.parse (raw : String) : Option FocusChord := do
  let (modifier, key) ← splitOnceAt (fun c => c == '+' || c == '-') (trim raw.toList)
  let name := String.ofList ((trim modifier).map Char.toLower)
  let modifier ←
    if ["alt", "meta", "m"].contains name then some ChordModifier.alt
    else if ["ctrl", "control", "c"].contains name then some ChordModifier.ctrl
    else none
  match trim key with
  | [key] => if '!' ≤ key ∧ key ≤ '~' then some { modifier, key } else none
  | _ => none

def focusKeyLabel (chord : FocusChord) : String :=
  (match chord.modifier with
    | .alt => "Alt "
    | .ctrl => "Ctrl ") ++ String.singleton chord.key

def kdlString (value : String) : String :=
  "\"" ++ String.join (value.toList.map fun
    | '\\' => "\\\\"
    | '"' => "\\\""
    | '\n' => "\\n"
    | '\r' => "\\r"
    | '\t' => "\\t"
    | c => String.singleton c) ++ "\""

def focusSidebarPipe : String := "rimz:focus_sidebar"

def zoomPanePipe : String := "rimz:zoom_pane"

def bindingKdl (pluginId : Nat) (binding : FocusChord × String) : String :=
  "        bind " ++ kdlString (focusKeyLabel binding.1) ++ " \x7b\n            MessagePluginId " ++
    toString pluginId ++ " \x7b\n                name " ++ kdlString binding.2 ++
    "\n            \x7d\n        \x7d\n"

def roomKeybindsKdl (focus zoom : Option FocusChord) (pluginId : Nat) : Option String :=
  let bindings := (focus.map (·, focusSidebarPipe)).toList ++ (zoom.map (·, zoomPanePipe)).toList
  if bindings.isEmpty then none
  else
    let modes := ["normal", "locked"].map fun mode =>
      "    " ++ mode ++ " \x7b\n" ++ String.join (bindings.map (bindingKdl pluginId)) ++ "    \x7d\n"
    some ("keybinds \x7b\n" ++ String.join modes ++ "\x7d\n")

/-- One session option. A key that is no plain identifier is left out. -/
def optionKdl (option : String × String) : String :=
  let (key, value) := option
  if key.isEmpty || !key.toList.all fun c => c.isAlphanum || c == '_' then ""
  else
    let plain := value == "true" || value == "false" ||
      (!value.isEmpty && value.toList.all Char.isDigit)
    key ++ " " ++ (if plain then value else kdlString value) ++ "\n"

structure RuntimeReconfigure where
  pluginId : Option Nat
  focusKey : Option String
  zoomKey : Option String
  sessionOptions : List (String × String)

def runtimeReconfigureKdl (config : RuntimeReconfigure) : Option String :=
  let keybinds := config.pluginId.bind fun pluginId =>
    roomKeybindsKdl (config.focusKey.bind FocusChord.parse) (config.zoomKey.bind FocusChord.parse)
      pluginId
  let kdl := String.join (config.sessionOptions.map optionKdl) ++ keybinds.getD ""
  if kdl.isEmpty then none else some kdl

end Rimz.Presence
