import Rimz.Queue.Select

/-!
# The envelope of a delivered message

What a delivery pastes into a pane (`address.rs`, `petname.rs`, `message/send.rs`): each message of
the batch under a header that says who wrote it, the messages apart by a blank line. Reading a
submitted prompt back (`alignSubmittedPrompt`) undoes this text.
-/

namespace Rimz.Queue

open Rimz.Lib

/-- The card of a live agent, as far as a header reads it. -/
structure Peer where
  kind : AgentKind
  name : Option String := none
  profile : Option String := none
  role : Option String := none
  channel : Option String := none
  checkout : Option String := none
  worktreePath : Option String := none
  rootLane : Bool := false

def composeChannel (explicit dirBasename : Option String) : Option String :=
  match explicit.filter (· ≠ "") with
  | some channel => some channel
  | none => dirBasename.filter (· ≠ "")

/-- `path.rsplit('/').next()`. -/
def lastComponent (path : String) : String :=
  String.ofList (path.toList.reverse.takeWhile (· ≠ '/')).reverse

namespace Peer

def lanePath (peer : Peer) : Option String := peer.checkout.or peer.worktreePath

/-- `AgentState::channel`. -/
def routingChannel (peer : Peer) : Option String :=
  composeChannel peer.channel (peer.lanePath.map lastComponent)

def laneLabel (peer : Peer) : Option String :=
  if peer.rootLane then some "main" else peer.routingChannel

end Peer

def recordInRootLane (channel rootChannel : Option String) : Bool :=
  channel.isNone || channel == rootChannel || channel == some "main"

def recordLaneLabel (channel rootChannel : Option String) : Option String :=
  if recordInRootLane channel rootChannel then some "main" else channel

def senderHandle (role name : Option String) (kind : AgentKind) : String :=
  "@" ++ ((role.filter (· ≠ "")).or (name.filter (· ≠ ""))).getD kind

def senderLabel (handle : String) (profile : Option String) (kind : AgentKind) : Option String :=
  let label := (profile.filter (· ≠ "")).getD kind
  let base := (dropLeading ['@'] handle.toList).getD handle.toList
  let base := ((splitOncePat ['#'] base).map (·.1)).getD base
  let role := profile.bind fun profile => (splitOncePat ['.'] profile.toList).map (·.2)
  if label.toList ≠ base ∧ role ≠ some base then some label else none

def liveSender (sender : MessageSender) (peers : List Peer) : Option Peer :=
  match sender with
  | .agent _ _ (some name) _ _ _ => peers.find? fun agent => agent.name == some name
  | _ => none

def agentSenderHandle (sender : MessageSender) (peers : List Peer)
    (targetChannel rootChannel : Option String) : Option String :=
  match sender with
  | .agent kind _ name _ role channel =>
    let live := liveSender sender peers
    let (kind, name, role, channel) := match live with
      | some agent => (agent.kind, agent.name, agent.role, agent.routingChannel)
      | none => (kind, name, role, channel)
    let includeChannel := channel != targetChannel
    let channel := match live.bind Peer.laneLabel with
      | some label => some label
      | none => channel.bind fun channel => recordLaneLabel (some channel) rootChannel
    let handle := senderHandle role name kind
    match includeChannel, channel.filter (· ≠ "") with
    | true, some channel => some (handle ++ "#" ++ channel)
    | _, _ => some handle
  | _ => none

def messageHeader (sender : MessageSender) (peers : List Peer)
    (targetChannel rootChannel : Option String) : Option String :=
  match sender with
  | .human => some "Type: USER_MESSAGE\nFrom: @user\nContent:\n"
  | .subagent _ name => some ("Type: SUBAGENT_REPORT\nFrom: @" ++ name ++ "\nContent:\n")
  | .harness notice => some ("Type: " ++ notice.headerType ++ "\nFrom: @rimz\nContent:\n")
  | .agent kind _ _ profile _ _ =>
    (agentSenderHandle sender peers targetChannel rootChannel).map fun handle =>
      let (kind, profile) := match liveSender sender peers with
        | some agent => (agent.kind, agent.profile)
        | none => (kind, profile)
      let label := match senderLabel handle profile kind with
        | some label => " (" ++ label ++ ")"
        | none => ""
      "Type: AGENT_MESSAGE\nFrom: " ++ handle ++ label ++ "\nContent:\n"
  | .system => none

section Paste
variable (peers : List Peer) (rootChannel : Option String)

/-- The header of a message of the batch, empty where it has none. -/
def headerText (record : MessageRecord) : List Char :=
  ((messageHeader record.sender peers record.channel rootChannel).getD "").toList

/-- One message of the payload: its header, where it has one, and its text. -/
def rendered (record : MessageRecord) : List Char :=
  headerText peers rootChannel record ++ record.text.toList

/-- The payload a delivery pastes for a batch. -/
def payload (records : List MessageRecord) : List Char :=
  List.intercalate "\n\n".toList (records.map (rendered peers rootChannel))

end Paste

section Headers
variable {peers : List Peer} {rootChannel : Option String}

lemma agentSenderHandle_agent (kind : AgentKind) (agentId : Option AgentSessionId)
    (name profile role channel targetChannel : Option String) :
    ∃ base, agentSenderHandle (.agent kind agentId name profile role channel) peers targetChannel
      rootChannel = some ("@" ++ base) := by
  simp only [agentSenderHandle]
  split
  · simp only [senderHandle, String.append_assoc]
    exact ⟨_, rfl⟩
  · exact ⟨_, rfl⟩

/-- An agent's header is its anchor, the line that names it, and `Content:`. -/
lemma messageHeader_agent (kind : AgentKind) (agentId : Option AgentSessionId)
    (name profile role channel targetChannel : Option String) :
    ∃ line, messageHeader (.agent kind agentId name profile role channel) peers targetChannel
      rootChannel = some ("Type: AGENT_MESSAGE\nFrom: @" ++ line ++ "\nContent:\n") := by
  have join (base label : String) :
      "Type: AGENT_MESSAGE\nFrom: " ++ ("@" ++ base) ++ label ++ "\nContent:\n"
        = "Type: AGENT_MESSAGE\nFrom: @" ++ (base ++ label) ++ "\nContent:\n" := by
    apply String.toList_injective
    simp
  obtain ⟨base, hbase⟩ : ∃ base, agentSenderHandle (.agent kind agentId name profile role channel)
      peers targetChannel rootChannel = some ("@" ++ base) :=
    agentSenderHandle_agent kind agentId name profile role channel targetChannel
  simp only [messageHeader, hbase, map_some]
  exact ⟨_, congrArg some (join _ _)⟩

end Headers

end Rimz.Queue
