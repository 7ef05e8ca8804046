import Rimz.Lib.Emit
import Rimz.Lib.OrderedMap
import Rimz.Lsp.Adaptation

/-!
# The editors of a shared language server

`lsp/broker/clients.rs`: the pure routing between the editors attached to a broker and its one
language server. Editors hold documents; the one that holds a document longest owns it, and its
text is what the server sees. Requests wait in a queue while no server runs and are pending while
one does. Diagnostics of the server are delivered to the editors whose text they describe.

Documents are keyed by the canonical form of their URI (`DocumentKey` of `lsp/query.rs`), which the
`url` crate computes: here `UrlCrate`. A field written on a frame that is no object (a panic in the
source) leaves the frame as it is.
-/

namespace Rimz.Lsp
open Rimz.Lib Std

/-- What `DocumentKey::new` asks of the `url` crate. -/
structure UrlCrate where
  Url : Type
  Path : Type
  parse : String → Option Url
  toFilePath : Url → Option Path
  fromFilePath : Path → Option Url
  text : Url → String

abbrev DocumentKey := String

/-- The canonical form of a URI: through its file path when it has one. -/
def DocumentKey.new (u : UrlCrate) (uri : String) : DocumentKey :=
  match u.parse uri with
  | none => uri
  | some url => u.text (((u.toFilePath url).bind u.fromFilePath).getD url)

abbrev ClientId := Nat

/-- Why a server's lifetime ended. -/
inductive StopReason where
  | released
  | checkoutRemoved
  | memoryPressure
  | crashed
  | stoppedByHand
  | neverLeased
  | idle
  | recycled
  | evicted
  | teamDone
  deriving DecidableEq

def StopReason.text : StopReason → String
  | .released => "released"
  | .checkoutRemoved => "checkout removed"
  | .memoryPressure => "memory pressure"
  | .crashed => "crashed"
  | .stoppedByHand => "stopped by hand"
  | .neverLeased => "never leased"
  | .idle => "idle"
  | .recycled => "recycled"
  | .evicted => "evicted"
  | .teamDone => "team done"

def StopReason.isTerminal : StopReason → Bool
  | .checkoutRemoved | .released | .neverLeased => true
  | _ => false

/-- What reaches the router. A refusal carries the text of its `QueryErr::MemoryShort`. -/
inductive Event where
  | attach (id : ClientId) (pid : Nat) (name : Option String) (sinceMs : Nat)
  | detach (id : ClientId)
  | clientFrame (id : ClientId) (frame : Value)
  | serverMessage (frame : Value)
  | serverReply (id : ClientId) (original : Value) (frame : Value)
  | lifetimeStarted (initializeResult : Value)
  | lifetimeEnded (reason : StopReason)
  | refused (message : String)

inductive Action where
  | toServer (id : ClientId) (frame : Value)
  | toClient (id : ClientId) (frame : Value)
  | detach (id : ClientId)
  | publish
  | requestStart

structure Client where
  pid : Nat
  name : Option String
  sinceMs : Nat
  ready : Bool := false
  shutdown : Bool := false
  queued : List Value := []
  pending : List (Value × String) := []
  capabilities : Value := .null

structure Progress where
  token : Value
  start : Option Value
  report : Option Value

/-- A document as one editor has it open. -/
structure Holder where
  client : ClientId
  uri : String
  text : String
  version : Int
  languageId : String
  dirty : Bool

/-- A document as it was opened at the server. -/
structure View where
  owner : ClientId
  uri : String
  version : Int
  incarnation : Nat

structure Snapshot where
  frame : Value
  text : String
  incarnation : Nat

structure OpenDocument where
  uri : String
  owner : Bool
  dirty : Bool

structure AttachedEditor where
  pid : Nat
  name : Option String
  sinceMs : Nat
  opened : List OpenDocument

structure Clients where
  server : String
  clients : ExtTreeMap ClientId Client := ∅
  documents : ExtTreeMap DocumentKey (List Holder) := ∅
  view : ExtTreeMap DocumentKey View := ∅
  snapshots : ExtTreeMap DocumentKey Snapshot := ∅
  shown : ExtTreeMap (ClientId × DocumentKey) String pairCmp := ∅
  initialized : Option Value := none
  active : Bool := false
  status : Option Value := none
  progress : List Progress := []
  next : Nat := 0

/-- The methods the router tells apart. -/
inductive Method where
  | exit
  | initializeRequest
  | initialized
  | shutdown
  | didOpen
  | didChange
  | didClose
  | didSave
  | cancelRequest
  | ignored
  | other
  deriving DecidableEq

def Method.ofText (method : String) : Method :=
  if method = "exit" then .exit
  else if method = "initialize" then .initializeRequest
  else if method = "initialized" then .initialized
  else if method = "shutdown" then .shutdown
  else if method = "textDocument/didOpen" then .didOpen
  else if method = "textDocument/didChange" then .didChange
  else if method = "textDocument/didClose" then .didClose
  else if method = "textDocument/didSave" then .didSave
  else if method = "$/cancelRequest" then .cancelRequest
  else if method = "workspace/didChangeConfiguration"
      ∨ method = "workspace/didChangeWorkspaceFolders"
      ∨ method = "workspace/didChangeWatchedFiles"
      ∨ method = "$/setTrace" ∨ method = "$/logTrace" then .ignored
  else .other

/-- The method of a frame, if it names one. -/
def method? (frame : Value) : Option String :=
  (frame.index "method").asStr

/-- A notification or request of the broker's own. -/
def notification (method : String) (params : List (String × Value)) : Value :=
  .object [("jsonrpc", .string "2.0"), ("method", .string method), ("params", .object params)]

/-- A request of the broker's own. -/
def numbered (n : Nat) (method : String) (params : List (String × Value)) : Value :=
  .object [("id", .string ("rimz:" ++ toString n)), ("jsonrpc", .string "2.0"),
    ("method", .string method), ("params", .object params)]

/-- The answer to a request. -/
def result (request value : Value) : Value :=
  .object [("id", request), ("jsonrpc", .string "2.0"), ("result", value)]

def error (client : ClientId) (request : Value) (code : Int) (message : String) : Action :=
  .toClient client (.object [
    ("error", .object [("code", .int code), ("message", .string message)]),
    ("id", request), ("jsonrpc", .string "2.0")])

def showMessage (client : ClientId) (kind : Int) (message : String) : Action :=
  .toClient client (notification "window/showMessage"
    [("message", .string message), ("type", .int kind)])

def didOpenFrame (owner : Holder) : Value :=
  notification "textDocument/didOpen" [("textDocument", .object [
    ("languageId", .string owner.languageId), ("text", .string owner.text),
    ("uri", .string owner.uri), ("version", .int owner.version)])]

def didChangeFrame (uri : String) (owner : Holder) : Value :=
  notification "textDocument/didChange" [
    ("contentChanges", .array [.object [("text", .string owner.text)]]),
    ("textDocument", .object [("uri", .string uri), ("version", .int owner.version)])]

def didCloseFrame (uri : String) : Value :=
  notification "textDocument/didClose" [("textDocument", .object [("uri", .string uri)])]

def diagnosticsFrame (uri : String) : Value :=
  notification "textDocument/publishDiagnostics" [("diagnostics", .array []), ("uri", .string uri)]

namespace Clients

/-- A broker before its first event. -/
def new (server : String) : Clients :=
  { server }

def holders (c : Clients) (key : DocumentKey) : List Holder :=
  (c.documents[key]?).getD []

/-- The editor whose text the server sees: the first holder. -/
def owner (c : Clients) (key : DocumentKey) : Option Holder :=
  (c.documents[key]?).bind List.head?

/-- What one editor holds under a key. -/
def holding (c : Clients) (id : ClientId) (key : DocumentKey) : Option Holder :=
  (c.documents[key]?).bind fun holders => holders.find? fun h => h.client = id

/-- The editors as the registry publishes them. -/
def attached (c : Clients) : List AttachedEditor :=
  c.clients.toList.map fun (id, client) =>
    { pid := client.pid
      name := client.name
      sinceMs := client.sinceMs
      opened := c.documents.toList.filterMap fun (key, holders) =>
        (holders.find? fun h => h.client = id).map fun h =>
          { uri := h.uri, owner := (c.owner key).any fun o => o.client = id, dirty := h.dirty } }

/-- The server's view of a document whose owner has changed is closed. -/
def closeStale (c : Clients) (key : DocumentKey) : Clients × List Action :=
  match c.view[key]? with
  | some previous =>
    if (c.owner key).all fun h => h.client ≠ previous.owner then
      ({ c with snapshots := c.snapshots.erase key, view := c.view.erase key },
        [.toServer previous.owner (didCloseFrame previous.uri)])
    else (c, [])
  | none => (c, [])

/-- The owner's text reaches the server: a change when its version moved, or the opening. -/
def showOwner (c : Clients) (key : DocumentKey) : Clients × List Action :=
  match c.owner key with
  | none => (c, [])
  | some owner =>
    match c.view[key]? with
    | some view =>
      if view.version ≠ owner.version then
        ({ c with view := c.view.insert key { view with version := owner.version } },
          [.toServer owner.client (didChangeFrame view.uri owner)])
      else (c, [])
    | none =>
      let next := c.next + 1
      ({ c with
          next
          view := c.view.insert key
            { owner := owner.client, uri := owner.uri, version := owner.version,
              incarnation := next } },
        [.toServer owner.client (didOpenFrame owner)])

/-- Bring the server's view of a document in line with its owner. -/
def sync (c : Clients) (key : DocumentKey) : Clients × List Action :=
  if !c.active then (c, [])
  else andThen (c.closeStale key) fun c => c.showOwner key

/-- Diagnostics reach an editor that holds the text they describe, or that holds no text. -/
def deliver (c : Clients) (id : ClientId) (key : DocumentKey) (snapshot : Snapshot) :
    Clients × List Action :=
  if (c.clients[id]?).any (·.ready) then
    match c.holding id key with
    | some holder =>
      if holder.text ≠ snapshot.text then (c, [])
      else
        let frame := snapshot.frame.modify "params" (·.set "uri" (.string holder.uri))
        let frame :=
          if (c.view[key]?).all fun view => view.owner ≠ id then
            frame.modify "params" (·.set "version" (.int holder.version))
          else frame
        ({ c with shown := c.shown.insert (id, key) snapshot.text }, [.toClient id frame])
    | none => (c, [.toClient id (snapshot.frame.modify "params" (·.remove "version"))])
  else (c, [])

/-- The diagnostics the server last published for its current view of a document. -/
def replay (c : Clients) (id : ClientId) (key : DocumentKey) : Clients × List Action :=
  match c.snapshots[key]? with
  | some snapshot =>
    if (c.view[key]?).any fun view => view.incarnation = snapshot.incarnation then
      c.deliver id key snapshot
    else (c, [])
  | none => (c, [])

/-- An editor is gone: what it held is released, document by document. -/
def release (c : Clients) (id : ClientId) (key : DocumentKey) : Clients × List Action :=
  sync { c with documents := c.documents.modify key fun hs => hs.filter fun h => h.client ≠ id } key

/-- Documents nobody holds are forgotten. -/
def forgetUnheld (c : Clients) : Clients :=
  { c with documents := c.documents.filter fun _ holders => !holders.isEmpty }

def detach (c : Clients) (id : ClientId) : Clients × List Action :=
  match c.clients[id]? with
  | none => (c, [])
  | some _ =>
    let released := emitAll (fun c key => c.release id key)
      { c with clients := c.clients.erase id } c.documents.keys
    andThen released fun c =>
      ({ c.forgetUnheld with shown := c.shown.filter fun shown _ => shown.1 ≠ id }, [.publish])

/-- A request that has to wait for a server; the queue of an editor is bounded. -/
def enqueue (c : Clients) (id : ClientId) (client : Client) (frame : Value) :
    Clients × List Action :=
  if client.queued.length = 256 then
    (c, [error id (frame.index "id") (-32803) "request queue full"])
  else
    ({ c with clients := c.clients.insert id { client with queued := client.queued ++ [frame] } },
      [.requestStart])

/-- An editor opens a document. -/
def didOpen (c : Clients) (id : ClientId) (uri text : String) (version : Int) (language : String)
    (key : DocumentKey) : Clients × List Action :=
  let holders := c.holders key
  if holders.any fun h => h.client = id then (c, [])
  else
    let holder : Holder :=
      { client := id, uri, text, version, languageId := language, dirty := false }
    let opened := { c with documents := c.documents.insert key (holders ++ [holder]) }
    andThen (andThen (opened.sync key) fun c => c.replay id key) fun c => (c, [.publish])

/-- An editor closes a document it holds. -/
def didClose (c : Clients) (id : ClientId) (key : DocumentKey) (holders : List Holder)
    (index : Nat) : Clients × List Action :=
  let closed := { c with
    documents := c.documents.insert key (holders.eraseIdx index)
    shown := c.shown.erase (id, key) }
  andThen (closed.sync key) fun c => (c.forgetUnheld, [.publish])

/-- The one full-text change of a `didChange` frame. -/
def changeOf (frame : Value) : Option (String × Int) :=
  match ((frame.index "params").index "contentChanges").asArray with
  | some [change] =>
    if (change.get? "range").isSome then none
    else
      match (change.index "text").asStr,
        (((frame.index "params").index "textDocument").index "version").asI64 with
      | some text, some version => some (text, version)
      | _, _ => none
  | _ => none

/-- An editor changes a document it holds. -/
def didChange (c : Clients) (id : ClientId) (key : DocumentKey) (holders : List Holder)
    (index : Nat) (holder : Holder) (text : String) (version : Int) : Clients × List Action :=
  let stale := (c.shown[(id, key)]?).any fun shown => shown ≠ text
  let changed := { c with
    snapshots := if index = 0 then c.snapshots.erase key else c.snapshots
    documents := c.documents.insert key
      (holders.set index { holder with text, version, dirty := true })
    shown := if stale then c.shown.erase (id, key) else c.shown }
  -- The server republishes for its owner's new text; a clear would only flicker.
  let cleared :=
    if stale ∧ index ≠ 0 ∧ (c.clients[id]?).any (·.ready) then
      [.toClient id (diagnosticsFrame holder.uri)]
    else []
  andThen (andThen (changed, cleared) fun c => c.sync key) fun c =>
    (c, if holder.dirty then [] else [.publish])

/-- The server hears of a save from the owner only, under the URI it knows. -/
def forwardSave (c : Clients) (id : ClientId) (key : DocumentKey) (frame : Value) :
    Clients × List Action :=
  match c.view[key]? with
  | some view =>
    if view.owner = id then
      (c, [.toServer id (frame.modify "params"
        (·.modify "textDocument" (·.set "uri" (.string view.uri))))])
    else (c, [])
  | none => (c, [])

/-- An editor saves a document it holds. -/
def didSave (c : Clients) (id : ClientId) (key : DocumentKey) (holders : List Holder)
    (index : Nat) (holder : Holder) (frame : Value) : Clients × List Action :=
  let saved :=
    if holder.dirty then
      ({ c with documents := c.documents.insert key (holders.set index { holder with dirty := false }) },
        [.publish])
    else (c, [])
  andThen saved fun c => c.forwardSave id key frame

/-- A document notification of an editor. -/
def document (u : UrlCrate) (c : Clients) (id : ClientId) (method : Method) (frame : Value) :
    Clients × List Action :=
  let doc := (frame.index "params").index "textDocument"
  match (doc.index "uri").asStr with
  | none => (c, [])
  | some uri =>
    let key := DocumentKey.new u uri
    if method = .didOpen then
      match (doc.index "text").asStr, (doc.index "version").asI64, (doc.index "languageId").asStr with
      | some text, some version, some language => c.didOpen id uri text version language key
      | _, _, _ => (c, [])
    else
      match c.documents[key]? with
      | none => (c, [])
      | some holders =>
        match holders.findIdx? (fun h => h.client = id), holders.find? (fun h => h.client = id) with
        | some index, some holder =>
          match method with
          | .didClose => c.didClose id key holders index
          | .didChange =>
            match changeOf frame with
            | some (text, version) => c.didChange id key holders index holder text version
            | none => (c, [])
          | .didSave => c.didSave id key holders index holder frame
          | _ => (c, [])
        | _, _ => (c, [])

/-- The server's capabilities as an editor sees them: full-text sync and fixed folders. -/
def initializeResult (result : Value) : Value :=
  let old := (result.index "capabilities").index "textDocumentSync"
  let sync : Value := .object [("change", .int 1), ("openClose", .bool true),
    ("save", (old.get? "save").getD (.bool true))]
  let sync := ["willSave", "willSaveWaitUntil"].foldl (fun sync key =>
    match old.get? key with
    | some value => sync.set key value
    | none => sync) sync
  let result := result.modify "capabilities" (·.set "textDocumentSync" sync)
  result.modify "capabilities" (·.modify "workspace" (·.modify "workspaceFolders" fun folders =>
    let folders :=
      if folders.isObject then folders
      else
        match folders.asBool with
        | some supported => .object [("supported", .bool supported)]
        | none => .object []
    folders.set "changeNotifications" (.bool false)))

/-- An editor introduces itself: it is answered at once when a server ever answered. -/
def initializeClient (c : Clients) (id : ClientId) (client : Client) (frame : Value) :
    Clients × List Action :=
  let params := frame.index "params"
  let client := { client with capabilities := params.index "capabilities" }
  let (client, named) : Client × List Action :=
    match ((params.index "clientInfo").index "name").asStr with
    | some name => ({ client with name := some name }, [.publish])
    | none => (client, [])
  let c := { c with clients := c.clients.insert id client }
  andThen (c, named) fun c =>
    match c.initialized with
    | some value =>
      (c, (if c.active then [] else [.requestStart])
        ++ [.toClient id (result (frame.index "id") (initializeResult value))])
    | none => c.enqueue id client frame

/-- An editor is told of one open progress. -/
def tellProgress (id : ClientId) (c : Clients) (progress : Progress) : Clients × List Action :=
  let next := c.next + 1
  ({ c with next },
    .toClient id (numbered next "window/workDoneProgress/create" [("token", progress.token)])
      :: (progress.start.toList ++ progress.report.toList).map (.toClient id))

/-- An editor is ready: it is told what it missed, once. -/
def becomeReady (c : Clients) (id : ClientId) (client : Client) : Clients × List Action :=
  if client.ready then (c, [])
  else
    let c := { c with clients := c.clients.insert id { client with ready := true } }
    let told := andThen (c, c.status.toList.map (.toClient id)) fun c =>
      emitAll (tellProgress id) c c.progress
    andThen told fun c =>
      emitAll (fun c key => c.replay id key) c
        (c.documents.keys.filter fun key => (c.holding id key).isSome)

/-- An editor cancels a request: here while it waits, at the server when it was sent on. -/
def cancelRequest (c : Clients) (id : ClientId) (client : Client) (frame : Value) :
    Clients × List Action :=
  let request := (frame.index "params").index "id"
  if client.queued.any fun v => v.index "id" = request then
    let queued := client.queued.eraseP fun v => v.index "id" = request
    ({ c with clients := c.clients.insert id { client with queued } },
      [error id request (-32800) "request cancelled"])
  else if client.pending.any fun pending => pending.1 = request then (c, [.toServer id frame])
  else (c, [])

/-- Anything else goes to the server, or waits for one when it asks for an answer. -/
def forward (u : UrlCrate) (c : Clients) (id : ClientId) (client : Client) (method : String)
    (frame : Value) : Clients × List Action :=
  if c.active then
    let pending :=
      match frame.get? "id" with
      | some request => client.pending ++ [(request, method)]
      | none => client.pending
    ({ c with clients := c.clients.insert id { client with pending } },
      [.toServer id (Adaptation.uris
        (fun uri => (c.view[DocumentKey.new u uri]?).map (·.uri)) frame)])
  else if (frame.get? "id").isSome then c.enqueue id client frame
  else (c, [])

/-- A frame of an editor that has not shut down. -/
def dispatch (u : UrlCrate) (c : Clients) (id : ClientId) (client : Client) (method : String)
    (frame : Value) : Clients × List Action :=
  match Method.ofText method with
  | .initializeRequest => c.initializeClient id client frame
  | .initialized => c.becomeReady id client
  | .shutdown =>
    ({ c with clients := c.clients.insert id { client with shutdown := true } },
      [.toClient id (result (frame.index "id") .null)])
  | .cancelRequest => c.cancelRequest id client frame
  | .ignored => (c, [])
  | .other => c.forward u id client method frame
  | .exit => (c, [])
  | doc => c.document u id doc frame

def clientFrame (u : UrlCrate) (c : Clients) (id : ClientId) (frame : Value) :
    Clients × List Action :=
  match c.clients[id]?, method? frame with
  | some client, some method =>
    if Method.ofText method = .exit then
      andThen (c.detach id) fun c => (c, [.detach id])
    else if client.shutdown then
      (c, (frame.get? "id").toList.map fun request => error id request (-32600) "client shut down")
    else c.dispatch u id client method frame
  | _, _ => (c, [])

/-- An empty list of diagnostics clears everyone's. -/
def clearFor (c : Clients) (key : DocumentKey) (frame : Value) (id : ClientId) : Value :=
  let clear :=
    match c.holding id key with
    | some holder => frame.modify "params" (·.set "uri" (.string holder.uri))
    | none => frame
  if (c.view[key]?).all fun view => view.owner ≠ id then
    clear.modify "params" (·.remove "version")
  else clear

def readyIds (c : Clients) : List ClientId :=
  (c.clients.toList.filter fun client => client.2.ready).map (·.1)

/-- The server publishes diagnostics. -/
def diagnostics (u : UrlCrate) (c : Clients) (frame : Value) : Clients × List Action :=
  let params := frame.index "params"
  match (params.index "uri").asStr with
  | none => (c, [])
  | some uri =>
    let key := DocumentKey.new u uri
    if (params.index "diagnostics").asArray.any List.isEmpty then
      let c := { c with
        snapshots := c.snapshots.erase key
        shown := c.shown.filter fun shown _ => shown.2 ≠ key }
      (c, c.readyIds.map fun id => .toClient id (c.clearFor key frame id))
    else
      match c.view[key]? with
      | none =>
        (c, (c.readyIds.filter fun id => (c.holding id key).isNone).map fun id =>
          .toClient id (frame.modify "params" (·.remove "version")))
      | some view =>
        if (params.get? "version").any fun version => version ≠ .int view.version then
          if (c.clients[view.owner]?).any (·.ready) then
            (c, [.toClient view.owner (frame.modify "params" (·.set "uri" (.string view.uri)))])
          else (c, [])
        else
          let snapshot : Snapshot :=
            { frame, text := ((c.owner key).map (·.text)).getD "", incarnation := view.incarnation }
          emitAll (fun c id => c.deliver id key snapshot)
            { c with snapshots := c.snapshots.insert key snapshot } c.clients.keys

/-- Every ready editor hears the server. -/
def fanOut (c : Clients) (frame : Value) : Clients × List Action :=
  (c, c.readyIds.map fun id => .toClient id frame)

/-- Progress of a token the server created. -/
def noteProgress (c : Clients) (frame : Value) : Clients :=
  let params := frame.index "params"
  let token := params.index "token"
  match ((params.index "value").index "kind").asStr with
  | some kind =>
    { c with progress :=
        if kind = "begin" then
          editFirst (fun p => p.token = token) (fun p => { p with start := some frame }) c.progress
        else if kind = "report" then
          editFirst (fun p => p.token = token) (fun p => { p with report := some frame }) c.progress
        else if kind = "end" then c.progress.eraseP fun p => p.token = token
        else c.progress }
  | none => c
where
  /-- Edit the first element of a list that is meant. -/
  editFirst (p : Progress → Bool) (f : Progress → Progress) : List Progress → List Progress
    | [] => []
    | a :: as => if p a then f a :: as else a :: editFirst p f as

/-- The server starts a progress. -/
def createProgress (c : Clients) (frame : Value) : Clients :=
  let token := (frame.index "params").index "token"
  if c.progress.any fun p => p.token = token then c
  else { c with progress := c.progress ++ [{ token, start := none, report := none }] }

/-- A message of the server that is no reply. -/
def serverMessage (u : UrlCrate) (c : Clients) (frame : Value) : Clients × List Action :=
  match method? frame with
  | none => (c, [])
  | some method =>
    if method = "textDocument/publishDiagnostics" then c.diagnostics u frame
    else if method = "experimental/serverStatus" then
      fanOut { c with status := some frame } frame
    else if method = "$/progress" then (c.noteProgress frame).fanOut frame
    else if method = "window/showMessage" ∨ method = "window/logMessage" then c.fanOut frame
    else if method = "window/workDoneProgress/create" ∨ method = "workspace/semanticTokens/refresh"
        ∨ method = "workspace/codeLens/refresh" ∨ method = "workspace/inlayHint/refresh"
        ∨ method = "workspace/diagnostic/refresh" then
      let c := if method = "window/workDoneProgress/create" then c.createProgress frame else c
      let next := c.next + 1
      fanOut { c with next } (frame.set "id" (.string ("rimz:" ++ toString next)))
    else (c, [])

/-- Every waiting request of every editor is answered with an error. -/
def cancelRequests (c : Clients) (message : String) (kind : Int) : Clients × List Action :=
  ({ c with clients := c.clients.map fun _ client => { client with pending := [], queued := [] } },
    c.clients.toList.flatMap fun (id, client) =>
      if client.pending.isEmpty ∧ client.queued.isEmpty then []
      else
        (client.pending.map (·.1) ++ client.queued.map (·.index "id")).map
            (fun request => error id request (-32802) message)
          ++ [showMessage id kind message])

/-- The server answers a request that was sent on. -/
def serverReply (u : UrlCrate) (c : Clients) (id : ClientId) (original frame : Value) :
    Clients × List Action :=
  match c.clients[id]? with
  | none => (c, [])
  | some client =>
    match client.pending.find? fun pending => pending.1 = original with
    | none => (c, [])
    | some (_, method) =>
      let pending := client.pending.eraseP fun pending => pending.1 = original
      let frame := Adaptation.editField frame "result" fun result =>
        Adaptation.reply result method client.capabilities
      let frame := Adaptation.uris
        (fun uri => (c.holding id (DocumentKey.new u uri)).map (·.uri)) frame
      ({ c with clients := c.clients.insert id { client with pending } },
        [.toClient id (frame.set "id" original)])

/-- The requests of an editor that waited for a server are taken up again. -/
def resume (u : UrlCrate) (c : Clients) (id : ClientId) : Clients × List Action :=
  match c.clients[id]? with
  | none => (c, [])
  | some client =>
    emitAll (fun c frame => c.clientFrame u id frame)
      { c with clients := c.clients.insert id { client with queued := [] } } client.queued

/-- A server is there: it is shown every document, then asked every waiting request. -/
def lifetimeStarted (u : UrlCrate) (c : Clients) (initializeResult : Value) :
    Clients × List Action :=
  let c := { c with
    active := true, initialized := some initializeResult, snapshots := ∅, view := ∅ }
  andThen (emitAll sync c c.documents.keys) fun c => emitAll (resume u) c c.clients.keys

/-- The server is gone. -/
def lifetimeEnded (u : UrlCrate) (c : Clients) (reason : StopReason) : Clients × List Action :=
  let c := { c with progress := [], active := false, snapshots := ∅, view := ∅ }
  let message := "language server " ++ c.server ++ " stopped: " ++ reason.text
  let status := if reason.isTerminal then message else message ++ "; the next request restarts it"
  andThen (c.cancelRequests message 2) fun c =>
    c.serverMessage u (notification "experimental/serverStatus"
      [("health", .string "warning"), ("message", .string status), ("quiescent", .bool true)])

def attach (c : Clients) (id : ClientId) (pid : Nat) (name : Option String) (sinceMs : Nat) :
    Clients × List Action :=
  ({ c with clients := c.clients.insert id { pid, name, sinceMs } }, [.publish])

/-- One event: the new state and what the driver has to do, in order. -/
def event (u : UrlCrate) (c : Clients) : Event → Clients × List Action
  | .attach id pid name sinceMs => c.attach id pid name sinceMs
  | .detach id => c.detach id
  | .clientFrame id frame => c.clientFrame u id frame
  | .serverMessage frame => c.serverMessage u frame
  | .serverReply id original frame => c.serverReply u id original frame
  | .lifetimeStarted initializeResult => c.lifetimeStarted u initializeResult
  | .lifetimeEnded reason => c.lifetimeEnded u reason
  | .refused message => c.cancelRequests message 1

end Clients

end Rimz.Lsp
