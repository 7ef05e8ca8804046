import Rimz.Lsp.Clients

/-!
# What each part of the router leaves alone

Documents and requests are two sides of one state. Here is, for each function of the router, which
side it does not touch: the editors' queues (`clients`), or the documents and the server's view of
them (`Undisturbed`).
-/

namespace Rimz.Lsp
open Rimz.Lib Std

/-- The frame of a document notification that changes what is open at the server. -/
def Edits (frame : Value) : Prop :=
  ∃ method, method? frame = some method ∧
    (Method.ofText method = .didOpen ∨ Method.ofText method = .didChange
      ∨ Method.ofText method = .didClose)

/-- An action that edits no document at the server. -/
def EditsNothing : Action → Prop
  | .toServer _ frame => ¬ Edits frame
  | _ => True

/-- Documents, the server's view of them and the lifetime are as they were. -/
def Undisturbed (c c' : Clients) : Prop :=
  c'.documents = c.documents ∧ c'.view = c.view ∧ c'.active = c.active

/-- The editors and what is open at the server are as they were. -/
def Aside (c c' : Clients) : Prop :=
  c'.clients = c.clients ∧ Undisturbed c c'

lemma Undisturbed.refl (c : Clients) : Undisturbed c c :=
  ⟨rfl, rfl, rfl⟩

lemma Undisturbed.trans {a b c} (h : Undisturbed a b) (h' : Undisturbed b c) : Undisturbed a c :=
  ⟨h'.1.trans h.1, h'.2.1.trans h.2.1, h'.2.2.trans h.2.2⟩

lemma Aside.refl (c : Clients) : Aside c c :=
  ⟨rfl, .refl c⟩

lemma Aside.trans {a b c} (h : Aside a b) (h' : Aside b c) : Aside a c :=
  ⟨h'.1.trans h.1, h.2.trans h'.2⟩

/-- Other methods edit no document. -/
lemma not_edits {frame method k} (hm : method? frame = some method) (hk : Method.ofText method = k)
    (other : k ≠ .didOpen ∧ k ≠ .didChange ∧ k ≠ .didClose := by decide) : ¬ Edits frame := by
  rintro ⟨m, hm', h⟩
  obtain rfl : method = m := by simpa [hm] using hm'
  subst hk
  exact h.elim other.1 (·.elim other.2.1 other.2.2)

/-- Adapting the URIs keeps the method. -/
lemma method?_uris (map : String → Option String) {frame} :
    method? (Adaptation.uris map frame) = method? frame := by
  unfold method? Value.index
  rw [Adaptation.get?_uris]
  cases hg : frame.get? "method" with
  | none => rfl
  | some v => cases v <;> simp [Adaptation.urisUnder, Value.asStr]

lemma method?_set_of_isObject {frame w k} (ho : frame.isObject) (hk : k ≠ "method") :
    method? (frame.set k w) = method? frame := by
  unfold method? Value.index
  rw [Value.get?_set ho, if_neg hk]

lemma method?_set {frame w k m} (hk : k ≠ "method") (hm : method? frame = some m) :
    method? (frame.set k w) = some m :=
  (method?_set_of_isObject (Value.isObject_of_get? (Value.get?_of_asStr hm)) hk).trans hm

lemma method?_modify {frame k m f} (hk : k ≠ "method") (hm : method? frame = some m) :
    method? (frame.modify k f) = some m :=
  method?_set hk hm

namespace Clients
variable {u : UrlCrate} {c : Clients} {id : ClientId} {key : DocumentKey}

lemma deliver_aside {snapshot} : Emits (Aside c) EditsNothing (c.deliver id key snapshot) := by
  unfold deliver
  split
  · split
    · split
      · exact .nil (.refl c)
      · exact .one (.refl c) trivial
    · exact .one (.refl c) trivial
  · exact .nil (.refl c)

lemma replay_aside : Emits (Aside c) EditsNothing (c.replay id key) := by
  unfold replay
  split
  · split
    · exact deliver_aside
    · exact .nil (.refl c)
  · exact .nil (.refl c)

lemma fanOut_aside {c' frame} (h : Aside c c') : Emits (Aside c) EditsNothing (c'.fanOut frame) := by
  refine ⟨h, fun a ha => ?_⟩
  obtain ⟨id, -, rfl⟩ := mem_map.mp ha
  trivial

lemma diagnostics_aside {frame} : Emits (Aside c) EditsNothing (c.diagnostics u frame) := by
  unfold diagnostics
  dsimp only
  split
  · exact .nil (.refl c)
  split
  · refine ⟨.refl c, fun a ha => ?_⟩
    obtain ⟨id, -, rfl⟩ := mem_map.mp ha
    trivial
  split
  · refine ⟨.refl c, fun a ha => ?_⟩
    obtain ⟨id, -, rfl⟩ := mem_map.mp ha
    trivial
  split
  · split
    · exact .one (.refl c) trivial
    · exact .nil (.refl c)
  · exact .emitAll (.refl c) fun c' id _ h => deliver_aside.imp fun _ => h.trans

lemma noteProgress_aside {frame} : Aside c (c.noteProgress frame) := by
  unfold noteProgress
  dsimp only
  split <;> exact .refl c

lemma createProgress_aside {frame} : Aside c (c.createProgress frame) := by
  unfold createProgress
  dsimp only
  split <;> exact .refl c

lemma serverMessage_aside {frame} : Emits (Aside c) EditsNothing (c.serverMessage u frame) := by
  unfold serverMessage
  split
  · exact .nil (.refl c)
  split_ifs
  · exact diagnostics_aside
  · exact fanOut_aside (.refl c)
  · exact fanOut_aside noteProgress_aside
  · exact fanOut_aside (.refl c)
  · exact fanOut_aside (createProgress_aside.trans (.refl _))
  · exact fanOut_aside (.refl c)
  · exact .nil (.refl c)

lemma closeStale_keeps : (c.closeStale key).1.clients = c.clients
    ∧ (c.closeStale key).1.documents = c.documents := by
  unfold closeStale
  split
  · split <;> exact ⟨rfl, rfl⟩
  · exact ⟨rfl, rfl⟩

lemma showOwner_keeps : (c.showOwner key).1.clients = c.clients
    ∧ (c.showOwner key).1.documents = c.documents := by
  unfold showOwner
  split
  · exact ⟨rfl, rfl⟩
  · split
    · split <;> exact ⟨rfl, rfl⟩
    · exact ⟨rfl, rfl⟩

/-- Synchronizing leaves the editors alone. -/
lemma sync_clients : (c.sync key).1.clients = c.clients := by
  unfold sync
  split
  · rfl
  · exact showOwner_keeps.1.trans closeStale_keeps.1

lemma sync_documents : (c.sync key).1.documents = c.documents := by
  unfold sync
  split
  · rfl
  · exact showOwner_keeps.2.trans closeStale_keeps.2

lemma release_clients : (c.release id key).1.clients = c.clients :=
  sync_clients

lemma forwardSave_fst {frame} : (c.forwardSave id key frame).1 = c := by
  unfold forwardSave
  split
  · split <;> rfl
  · rfl

lemma document_clients {method frame} : (c.document u id method frame).1.clients = c.clients := by
  unfold document
  dsimp only
  split
  · rfl
  split
  · split
    · unfold didOpen
      dsimp only
      split
      · rfl
      · exact replay_aside.state.1.trans sync_clients
    · rfl
  split
  · rfl
  split
  · split
    · exact sync_clients
    · split
      · exact sync_clients
      · rfl
    · unfold didSave
      dsimp only [andThen]
      rw [forwardSave_fst]
      split <;> rfl
    · rfl
  · rfl

lemma detach_clients : (c.detach id).1.clients = c.clients.erase id := by
  unfold detach
  split
  · rename_i h
    apply ExtTreeMap.ext_getElem?
    intro k
    rw [get_erase]
    split
    · rename_i hk
      rw [← hk, h]
    · rfl
  · have hr : Emits (fun c' => c'.clients = c.clients.erase id) (fun _ => True)
        (emitAll (fun c key => c.release id key) { c with clients := c.clients.erase id }
          c.documents.keys) :=
      .emitAll rfl fun c' key _ h => ⟨release_clients.trans h, fun _ _ => trivial⟩
    exact hr.state

lemma enqueue_undisturbed {client frame} :
    Emits (Undisturbed c) EditsNothing (c.enqueue id client frame) := by
  unfold enqueue
  split
  all_goals exact .one (.refl c) trivial

/-- An introduction inserts the editor under its name and capabilities, and is answered or waits. -/
lemma initializeClient_eq (c : Clients) (id : ClientId) (client : Client) (frame : Value) :
    ∃ client' named, client'.queued = client.queued ∧ client'.pending = client.pending
      ∧ (∀ a ∈ named, a = .publish)
      ∧ c.initializeClient id client frame
        = andThen ({ c with clients := c.clients.insert id client' }, named) fun c =>
          match c.initialized with
          | some value =>
            (c, (if c.active then [] else [.requestStart])
              ++ [.toClient id (result (frame.index "id") (initializeResult value))])
          | none => c.enqueue id client' frame := by
  unfold initializeClient
  dsimp only
  split <;> refine ⟨_, _, ?_, ?_, ?_, rfl⟩ <;> simp

lemma initializeClient_undisturbed {client frame} :
    Emits (Undisturbed c) EditsNothing (c.initializeClient id client frame) := by
  obtain ⟨client', named, -, -, publish, e⟩ := initializeClient_eq c id client frame
  rw [e]
  apply Emits.andThen (P := Undisturbed c)
  · exact ⟨.refl c, fun a ha => publish a ha ▸ trivial⟩
  · intro c' hc
    split
    · refine ⟨hc, fun a ha => ?_⟩
      rcases mem_append.mp ha with ha | ha
      · split at ha
        · exact absurd ha not_mem_nil
        · exact mem_singleton.mp ha ▸ trivial
      · exact mem_singleton.mp ha ▸ trivial
    · exact enqueue_undisturbed.imp fun _ => hc.trans

lemma tellProgress_undisturbed {progress} :
    Emits (Undisturbed c) EditsNothing (tellProgress id c progress) := by
  refine ⟨.refl c, fun a ha => ?_⟩
  rcases mem_cons.mp ha with rfl | ha
  · trivial
  · obtain ⟨frame, -, rfl⟩ := mem_map.mp ha
    trivial

lemma becomeReady_undisturbed {client} :
    Emits (Undisturbed c) EditsNothing (c.becomeReady id client) := by
  unfold becomeReady
  split
  · exact .nil (.refl c)
  apply Emits.andThen (P := Undisturbed c)
  · apply Emits.andThen (P := Undisturbed c)
    · refine ⟨.refl c, fun a ha => ?_⟩
      obtain ⟨frame, -, rfl⟩ := mem_map.mp ha
      trivial
    · intro c' hc
      exact .emitAll hc fun c'' p _ h => tellProgress_undisturbed.imp fun _ => h.trans
  · intro c' hc
    exact .emitAll hc fun c'' key _ h => replay_aside.imp fun _ ha => h.trans ha.2

lemma cancelRequest_undisturbed {client frame method} (hm : method? frame = some method)
    (hc : Method.ofText method = .cancelRequest) :
    Emits (Undisturbed c) EditsNothing (c.cancelRequest id client frame) := by
  unfold cancelRequest
  dsimp only
  split
  · exact .one (.refl c) trivial
  · split
    · exact .one (.refl c) (not_edits hm hc)
    · exact .nil (.refl c)

lemma forward_undisturbed {client frame method} (hm : method? frame = some method)
    (ho : Method.ofText method = .other) :
    Emits (Undisturbed c) EditsNothing (c.forward u id client method frame) := by
  unfold forward
  split
  · exact .one (.refl c) (not_edits ((method?_uris _).trans hm) ho)
  · split
    · exact enqueue_undisturbed
    · exact .nil (.refl c)

lemma cancelRequests_undisturbed {message kind} :
    Emits (Undisturbed c) EditsNothing (c.cancelRequests message kind) := by
  refine ⟨.refl c, fun a ha => ?_⟩
  obtain ⟨⟨i, client⟩, -, ha⟩ := mem_flatMap.mp ha
  dsimp only at ha
  split at ha
  · exact absurd ha not_mem_nil
  rcases mem_append.mp ha with ha | ha
  · obtain ⟨request, -, rfl⟩ := mem_map.mp ha
    trivial
  · exact mem_singleton.mp ha ▸ trivial

lemma serverReply_undisturbed {original frame} :
    Emits (Undisturbed c) EditsNothing (c.serverReply u id original frame) := by
  unfold serverReply
  split
  · exact .nil (.refl c)
  · split
    · exact .nil (.refl c)
    · exact .one (.refl c) trivial

/-! ### What waits in the queues -/

/-- Every frame that waits for a server meets `p`. -/
def QueuedAll (p : Value → Prop) (c : Clients) : Prop :=
  ∀ (id : ClientId) (client : Client), c.clients[id]? = some client →
    ∀ frame ∈ client.queued, p frame

/-- A frame that may have to wait: an introduction, or a request the server has to answer. -/
def MayWait (frame : Value) : Prop :=
  ∃ method, method? frame = some method ∧
    (Method.ofText method = .initializeRequest
      ∨ (Method.ofText method = .other ∧ (frame.get? "id").isSome))

section Queued
variable {p : Value → Prop} {client client' : Client} {frame : Value}

section
variable (h : QueuedAll p c)
include h

/-- One editor is replaced. -/
lemma QueuedAll.insert {c'} (he : c'.clients = c.clients.insert id client)
    (hq : ∀ frame ∈ client.queued, p frame) : QueuedAll p c' := by
  intro i cl hi
  rw [he, get_insert] at hi
  split at hi
  · cases hi
    exact hq
  · exact h i cl hi

lemma QueuedAll.congr {c'} (he : c'.clients = c.clients) : QueuedAll p c' := by
  intro i cl hi
  exact h i cl (he ▸ hi)

section
variable (hq : ∀ frame ∈ client.queued, p frame)
include hq

lemma enqueue_queuedAll (hf : p frame) : QueuedAll p (c.enqueue id client frame).1 := by
  unfold enqueue
  split
  · exact h
  apply h.insert rfl
  intro f hm
  rcases mem_append.mp hm with hm | hm
  · exact hq f hm
  · exact mem_singleton.mp hm ▸ hf

lemma initializeClient_queuedAll (hf : p frame) :
    QueuedAll p (c.initializeClient id client frame).1 := by
  obtain ⟨client', named, queued, -, -, e⟩ := initializeClient_eq c id client frame
  rw [← queued] at hq
  have hi : QueuedAll p { c with clients := c.clients.insert id client' } := h.insert rfl hq
  rw [e]
  dsimp only [andThen]
  split
  · exact hi
  · exact enqueue_queuedAll hi hq hf

lemma becomeReady_queuedAll :
    QueuedAll p (c.becomeReady id client).1 := by
  unfold becomeReady
  split
  · exact h
  have ready : QueuedAll p { c with clients := c.clients.insert id { client with ready := true } } :=
    h.insert rfl hq
  have told : Emits (QueuedAll p) (fun _ => True)
      (emitAll (tellProgress id)
        { c with clients := c.clients.insert id { client with ready := true } } c.progress) :=
    .emitAll ready fun c' _ _ h => ⟨h, fun _ _ => trivial⟩
  have shown : ∀ (c' : Clients) (keys : List DocumentKey), QueuedAll p c' →
      Emits (QueuedAll p) (fun _ => True) (emitAll (fun c key => c.replay id key) c' keys) :=
    fun c' keys hc => .emitAll hc fun c'' key _ h =>
      ⟨h.congr replay_aside.state.1, fun _ _ => trivial⟩
  exact (shown _ _ told.state).state

end

lemma dispatch_queuedAll (hc : c.clients[id]? = some client) {method}
    (hm : method? frame = some method)
    (hf : MayWait frame → p frame) : QueuedAll p (c.dispatch u id client method frame).1 := by
  have hq := h id client hc
  unfold dispatch
  split
  · rename_i hi
    exact initializeClient_queuedAll h hq (hf ⟨method, hm, .inl hi⟩)
  · exact becomeReady_queuedAll h hq
  · exact h.insert rfl hq
  · unfold cancelRequest
    dsimp only
    split
    · exact h.insert rfl fun f hm => hq f (List.mem_of_mem_eraseP hm)
    · split <;> exact h
  · exact h
  · rename_i ho
    unfold forward
    split
    · exact h.insert rfl hq
    split
    · rename_i hid
      exact enqueue_queuedAll h hq (hf ⟨method, hm, .inr ⟨ho, hid⟩⟩)
    · exact h
  · exact h
  · exact h.congr document_clients

lemma detach_queuedAll : QueuedAll p (c.detach id).1 := by
  intro i cl hi
  rw [detach_clients, get_erase] at hi
  split at hi
  · cases hi
  · exact h i cl hi

lemma clientFrame_queuedAll
    (hf : ∀ client ∈ c.clients[id]?, client.shutdown = false → MayWait frame → p frame) :
    QueuedAll p (c.clientFrame u id frame).1 := by
  unfold clientFrame
  split
  · rename_i client _ hc hm
    split
    · exact detach_queuedAll h
    split
    · exact h
    · rename_i hlive
      exact dispatch_queuedAll h hc hm (hf client hc (by simpa using hlive))
  · exact h

lemma resume_queuedAll : QueuedAll p (c.resume u id).1 := by
  unfold resume
  split
  · exact h
  rename_i client hc
  have again : Emits (QueuedAll p) (fun _ => True)
      (emitAll (fun c frame => c.clientFrame u id frame)
        { c with clients := c.clients.insert id { client with queued := [] } } client.queued) :=
    .emitAll (h.insert rfl fun _ hm => absurd hm not_mem_nil) fun c' frame hm h' =>
      ⟨clientFrame_queuedAll h' fun _ _ _ _ => h id client hc frame hm, fun _ _ => trivial⟩
  exact again.state

/-- What waits was sent to wait: a frame enters a queue from the editor only. -/
lemma event_queuedAll {e}
    (hf : ∀ id frame, e = .clientFrame id frame →
      ∀ client ∈ c.clients[id]?, client.shutdown = false → MayWait frame → p frame) :
    QueuedAll p (c.event u e).1 := by
  cases e with
  | attach id pid name sinceMs => exact h.insert rfl fun _ hm => absurd hm not_mem_nil
  | detach id => exact detach_queuedAll h
  | clientFrame id frame => exact clientFrame_queuedAll h (hf id frame rfl)
  | serverMessage frame => exact h.congr serverMessage_aside.state.1
  | serverReply id original frame =>
    dsimp only [event]
    unfold serverReply
    split
    · exact h
    rename_i hc
    have hq := h id _ hc
    split
    · exact h
    · exact h.insert rfl hq
  | lifetimeStarted initializeResult =>
    apply (Emits.andThen (P := QueuedAll p) (R := QueuedAll p) (Q := fun _ => True) _ _).state
    · exact .emitAll h fun c' key _ h => ⟨h.congr sync_clients, fun _ _ => trivial⟩
    · intro c' hc
      exact .emitAll hc fun c' id _ h => ⟨resume_queuedAll h, fun _ _ => trivial⟩
  | lifetimeEnded reason =>
    refine QueuedAll.congr ?_ serverMessage_aside.state.1
    exact cancelRequests_queuedAll
  | refused message => exact cancelRequests_queuedAll
where
  cancelRequests_queuedAll {c : Clients} {message : String} {kind : Int} :
      QueuedAll p (c.cancelRequests message kind).1 := by
    intro i cl hi f hm
    dsimp only [cancelRequests] at hi
    rw [ExtTreeMap.getElem?_map] at hi
    obtain ⟨cl', -, rfl⟩ := map_eq_some_iff.mp hi
    exact absurd hm not_mem_nil

end

lemma clientFrame_undisturbed (hf : MayWait frame) :
    Emits (Undisturbed c) EditsNothing (c.clientFrame u id frame) := by
  obtain ⟨method, hm, hw⟩ := hf
  have hexit : Method.ofText method ≠ .exit := by
    rcases hw with hw | ⟨hw, -⟩ <;> simp [hw]
  unfold clientFrame
  rw [hm]
  split
  · rename_i client method' hc hm'
    obtain rfl : method = method' := Option.some.inj hm'
    rw [if_neg hexit]
    split
    · refine ⟨.refl c, fun a ha => ?_⟩
      obtain ⟨request, -, rfl⟩ := mem_map.mp ha
      trivial
    unfold dispatch
    rcases hw with hw | ⟨hw, -⟩
    · rw [hw]
      exact initializeClient_undisturbed
    · rw [hw]
      exact forward_undisturbed hm hw
  · exact .nil (.refl c)

/-- Frames that waited change no document. -/
lemma resume_undisturbed (hq : QueuedAll MayWait c) :
    Emits (fun c' => Undisturbed c c' ∧ QueuedAll MayWait c') EditsNothing (c.resume u id) := by
  unfold resume
  split
  · exact .nil ⟨.refl c, hq⟩
  rename_i client hc
  refine .emitAll ⟨.refl c, hq.insert rfl fun _ hm => absurd hm not_mem_nil⟩ ?_
  rintro c' frame hm ⟨hu, hq'⟩
  have hf := hq id client hc frame hm
  have he : Emits (Undisturbed c') EditsNothing (c'.clientFrame u id frame) :=
    clientFrame_undisturbed hf
  exact ⟨⟨hu.trans he.state, clientFrame_queuedAll hq' fun _ _ _ _ => hf⟩, he.outputs⟩

lemma resumeAll_undisturbed (hq : QueuedAll MayWait c) {ids} :
    Emits (fun c' => Undisturbed c c' ∧ QueuedAll MayWait c') EditsNothing (emitAll (resume u) c ids) := by
  refine .emitAll ⟨.refl c, hq⟩ ?_
  rintro c' id - ⟨hu, hq'⟩
  exact (resume_undisturbed hq').imp fun _ h => ⟨hu.trans h.1, h.2⟩

end Queued

end Clients

end Rimz.Lsp
