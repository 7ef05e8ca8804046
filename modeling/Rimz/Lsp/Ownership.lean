import Mathlib.Data.List.Induction
import Rimz.Lsp.Documents

/-!
# Whole sessions of a broker

A session is a run of events with the actions of its current lifetime. Replayed on an empty server
they are never refused, and while the lifetime lasts the server has open exactly the documents some
editor holds, each as its owner has it. The owner is the editor that has held the document longest.
-/

namespace Rimz.Lsp
open Rimz.Lib Std

/-- The router, with the actions it emitted since the last server started. -/
structure Session where
  clients : Clients
  emitted : List Action

namespace Session

def step (u : UrlCrate) (s : Session) (e : Event) : Session :=
  let r := s.clients.event u e
  { clients := r.1
    emitted :=
      match e with
      | .lifetimeStarted _ => r.2
      | _ => s.emitted ++ r.2 }

/-- A session of one broker. -/
def run (u : UrlCrate) (server : String) (events : List Event) : Session :=
  events.foldl (step u) { clients := Clients.new server, emitted := [] }

lemma run_append_one (u : UrlCrate) (server : String) (events : List Event) (e : Event) :
    run u server (events ++ [e]) = (run u server events).step u e := by
  simp [run]

end Session

/-- Every change of a document carries a version other than the one the editor's document had. -/
def VersionsMove (u : UrlCrate) (server : String) (events : List Event) : Prop :=
  ∀ before id frame after, events = before ++ .clientFrame id frame :: after →
    Clients.MovesVersion u (Session.run u server before).clients id frame

/-- The server has open what the editors hold, as the owners have it. -/
structure Mirrors (u : UrlCrate) (c : Clients) (docs : ServerDocs) : Prop where
  opened : ∀ uri doc, docs[uri]? = some doc ↔
    ∃ o, c.owner (DocumentKey.new u uri) = some o ∧ o.uri = uri ∧ doc = o.asSeen
  spelled : ∀ key o, c.owner key = some o → DocumentKey.new u o.uri = key

/-- An editor has a document open. -/
def Holds (c : Clients) (id : ClientId) (key : DocumentKey) : Prop :=
  ∃ h ∈ c.holders key, h.client = id

/-- One editor has held a document since before another did: at some moment the other did not hold
it, and from that moment on the first did. -/
def HeldLonger (u : UrlCrate) (server : String) (events : List Event) (key : DocumentKey)
    (id other : ClientId) : Prop :=
  ∃ i ≤ events.length, ¬ Holds (Session.run u server (events.take i)).clients other key ∧
    ∀ j, i ≤ j → j ≤ events.length → Holds (Session.run u server (events.take j)).clients id key

/-- The editors that hold a document after an event: some of them gone, or one more at the end. -/
def Grows (old new : List ClientId) : Prop :=
  new.Sublist old ∨ ∃ id, id ∉ old ∧ new = old ++ [id]

namespace Clients
variable {u : UrlCrate} {c c' : Clients} {id : ClientId} {key : DocumentKey}

/-- The editors that hold a document, in the order they opened it. -/
def holderIds (c : Clients) (key : DocumentKey) : List ClientId :=
  (c.holders key).map (·.client)

lemma holds_iff : Holds c id key ↔ id ∈ c.holderIds key := by
  simp [Holds, holderIds]

lemma holderIds_congr (h : c'.documents = c.documents) : c'.holderIds key = c.holderIds key := by
  unfold holderIds holders
  rw [h]

lemma forgetUnheld_holderIds : c.forgetUnheld.holderIds key = c.holderIds key := by
  unfold holderIds
  rw [forgetUnheld_holders]

lemma release_holderIds {k} : ((c.release id k).1.holderIds key).Sublist (c.holderIds key) := by
  unfold release
  rw [holderIds_congr sync_documents]
  unfold holderIds
  rw [holders_modify (c := c) rfl rfl]
  split
  · exact List.Sublist.map _ filter_sublist
  · exact List.Sublist.refl _

lemma detach_holderIds : ((c.detach id).1.holderIds key).Sublist (c.holderIds key) := by
  unfold detach
  split
  · exact List.Sublist.refl _
  have released : Emits (fun c' => (c'.holderIds key).Sublist (c.holderIds key)) (fun _ => True)
      (emitAll (fun c key => c.release id key) { c with clients := c.clients.erase id }
        c.documents.keys) :=
    .emitAll (List.Sublist.refl _) fun c' k _ h =>
      ⟨release_holderIds.trans h, fun _ _ => trivial⟩
  have forgotten : ∀ c' : Clients, Clients.holderIds { c'.forgetUnheld with
      shown := c'.shown.filter fun shown _ => shown.1 ≠ id } key = c'.holderIds key :=
    fun _ => forgetUnheld_holderIds
  exact (forgotten _).symm ▸ released.state

lemma holderIds_of_insert {k hs} (he : c'.documents = c.documents.insert k hs) :
    c'.holderIds key = if k = key then hs.map (·.client) else c.holderIds key := by
  unfold holderIds
  rw [holders_insert he]
  split <;> rfl

lemma didOpen_grows {uri text language version k} :
    Grows (c.holderIds key) ((c.didOpen id uri text version language k).1.holderIds key) := by
  unfold didOpen
  dsimp only
  split
  · exact .inl (List.Sublist.refl _)
  rename_i hnew
  dsimp only [andThen]
  rw [holderIds_congr (replay_aside.state.2.1.trans sync_documents)]
  by_cases e : k = key
  · subst e
    refine .inr ⟨id, by simpa [holderIds] using hnew, ?_⟩
    refine (holderIds_of_insert rfl).trans ?_
    simp [holderIds]
  refine .inl ?_
  have same : Clients.holderIds { c with documents := c.documents.insert k (c.holders k ++ [
      { client := id, uri, text, version, languageId := language, dirty := false }]) } key
        = c.holderIds key :=
    (holderIds_of_insert rfl).trans (if_neg e)
  exact same ▸ List.Sublist.refl _

section Held
variable {holders : List Holder} {index : Nat} {holder : Holder} {k : DocumentKey}

section
variable (hd : c.documents[k]? = some holders)
include hd

lemma holderIds_of_set {h'} (hi : holders[index]? = some holder)
    (he : c'.documents = c.documents.insert k (holders.set index h'))
    (hcl : h'.client = holder.client) : c'.holderIds key = c.holderIds key := by
  rw [holderIds_of_insert he]
  split
  · rename_i e
    subst e
    rw [map_set_of_key_eq hi hcl]
    simp [holderIds, Clients.holders, hd]
  · rfl

lemma didClose_holderIds :
    ((c.didClose id k holders index).1.holderIds key).Sublist (c.holderIds key) := by
  have shrunk : ∀ c' : Clients, c'.documents = c.documents.insert k (holders.eraseIdx index) →
      (c'.holderIds key).Sublist (c.holderIds key) := by
    intro c' he
    rw [holderIds_of_insert he]
    split
    · rename_i e
      subst e
      have hold : c.holders k = holders := by simp [Clients.holders, hd]
      rw [holderIds, hold]
      exact List.Sublist.map _ (List.eraseIdx_sublist _ _)
    · exact List.Sublist.refl _
  unfold didClose
  dsimp only [andThen]
  rw [forgetUnheld_holderIds, holderIds_congr sync_documents]
  exact shrunk _ rfl

lemma didChange_holderIds {text version} (hi : holders[index]? = some holder) :
    (c.didChange id k holders index holder text version).1.holderIds key = c.holderIds key := by
  unfold didChange
  dsimp only [andThen]
  rw [holderIds_congr sync_documents]
  exact holderIds_of_set hd hi rfl rfl

lemma didSave_holderIds {frame} (hi : holders[index]? = some holder) :
    (c.didSave id k holders index holder frame).1.holderIds key = c.holderIds key := by
  unfold didSave
  dsimp only [andThen]
  rw [forwardSave_fst]
  split
  · exact holderIds_of_set hd hi rfl rfl
  · rfl

end

end Held

lemma document_grows {method frame} :
    Grows (c.holderIds key) ((c.document u id method frame).1.holderIds key) := by
  have same : ∀ c' : Clients, c'.holderIds key = c.holderIds key →
      Grows (c.holderIds key) (c'.holderIds key) := fun c' h => .inl (h ▸ List.Sublist.refl _)
  unfold document
  dsimp only
  split
  · exact same c rfl
  split
  · split
    · exact didOpen_grows
    · exact same c rfl
  split
  · exact same c rfl
  rename_i hd
  split
  · rename_i hidx hfind
    have hi := getElem?_of_findIdx? hidx hfind
    split
    · exact .inl (didClose_holderIds hd)
    · split
      · exact same _ (didChange_holderIds hd hi)
      · exact same c rfl
    · exact same _ (didSave_holderIds hd hi)
    · exact same c rfl
  · exact same c rfl

/-- An event opens at most one document, at the end of its holders. -/
lemma event_grows {e} (hq : QueuedAll MayWait c) :
    Grows (c.holderIds key) ((c.event u e).1.holderIds key) := by
  have same : ∀ c' : Clients, c'.documents = c.documents → Grows (c.holderIds key) (c'.holderIds key) :=
    fun c' h => .inl (holderIds_congr h ▸ List.Sublist.refl _)
  cases e with
  | attach id pid name sinceMs => exact same _ rfl
  | detach id => exact .inl detach_holderIds
  | clientFrame id frame =>
    dsimp only [event]
    unfold clientFrame
    split
    · rename_i client method hc hm
      split
      · exact .inl detach_holderIds
      split
      · exact same c rfl
      unfold dispatch
      split
      · exact same _ initializeClient_undisturbed.state.1
      · exact same _ becomeReady_undisturbed.state.1
      · exact same _ rfl
      · exact same _ (cancelRequest_undisturbed hm ‹_›).state.1
      · exact same c rfl
      · exact same _ (forward_undisturbed hm ‹_›).state.1
      · exact same c rfl
      · exact document_grows
    · exact same c rfl
  | serverMessage frame => exact same _ serverMessage_aside.state.2.1
  | serverReply id original frame => exact same _ serverReply_undisturbed.state.1
  | lifetimeStarted initializeResult =>
    have synced : Emits (fun c' => c'.documents = c.documents ∧ QueuedAll MayWait c')
        (fun _ => True) (emitAll sync { c with
          active := true, initialized := some initializeResult, snapshots := ∅, view := ∅ }
          c.documents.keys) :=
      .emitAll ⟨rfl, hq⟩ fun c' k _ h =>
        ⟨⟨sync_documents.trans h.1, h.2.congr sync_clients⟩, fun _ _ => trivial⟩
    exact same _ ((resumeAll_undisturbed synced.state.2).state.1.1.trans synced.state.1)
  | lifetimeEnded reason =>
    exact same _ (serverMessage_aside.state.2.1.trans cancelRequests_undisturbed.state.1)
  | refused message => exact same _ cancelRequests_undisturbed.state.1

end Clients

section Run
variable {u : UrlCrate} {server : String} {events : List Event} {key : DocumentKey}

lemma VersionsMove.init {e} (h : VersionsMove u server (events ++ [e])) :
    VersionsMove u server events := by
  intro before id frame after he
  exact h before id frame (after ++ [e]) (by simp [he])

lemma run_queuedAll : Clients.QueuedAll Clients.MayWait (Session.run u server events).clients := by
  induction events using List.reverseRecOn with
  | nil =>
    intro id client h
    simp [Session.run, Clients.new] at h
  | append_singleton events e ih =>
    rw [Session.run_append_one]
    exact Clients.event_queuedAll ih fun _ _ _ _ _ _ h => h

/-- The actions of the lifetime lead the server to what the router takes it to be. -/
lemma run_synced (hv : VersionsMove u server events) :
    ∃ docs, ServerDocs.replay (Session.run u server events).emitted = some docs
      ∧ Synced u (Session.run u server events).clients docs := by
  induction events using List.reverseRecOn with
  | nil =>
    refine ⟨∅, rfl, ⟨fun k h hm => ?_, fun k => ?_⟩, nofun, nofun⟩
    · simp [Session.run, Clients.new, Clients.holders] at hm
    · simp [Session.run, Clients.new, Clients.holders]
  | append_singleton events e ih =>
    obtain ⟨docs, hd, hs⟩ := ih hv.init
    have hmove : ∀ id frame, e = .clientFrame id frame →
        Clients.MovesVersion u (Session.run u server events).clients id frame := by
      rintro id frame rfl
      exact hv events id frame [] rfl
    rw [Session.run_append_one]
    by_cases hl : ∃ initializeResult, e = .lifetimeStarted initializeResult
    · obtain ⟨initializeResult, rfl⟩ := hl
      exact Clients.lifetimeStarted_watched hs.kept run_queuedAll initializeResult
    obtain ⟨docs', hacc, hs'⟩ :=
      Clients.event_watched hs (fun r he => hl ⟨r, he⟩) hmove
    have hemit : ((Session.run u server events).step u e).emitted
        = (Session.run u server events).emitted
          ++ ((Session.run u server events).clients.event u e).2 := by
      cases e with
      | lifetimeStarted initializeResult => exact absurd ⟨_, rfl⟩ hl
      | _ => rfl
    refine ⟨docs', ?_, hs'⟩
    rw [hemit]
    unfold ServerDocs.replay at *
    rw [List.foldlM_append, hd]
    exact hacc

/-- The editors that hold a document stand in the order they took it up. -/
lemma run_ordered : ((Session.run u server events).clients.holderIds key).Pairwise
    (HeldLonger u server events key) := by
  induction events using List.reverseRecOn with
  | nil => simp [Session.run, Clients.new, Clients.holderIds, Clients.holders]
  | append_singleton events e ih =>
    have hnow : (Session.run u server (events ++ [e])).clients
        = ((Session.run u server events).clients.event u e).1 := by
      rw [Session.run_append_one]
      rfl
    have hold : ∀ j ≤ events.length, (events ++ [e]).take j = events.take j := fun j hj =>
      List.take_append_of_le_length hj
    -- A start of an editor that still holds the document stays a start.
    have extend : ∀ a b, HeldLonger u server events key a b →
        Holds (Session.run u server (events ++ [e])).clients a key →
        HeldLonger u server (events ++ [e]) key a b := by
      rintro a b ⟨i, hi, hb, ha⟩ hlast
      refine ⟨i, by simp; omega, by rwa [hold i hi], fun j hij hj => ?_⟩
      rcases Nat.lt_or_ge events.length j with hj' | hj'
      · rwa [take_of_length_le (by simp; omega)]
      · rw [hold j hj']
        exact ha j hij hj'
    have hgrow : Grows ((Session.run u server events).clients.holderIds key)
        ((Session.run u server (events ++ [e])).clients.holderIds key) :=
      hnow ▸ Clients.event_grows run_queuedAll
    rcases hgrow with hsub | ⟨id, hid, hpush⟩
    · apply (ih.sublist hsub).imp_of_mem
      intro a b ha _ hab
      exact extend a b hab (Clients.holds_iff.mpr ha)
    have hall : ∀ a ∈ (Session.run u server events).clients.holderIds key,
        Holds (Session.run u server (events ++ [e])).clients a key := fun a ha =>
      Clients.holds_iff.mpr (hpush ▸ mem_append_left _ ha)
    rw [hpush, pairwise_append]
    refine ⟨ih.imp_of_mem fun ha _ hab => extend _ _ hab (hall _ ha),
      pairwise_singleton _ _, fun a ha b hb => ?_⟩
    obtain rfl := mem_singleton.mp hb
    -- The newcomer did not hold the document just now; the others did.
    refine ⟨events.length, by simp, ?_, fun j hj hj' => ?_⟩
    · rw [hold _ le_rfl, take_length]
      exact fun h => hid (Clients.holds_iff.mp h)
    · rcases Nat.lt_or_ge events.length j with hlt | hge
      · rw [take_of_length_le (by simp; omega)]
        exact hall a ha
      · obtain rfl : j = events.length := by omega
        rw [hold _ le_rfl, take_length]
        exact Clients.holds_iff.mpr ha

lemma Synced.mirrors {c docs} (h : Synced u c docs) (ha : c.active) : Mirrors u c docs := by
  have ht := h.tracks ha
  have spelled : ∀ key o, c.owner key = some o → DocumentKey.new u o.uri = key := by
    intro key o ho
    rw [Clients.owner_eq_head?] at ho
    exact h.kept.keyed key o (mem_of_head? ho)
  refine ⟨fun uri doc => ⟨fun hd => ?_, ?_⟩, spelled⟩
  · obtain ⟨key, v, hv, rfl⟩ := ht.known uri (by
      rw [ExtTreeMap.mem_iff_isSome_getElem?, hd]
      rfl)
    have hkey := ht.keyed key v hv
    have hcur := h.current ha key
    cases ho : c.owner key with
    | none => simp [Current, hv, ho] at hcur
    | some o =>
      simp only [Current, hv, ho, map_some, Option.some.injEq, Prod.mk.injEq] at hcur
      obtain ⟨d, hd', hver, hs⟩ := ht.shows key v hv
      obtain ⟨hu, hl, htext⟩ := hs o ho hcur.1.symm
      obtain rfl : doc = d := Option.some.inj (hd.symm.trans hd')
      refine ⟨o, hkey ▸ ho, hu, ?_⟩
      rw [Holder.asSeen, htext hcur.2.symm, hl, ← hcur.2, ← hver]
  · rintro ⟨o, ho, hu, rfl⟩
    have hcur := h.current ha (DocumentKey.new u uri)
    rw [Current, ho, map_some, map_eq_some_iff] at hcur
    obtain ⟨v, hv, he⟩ := hcur
    simp only [Prod.mk.injEq] at he
    obtain ⟨d, hd, hver, hs⟩ := ht.shows _ v hv
    obtain ⟨hu', hl, htext⟩ := hs o ho he.1.symm
    rw [← hu, hu', hd, Holder.asSeen, htext he.2.symm, hl, ← he.2, ← hver]

/-- In every session whose changes move their versions, the actions of the lifetime are taken by a
server that started empty; while the lifetime lasts, the server has open exactly the documents the
editors hold, each with the text, version and URI of its owner; and the owner is the editor that has
held the document longest. -/
theorem server_sees_owner_text (u : UrlCrate) (server : String) (events : List Event)
    (hv : VersionsMove u server events) :
    ∃ docs, ServerDocs.replay (Session.run u server events).emitted = some docs ∧
      ((Session.run u server events).clients.active →
        Mirrors u (Session.run u server events).clients docs) ∧
      ∀ key o, (Session.run u server events).clients.owner key = some o →
        ∀ other, other ≠ o.client → Holds (Session.run u server events).clients other key →
          HeldLonger u server events key o.client other := by
  obtain ⟨docs, hd, hs⟩ := run_synced hv
  refine ⟨docs, hd, hs.mirrors, fun key o ho other hne hh => ?_⟩
  have hord : ((Session.run u server events).clients.holderIds key).Pairwise
      (HeldLonger u server events key) := run_ordered
  rw [Clients.owner_eq_head?] at ho
  obtain ⟨rest, hrest⟩ := List.head?_eq_some_iff.mp ho
  rw [Clients.holds_iff, Clients.holderIds, hrest, map_cons] at hh
  rw [Clients.holderIds, hrest, map_cons, pairwise_cons] at hord
  rcases mem_cons.mp hh with e | hm
  · exact absurd e hne
  · exact hord.1 other hm

end Run

/-- A `url` crate for which two spellings name one file. -/
def twoSpellings : UrlCrate where
  Url := String
  Path := String
  parse uri := some (if uri = "FILE:///u" then "file:///u" else uri)
  toFilePath url := if url = "file:///u" then some "/u" else none
  fromFilePath path := if path = "/u" then some "file:///u" else none
  text := id

/-- Two editors open a file under two spellings, the second changes it, the first leaves. -/
def handover : List Event :=
  let opened (id : ClientId) (uri text : String) : Event :=
    .clientFrame id (didOpenFrame
      { client := id, uri, text, version := 1, languageId := "rust", dirty := false })
  [.attach 1 10 none 0, .attach 2 11 none 0, opened 1 "file:///u" "one", opened 2 "FILE:///u" "two",
    .lifetimeStarted (.object []),
    .clientFrame 2 (didChangeFrame "FILE:///u"
      { client := 2, uri := "FILE:///u", text := "three", version := 2, languageId := "rust",
        dirty := true }),
    .detach 1]

/-- After the handover the server sees the text of the editor that stayed. -/
theorem server_sees_owner_text_handover :
    VersionsMove twoSpellings "rust" handover ∧
      (Session.run twoSpellings "rust" handover).clients.active = true ∧
      ∃ docs, ServerDocs.replay (Session.run twoSpellings "rust" handover).emitted = some docs ∧
        Mirrors twoSpellings (Session.run twoSpellings "rust" handover).clients docs := by
  have hv : VersionsMove twoSpellings "rust" handover := by
    intro before id frame after he
    have hat : handover[before.length]? = some (.clientFrame id frame) := by simp [he]
    have hbefore : handover.take before.length = before := by simp [he]
    rw [← hbefore]
    generalize before.length = i at hat
    match i, hat with
    | 2, hat | 3, hat =>
      cases hat
      intro method uri text version hm hc
      cases hm
      exact absurd hc (by decide)
    | 5, hat =>
      cases hat
      intro method uri text version _ _ hu hch
      cases hu
      cases hch
      decide +kernel
    | i + 6, hat =>
      match i, hat with
      | i + 1, hat => simp [handover] at hat
  have ha : (Session.run twoSpellings "rust" handover).clients.active = true := by decide +kernel
  obtain ⟨docs, hd, hm, -⟩ := server_sees_owner_text twoSpellings "rust" handover hv
  exact ⟨hv, ha, docs, hd, hm ha⟩

end Rimz.Lsp
