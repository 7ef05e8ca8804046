import Rimz.Lib.Keyed
import Rimz.Lsp.Effects

/-!
# The server sees the owner's text

A language server keeps the documents opened at it under their URIs (`ServerDocs`) and refuses a
change or a closing of a document that is not open, and an opening of one that is. The router's
`view` is its memory of what is open there. `Tracks` ties the two together, and holds between any
two actions; `Current` says that the view of a document is the one of its owner, and holds between
any two events, because every edit of the holders of a document is followed by a `sync` of it.
-/

namespace Rimz.Lsp
open Rimz.Lib Std

/-- A document as a server has it. -/
structure ServerDoc where
  text : String
  version : Int
  languageId : String

/-- The documents open at a server, by URI. -/
abbrev ServerDocs := ExtTreeMap String ServerDoc

/-- A holder but for what only the registry asks of it. -/
def Holder.clean (h : Holder) : Holder :=
  { h with dirty := false }

def Holder.asSeen (h : Holder) : ServerDoc :=
  { text := h.text, version := h.version, languageId := h.languageId }

namespace ServerDocs

/-- The text of the one change of a frame. -/
def changedText (frame : Value) : Option String :=
  match (frame.index "params").index "contentChanges" with
  | .array [change] => (change.index "text").asStr
  | _ => none

/-- A server takes a document notification, or refuses one that does not fit what is open. -/
def onFrame (docs : ServerDocs) (frame : Value) : Option ServerDocs :=
  let doc := (frame.index "params").index "textDocument"
  match (method? frame).map Method.ofText with
  | some .didOpen =>
    match doc.index "uri", doc.index "text", doc.index "version", doc.index "languageId" with
    | .string uri, .string text, .number (.int version), .string languageId =>
      if uri ∈ docs then none else some (docs.insert uri { text, version, languageId })
    | _, _, _, _ => none
  | some .didChange =>
    match doc.index "uri", changedText frame, doc.index "version" with
    | .string uri, some text, .number (.int version) =>
      (docs[uri]?).map fun d => docs.insert uri { d with text, version }
    | _, _, _ => none
  | some .didClose =>
    match doc.index "uri" with
    | .string uri => if uri ∈ docs then some (docs.erase uri) else none
    | _ => none
  | _ => some docs

/-- What an action of the router does at the server. -/
def take (docs : ServerDocs) : Action → Option ServerDocs
  | .toServer _ frame => docs.onFrame frame
  | _ => some docs

/-- The actions of a lifetime, on a server that starts empty. -/
def replay (emitted : List Action) : Option ServerDocs :=
  emitted.foldlM take ∅

variable {docs : ServerDocs}

lemma onFrame_didOpen (h : Holder) :
    docs.onFrame (didOpenFrame h)
      = if h.uri ∈ docs then none else some (docs.insert h.uri h.asSeen) := by
  simp [onFrame, didOpenFrame, notification, method?, Value.index, Value.get?, Value.lookup,
    Value.asStr, Value.int, Method.ofText, Holder.asSeen]

lemma onFrame_didChange {uri h} : docs.onFrame (didChangeFrame uri h)
    = (docs[uri]?).map fun d => docs.insert uri { d with text := h.text, version := h.version } := by
  simp [onFrame, didChangeFrame, notification, method?, Value.index, Value.get?, Value.lookup,
    Value.asStr, Value.int, Method.ofText, changedText]

lemma onFrame_didClose (uri : String) :
    docs.onFrame (didCloseFrame uri) = if uri ∈ docs then some (docs.erase uri) else none := by
  simp [onFrame, didCloseFrame, notification, method?, Value.index, Value.get?, Value.lookup,
    Value.asStr, Method.ofText]

lemma take_of_editsNothing {a} (h : EditsNothing a) (docs : ServerDocs) :
    docs.take a = some docs := by
  cases a with
  | toServer id frame =>
    dsimp only [take, onFrame]
    cases hm : method? frame with
    | none => rfl
    | some method =>
      split
      · rename_i ho
        exact absurd ⟨method, hm, .inl (Option.some.inj ho)⟩ h
      · rename_i hc
        exact absurd ⟨method, hm, .inr (.inl (Option.some.inj hc))⟩ h
      · rename_i hd
        exact absurd ⟨method, hm, .inr (.inr (Option.some.inj hd))⟩ h
      · rfl
  | _ => rfl

end ServerDocs

/-- The holders of every document are keyed by their URIs, and are of different editors. -/
structure Kept (u : UrlCrate) (c : Clients) : Prop where
  keyed : ∀ key, ∀ h ∈ c.holders key, DocumentKey.new u h.uri = key
  distinct : ∀ key, ((c.holders key).map (·.client)).Nodup

/-- What is open at the server under a view, beside the holder that owns the document now. The text
is the owner's as long as the version is. -/
def Shows (docs : ServerDocs) (owner : Option Holder) (v : View) : Prop :=
  ∃ d, docs[v.uri]? = some d ∧ d.version = v.version ∧
    ∀ h, owner = some h → h.client = v.owner →
      h.uri = v.uri ∧ h.languageId = d.languageId ∧ (h.version = v.version → h.text = d.text)

/-- The views are exactly what is open at the server. -/
structure Tracks (u : UrlCrate) (c : Clients) (docs : ServerDocs) : Prop where
  keyed : ∀ key v, c.view[key]? = some v → DocumentKey.new u v.uri = key
  shows : ∀ key v, c.view[key]? = some v → Shows docs (c.owner key) v
  known : ∀ uri, uri ∈ docs → ∃ (key : DocumentKey) (v : View), c.view[key]? = some v ∧ v.uri = uri

/-- The view of a document is the one of its owner. -/
def Current (c : Clients) (key : DocumentKey) : Prop :=
  (c.view[key]?).map (fun v => (v.owner, v.version))
    = (c.owner key).map (fun h => (h.client, h.version))

/-- Between two events. -/
structure Synced (u : UrlCrate) (c : Clients) (docs : ServerDocs) : Prop where
  kept : Kept u c
  tracks : c.active → Tracks u c docs
  current : c.active → ∀ key, Current c key

/-- The server takes the actions, and is in step after them. -/
abbrev Serves (u : UrlCrate) (docs : ServerDocs) (r : Clients × List Action) : Prop :=
  Watched ServerDocs.take (Synced u) docs r

lemma Kept.congr {u c c'} (h : Kept u c) (hd : c'.documents = c.documents) : Kept u c' := by
  have hh (k : DocumentKey) : c'.holders k = c.holders k := by
    rw [Clients.holders, hd, Clients.holders]
  exact ⟨fun k => hh k ▸ h.keyed k, fun k => hh k ▸ h.distinct k⟩

namespace Clients
variable {u : UrlCrate} {c c' : Clients} {id : ClientId} {key : DocumentKey} {docs : ServerDocs}

lemma owner_eq_head? (c : Clients) (key : DocumentKey) : c.owner key = (c.holders key).head? := by
  unfold owner holders
  cases c.documents[key]? with
  | none | some hs => rfl

/-- What `sync` keeps, whatever it finds. -/
def Beside (key : DocumentKey) (c c' : Clients) : Prop :=
  c'.documents = c.documents ∧ c'.active = c.active ∧ ∀ k ≠ key, c'.view[k]? = c.view[k]?

lemma Beside.refl : Beside key c c :=
  ⟨rfl, rfl, fun _ _ => rfl⟩

lemma Beside.owner (h : Beside key c c') (k : DocumentKey) : c'.owner k = c.owner k := by
  unfold Clients.owner
  rw [h.1]

/-- A stale view is closed at the server; the view left, if any, is the owner's. -/
lemma closeStale_watched (ht : Tracks u c docs) :
    Watched ServerDocs.take (fun c' docs' => Beside key c c' ∧ Tracks u c' docs'
      ∧ ∀ v, c'.view[key]? = some v → ∃ h, c.owner key = some h ∧ h.client = v.owner)
      docs (c.closeStale key) := by
  unfold closeStale
  split
  · rename_i previous hv
    obtain ⟨d, hd, -, -⟩ := ht.shows key previous hv
    have huri : previous.uri ∈ docs := by
      rw [ExtTreeMap.mem_iff_isSome_getElem?, hd]
      rfl
    have hkey := ht.keyed key previous hv
    split
    · refine Watched.one ((ServerDocs.onFrame_didClose _).trans (if_pos huri)) ?_
      -- The views left have other keys, hence other URIs.
      have other : ∀ k v, (c.view.erase key)[k]? = some v →
          k ≠ key ∧ c.view[k]? = some v ∧ v.uri ≠ previous.uri := by
        intro k v hk
        rw [get_erase] at hk
        split at hk
        · cases hk
        · rename_i hne
          refine ⟨fun e => hne e.symm, hk, fun e => hne ?_⟩
          rw [← ht.keyed k v hk, e, hkey]
      refine ⟨⟨rfl, rfl, ?_⟩, ⟨?_, ?_, ?_⟩, ?_⟩
      · intro k hk
        rw [get_erase, if_neg (fun e => hk e.symm)]
      · intro k v hk
        exact ht.keyed k v (other k v hk).2.1
      · intro k v hk
        obtain ⟨-, hk', hne⟩ := other k v hk
        obtain ⟨d', hd', hs⟩ := ht.shows k v hk'
        refine ⟨d', ?_, hs⟩
        rw [get_erase, if_neg (fun e => hne e.symm), hd']
      · intro uri hm
        rw [ExtTreeMap.mem_iff_isSome_getElem?, get_erase] at hm
        split at hm
        · cases hm
        rename_i hne
        obtain ⟨k, v, hk, rfl⟩ := ht.known uri (ExtTreeMap.mem_iff_isSome_getElem?.mpr hm)
        refine ⟨k, v, ?_, rfl⟩
        dsimp only
        rw [get_erase, if_neg, hk]
        rintro rfl
        rw [hv] at hk
        exact hne (by rw [Option.some.inj hk])
      · intro v hk
        exact absurd rfl (other key v hk).1
    · rename_i hs
      refine Watched.nil ⟨.refl, ht, fun v hk => ?_⟩
      obtain rfl : previous = v := Option.some.inj (hv.symm.trans hk)
      cases ho : c.owner key with
      | none => simp [ho] at hs
      | some h => exact ⟨h, rfl, by simpa [ho] using hs⟩
  · rename_i hv
    exact Watched.nil ⟨.refl, ht, fun v hk => by cases hv.symm.trans hk⟩

/-- A view set to the owner, beside the server that has its text. -/
lemma tracks_insert {owner v} (ht : Tracks u c docs) (hview : c'.view = c.view.insert key v)
    (hdoc : c'.documents = c.documents) (hact : c'.active = c.active) (ho : c.owner key = some owner)
    (hkey : DocumentKey.new u owner.uri = key)
    (hprev : ∀ w, c.view[key]? = some w → w.uri = owner.uri)
    (hvo : v.owner = owner.client) (hvu : v.uri = owner.uri) (hvv : v.version = owner.version) :
    Beside key c c' ∧ Tracks u c' (docs.insert owner.uri owner.asSeen) ∧ Current c' key := by
  have hb : Beside key c c' := by
    refine ⟨hdoc, hact, fun k hk => ?_⟩
    rw [hview, get_insert, if_neg (fun e => hk e.symm)]
  have hself : c'.view[key]? = some v := by
    rw [hview, get_insert, if_pos rfl]
  refine ⟨hb, ⟨?_, ?_, ?_⟩, ?_⟩
  · intro k w hk
    by_cases e : k = key
    · subst e
      obtain rfl : v = w := Option.some.inj (hself.symm.trans hk)
      rw [hvu, hkey]
    · exact ht.keyed k w (hb.2.2 k e ▸ hk)
  · intro k w hk
    rw [hb.owner k]
    by_cases e : k = key
    · subst e
      obtain rfl : v = w := Option.some.inj (hself.symm.trans hk)
      refine ⟨owner.asSeen, by rw [hvu, get_insert, if_pos rfl], hvv.symm, fun h hh _ => ?_⟩
      obtain rfl : owner = h := Option.some.inj (ho.symm.trans hh)
      exact ⟨hvu.symm, rfl, fun _ => rfl⟩
    -- A document of another key is open under another URI.
    rw [hb.2.2 k e] at hk
    obtain ⟨d, hd, hs⟩ := ht.shows k w hk
    refine ⟨d, ?_, hs⟩
    rw [get_insert, if_neg, hd]
    intro hu
    exact e (by rw [← ht.keyed k w hk, ← hu, hkey])
  · intro uri hm
    rw [ExtTreeMap.mem_iff_isSome_getElem?, get_insert] at hm
    split at hm
    · rename_i hu
      exact ⟨key, v, hself, hvu.trans hu⟩
    rename_i hu
    obtain ⟨k, w, hk, hw⟩ := ht.known uri (ExtTreeMap.mem_iff_isSome_getElem?.mpr hm)
    have e : k ≠ key := by
      rintro rfl
      exact hu ((hprev w hk).symm.trans hw)
    exact ⟨k, w, (hb.2.2 k e).trans hk, hw⟩
  · simp [Current, hself, hb.owner key, ho, hvo, hvv]

/-- The server has the owner's text, under the URI the view was opened with. -/
lemma showOwner_watched (hk : Kept u c) (ht : Tracks u c docs)
    (hv : ∀ v, c.view[key]? = some v → ∃ h, c.owner key = some h ∧ h.client = v.owner) :
    Watched ServerDocs.take (fun c' docs' => Beside key c c' ∧ Tracks u c' docs' ∧ Current c' key)
      docs (c.showOwner key) := by
  unfold showOwner
  split
  · rename_i ho
    refine Watched.nil ⟨.refl, ht, ?_⟩
    cases hw : c.view[key]? with
    | none => simp [Current, hw, ho]
    | some v =>
      obtain ⟨h, ho', -⟩ := hv v hw
      cases ho.symm.trans ho'
  rename_i owner ho
  have hkey : DocumentKey.new u owner.uri = key := by
    rw [owner_eq_head?] at ho
    exact hk.keyed key owner (mem_of_head? ho)
  split
  · rename_i view hw
    obtain ⟨h, ho', hcl⟩ := hv view hw
    obtain rfl : owner = h := Option.some.inj (ho.symm.trans ho')
    obtain ⟨d, hd, -, hs⟩ := ht.shows key view hw
    obtain ⟨huri, hlang, -⟩ := hs owner ho hcl
    split
    · -- The version moved: the server is sent the text, under the URI it knows.
      have hset : docs.onFrame (didChangeFrame view.uri owner)
          = some (docs.insert owner.uri owner.asSeen) := by
        rw [ServerDocs.onFrame_didChange, hd, ← huri]
        simp [Holder.asSeen, hlang]
      refine Watched.one hset (tracks_insert ht rfl rfl rfl ho hkey ?_ hcl.symm huri.symm rfl)
      intro w hw'
      obtain rfl : view = w := Option.some.inj (hw.symm.trans hw')
      exact huri.symm
    · rename_i hver
      refine Watched.nil ⟨.refl, ht, ?_⟩
      simp only [ne_eq, not_not] at hver
      simp [Current, hw, ho, hcl, hver]
  · rename_i hw
    -- Nothing is open under the owner's URI: its view would have this key.
    have hnew : owner.uri ∉ docs := by
      intro hm
      obtain ⟨k, v, hkv, hvu⟩ := ht.known _ hm
      rw [← ht.keyed k v hkv, hvu, hkey, hw] at hkv
      cases hkv
    refine Watched.one ((ServerDocs.onFrame_didOpen owner).trans (if_neg hnew)) ?_
    exact tracks_insert ht rfl rfl rfl ho hkey (fun w hw' => by cases hw.symm.trans hw') rfl rfl rfl

lemma sync_watched (ha : c.active) (hk : Kept u c) (ht : Tracks u c docs) :
    Watched ServerDocs.take (fun c' docs' => Beside key c c' ∧ Tracks u c' docs' ∧ Current c' key)
      docs (c.sync key) := by
  unfold sync
  rw [if_neg (by simp [ha])]
  apply Watched.andThen (closeStale_watched ht)
  rintro c' docs' ⟨hb, ht', hv⟩
  apply (showOwner_watched (hk.congr hb.1) ht' (fun v hvk => hb.owner key ▸ hv v hvk)).imp
  rintro c'' docs'' ⟨hb', ht'', hcur⟩
  refine ⟨⟨hb'.1.trans hb.1, hb'.2.1.trans hb.2.1, ?_⟩, ht'', hcur⟩
  intro k hne
  exact (hb'.2.2 k hne).trans (hb.2.2 k hne)

lemma holders_insert {hs} (he : c'.documents = c.documents.insert key hs) (k : DocumentKey) :
    c'.holders k = if key = k then hs else c.holders k := by
  unfold holders
  rw [he, get_insert]
  split <;> rfl

lemma holders_modify {f} (he : c'.documents = c.documents.modify key f) (hf : f [] = [])
    (k : DocumentKey) : c'.holders k = if key = k then f (c.holders k) else c.holders k := by
  unfold holders
  rw [he, get_modify]
  split
  · cases c.documents[k]? with
    | none => exact hf.symm
    | some hs => rfl
  · rfl

end Clients

section Synced
open Clients
variable {u : UrlCrate} {c c' : Clients} {key : DocumentKey} {docs : ServerDocs}

section
variable (h : Synced u c docs)
include h

/-- Whether a holder has unsaved text is not the server's business. -/
lemma Synced.congr (hh : ∀ k, (c'.holders k).map Holder.clean = (c.holders k).map Holder.clean)
    (hv : c'.view = c.view) (ha : c'.active = c.active) : Synced u c' docs := by
  have ho : ∀ k, (c'.owner k).map Holder.clean = (c.owner k).map Holder.clean := fun k => by
    rw [owner_eq_head?, owner_eq_head?, ← List.head?_map, hh, List.head?_map]
  refine ⟨⟨fun k n hn => ?_, fun k => ?_⟩, fun hc => ?_, fun hc k => ?_⟩
  · have hm : n.clean ∈ (c.holders k).map Holder.clean := hh k ▸ mem_map_of_mem hn
    obtain ⟨o, ho, he⟩ := mem_map.mp hm
    exact (congrArg Holder.uri he) ▸ h.kept.keyed k o ho
  · have hcl := congrArg (List.map Holder.client) (hh k)
    rw [List.map_map, List.map_map] at hcl
    exact hcl ▸ h.kept.distinct k
  · obtain ⟨h1, h2, h3⟩ := h.tracks (ha ▸ hc)
    refine ⟨fun k v hk => h1 k v (hv ▸ hk), fun k v hk => ?_, fun uri hm => ?_⟩
    · obtain ⟨d, hd, hver, hs⟩ := h2 k v (hv ▸ hk)
      refine ⟨d, hd, hver, fun n hn hcl => ?_⟩
      have hc := (ho k).symm
      rw [hn, map_some, map_eq_some_iff] at hc
      obtain ⟨o, hown, he⟩ := hc
      cases n
      cases o
      cases he
      have hshown := hs _ hown hcl
      exact hshown
    · obtain ⟨k, v, hk, he⟩ := h3 uri hm
      exact ⟨k, v, hv ▸ hk, he⟩
  · have hcur := h.current (ha ▸ hc) k
    have hmap := congrArg (Option.map fun h : Holder => (h.client, h.version)) (ho k)
    rw [map_map, map_map] at hmap
    unfold Current at *
    rw [hv, hcur]
    exact hmap.symm

lemma Synced.undisturbed (hu : Undisturbed c c') : Synced u c' docs :=
  h.congr (fun k => by unfold holders; rw [hu.1]) hu.2.1 hu.2.2

lemma Synced.aside {r} (hr : Emits (Undisturbed c) EditsNothing r) :
    Serves u docs r := by
  have hs : Emits (Undisturbed c) (fun a => ∀ docs, ServerDocs.take docs a = some docs) r :=
    ⟨hr.state, fun a ha docs => ServerDocs.take_of_editsNothing (hr.outputs a ha) docs⟩
  exact hs.watched fun _ => h.undisturbed

/-- The holders of one document are edited, then the document is synced. An owner that stays may
move its text only together with its version. -/
lemma Synced.sync_edit (hv : c'.view = c.view) (ha : c'.active = c.active)
    (hh : ∀ k ≠ key, c'.holders k = c.holders k)
    (hk : ∀ h ∈ c'.holders key, DocumentKey.new u h.uri = key)
    (hd : ((c'.holders key).map (·.client)).Nodup)
    (hm : ∀ o n, c.owner key = some o → c'.owner key = some n → n.client = o.client →
      n.uri = o.uri ∧ n.languageId = o.languageId ∧ (n.version = o.version → n.text = o.text)) :
    Serves u docs (c'.sync key) := by
  have kept : Kept u c' := by
    refine ⟨fun k => ?_, fun k => ?_⟩
    · by_cases e : k = key
      · exact e ▸ hk
      · exact hh k e ▸ h.kept.keyed k
    · by_cases e : k = key
      · exact e ▸ hd
      · exact hh k e ▸ h.kept.distinct k
  have ho : ∀ k ≠ key, c'.owner k = c.owner k := fun k e => by
    rw [owner_eq_head?, owner_eq_head?, hh k e]
  by_cases hact : c'.active
  · have hact' : c.active := ha ▸ hact
    have ht := h.tracks hact'
    have tracks : Tracks u c' docs := by
      refine ⟨fun k v hk => ht.keyed k v (hv ▸ hk), fun k v hkv => ?_, fun uri hm => ?_⟩
      · rw [hv] at hkv
        obtain ⟨d, hdoc, hver, hs⟩ := ht.shows k v hkv
        refine ⟨d, hdoc, hver, fun n hn hcl => ?_⟩
        by_cases e : k = key
        · subst e
          -- The view is the one of the owner before the edit.
          have hcur := h.current hact' k
          cases hown : c.owner k with
          | none => simp [Current, hkv, hown] at hcur
          | some o =>
            simp only [Current, hkv, hown, map_some, Option.some.injEq,
              Prod.mk.injEq] at hcur
            obtain ⟨hu, hl, ht'⟩ := hs o hown hcur.1.symm
            obtain ⟨hu', hl', ht''⟩ := hm o n hown hn (hcl.trans hcur.1)
            refine ⟨hu'.trans hu, hl'.trans hl, fun e => ?_⟩
            exact (ht'' (e.trans hcur.2)).trans (ht' hcur.2.symm)
        · exact hs n (ho k e ▸ hn) hcl
      · obtain ⟨k, v, hk, he⟩ := ht.known uri hm
        exact ⟨k, v, hv ▸ hk, he⟩
    apply (sync_watched hact kept tracks).imp
    rintro c'' docs' ⟨hb, ht', hcur⟩
    refine ⟨kept.congr hb.1, fun _ => ht', fun _ k => ?_⟩
    by_cases e : k = key
    · exact e ▸ hcur
    · have := h.current hact' k
      unfold Current at *
      rwa [hb.2.2 k e, hv, hb.owner k, ho k e]
  · have hs : c'.sync key = (c', []) := by
      unfold sync
      rw [if_pos (by simpa using hact)]
    rw [hs]
    exact Watched.nil ⟨kept, fun ha => absurd ha hact, fun ha => absurd ha hact⟩

lemma Synced.sync_insert {hs} (he : c'.documents = c.documents.insert key hs) (hv : c'.view = c.view)
    (ha : c'.active = c.active) (hk : ∀ h ∈ hs, DocumentKey.new u h.uri = key)
    (hd : (hs.map (·.client)).Nodup)
    (hm : ∀ o n, (c.holders key).head? = some o → hs.head? = some n → n.client = o.client →
      n.uri = o.uri ∧ n.languageId = o.languageId ∧ (n.version = o.version → n.text = o.text)) :
    Serves u docs (c'.sync key) := by
  have hself : c'.holders key = hs := (holders_insert he key).trans (if_pos rfl)
  apply h.sync_edit hv ha
  · intro k e
    exact (holders_insert he k).trans (if_neg fun e' => e e'.symm)
  · exact hself ▸ hk
  · exact hself ▸ hd
  · intro o n ho hn
    rw [owner_eq_head?] at ho hn
    exact hm o n ho (hself ▸ hn)

lemma Synced.sync_shrink (hv : c'.view = c.view) (ha : c'.active = c.active)
    (hh : ∀ k ≠ key, c'.holders k = c.holders k) (hs : (c'.holders key).Sublist (c.holders key)) :
    Serves u docs (c'.sync key) := by
  apply h.sync_edit hv ha hh
  · intro n hn
    exact h.kept.keyed key n (hs.subset hn)
  · exact (h.kept.distinct key).sublist (hs.map _)
  · intro o n ho hn hcl
    rw [owner_eq_head?] at ho hn
    obtain rfl : n = o := List.inj_on_of_nodup_map (h.kept.distinct key)
      (hs.subset (mem_of_head? hn)) (mem_of_head? ho) hcl
    exact ⟨rfl, rfl, fun _ => rfl⟩

end

end Synced

namespace Clients
variable {u : UrlCrate} {c : Clients} {id : ClientId} {key : DocumentKey} {docs : ServerDocs}

lemma forgetUnheld_holders (k : DocumentKey) : c.forgetUnheld.holders k = c.holders k := by
  unfold holders forgetUnheld
  rw [get_filter]
  cases c.documents[k]? with
  | none => rfl
  | some hs => cases hs <;> rfl

section
variable (h : Synced u c docs)
include h

lemma didOpen_watched {uri text language version} (hkey : DocumentKey.new u uri = key) :
    Serves u docs (c.didOpen id uri text version language key) := by
  unfold didOpen
  dsimp only
  split
  · exact Watched.nil h
  rename_i hnew
  have hnew' : ∀ h ∈ c.holders key, h.client ≠ id := by simpa using hnew
  apply Watched.andThen (P := Synced u)
  · apply Watched.andThen (P := Synced u)
    · refine h.sync_insert rfl rfl rfl ?_ ?_ ?_
      · intro n hn
        rcases mem_append.mp hn with hn | hn
        · exact h.kept.keyed key n hn
        · exact mem_singleton.mp hn ▸ hkey
      · rw [map_append, nodup_append]
        refine ⟨h.kept.distinct key, nodup_singleton _, ?_⟩
        rintro a ha b hb rfl
        obtain ⟨n, hn, rfl⟩ := mem_map.mp ha
        exact hnew' n hn (mem_singleton.mp hb)
      · -- A document that has an owner keeps it.
        intro o n ho hn _
        rw [List.head?_append, ho] at hn
        obtain rfl : o = n := Option.some.inj hn
        exact ⟨rfl, rfl, fun _ => rfl⟩
    · intro c' docs' h'
      exact h'.aside (replay_aside.imp fun _ => And.right)
  · intro c' docs' h'
    exact h'.aside (.one (.refl c') trivial)

section
variable {holders} (hd : c.documents[key]? = some holders)
include hd

lemma didClose_watched {index} :
    Serves u docs (c.didClose id key holders index) := by
  have hold : c.holders key = holders := by simp [Clients.holders, hd]
  have hsub : (holders.eraseIdx index).Sublist (c.holders key) :=
    hold ▸ List.eraseIdx_sublist _ _
  apply Watched.andThen (P := Synced u)
  · refine h.sync_shrink rfl rfl ?_ ?_
    · intro k e
      exact Eq.trans (holders_insert rfl k) (if_neg fun e' => e e'.symm)
    · rw [holders_insert (c := c) rfl, if_pos rfl]
      exact hsub
  · intro c' docs' h'
    have h'' : Synced u c'.forgetUnheld docs' :=
      h'.congr (fun k => by rw [forgetUnheld_holders]) rfl rfl
    exact h''.aside (.one (.refl _) trivial)

/-- An owner's new text comes with a new version. -/
lemma didChange_watched {index holder text version} (hi : holders[index]? = some holder)
    (hv : version ≠ holder.version) :
    Serves u docs (c.didChange id key holders index holder text version) := by
  have hold : c.holders key = holders := by simp [Clients.holders, hd]
  unfold didChange
  apply Watched.andThen (P := Synced u)
  · apply Watched.andThen (P := fun c' docs' => docs' = docs ∧ c'.view = c.view
      ∧ c'.active = c.active ∧ c'.documents = c.documents.insert key
        (holders.set index { holder with text, version, dirty := true }))
    · have silent : ∀ (p : Prop) [Decidable p] (frame : Value),
          (if p then [Action.toClient id frame] else []).foldlM ServerDocs.take docs
            = some docs := by
        intro p _ frame
        split <;> rfl
      exact ⟨docs, silent _ _, rfl, rfl, rfl, rfl⟩
    · rintro c' docs' ⟨rfl, hview, hact, hdoc⟩
      apply h.sync_insert hdoc hview hact
      · intro n hn
        rcases List.mem_or_eq_of_mem_set hn with hn | rfl
        · exact h.kept.keyed key n (hold ▸ hn)
        · exact h.kept.keyed key holder (hold ▸ mem_of_getElem? hi)
      · -- The editors that hold the document are the same.
        have hcl : (holders.set index { holder with text, version, dirty := true }).map (·.client)
            = holders.map (·.client) := map_set_of_key_eq hi rfl
        rw [hcl, ← hold]
        exact h.kept.distinct key
      · intro o n ho hn _
        rw [hold, List.head?_eq_getElem?] at ho
        rw [List.head?_eq_getElem?, List.getElem?_set] at hn
        split at hn
        · rename_i h0
          subst h0
          obtain rfl : holder = o := Option.some.inj (hi.symm.trans ho)
          split at hn
          · obtain rfl := Option.some.inj hn
            exact ⟨rfl, rfl, fun e => absurd e hv⟩
          · cases hn
        · obtain rfl : o = n := Option.some.inj (ho.symm.trans hn)
          exact ⟨rfl, rfl, fun _ => rfl⟩
  · intro c' docs' h'
    split
    · exact Watched.nil h'
    · exact h'.aside (.one (.refl _) trivial)

lemma didSave_watched {index holder frame method} (hi : holders[index]? = some holder)
    (hm : method? frame = some method) (hs : Method.ofText method = .didSave) :
    Serves u docs (c.didSave id key holders index holder frame) := by
  have hold : c.holders key = holders := by simp [Clients.holders, hd]
  apply Watched.andThen (P := Synced u)
  · split
    · refine ⟨docs, rfl, h.congr (fun k => ?_) rfl rfl⟩
      rw [holders_insert (c := c) rfl]
      split
      · rename_i e
        subst e
        rw [hold]
        exact map_set_of_key_eq hi rfl
      · rfl
    · exact Watched.nil h
  · intro c' docs' h'
    unfold forwardSave
    split
    · split
      · refine h'.aside (.one (.refl c') ?_)
        exact not_edits (method?_modify (by decide) hm) hs
      · exact Watched.nil h'
    · exact Watched.nil h'

end

end

/-- A change of a document moves its version. -/
def MovesVersion (u : UrlCrate) (c : Clients) (id : ClientId) (frame : Value) : Prop :=
  ∀ method uri text version, method? frame = some method → Method.ofText method = .didChange →
    (((frame.index "params").index "textDocument").index "uri").asStr = some uri →
    changeOf frame = some (text, version) →
    ∀ h ∈ c.holders (DocumentKey.new u uri), h.client = id → version ≠ h.version

section
variable (h : Synced u c docs)
include h

lemma document_watched {frame method} (hm : method? frame = some method)
    (hv : MovesVersion u c id frame) :
    Serves u docs (c.document u id (Method.ofText method) frame) := by
  unfold document
  dsimp only
  split
  · exact Watched.nil h
  rename_i uri huri
  split
  · split
    · exact didOpen_watched h rfl
    · exact Watched.nil h
  split
  · exact Watched.nil h
  rename_i holders hd
  split
  · rename_i index holder hidx hfind
    have hi : holders[index]? = some holder := getElem?_of_findIdx? hidx hfind
    split
    · exact didClose_watched h hd
    · rename_i hmeth
      split
      · rename_i text version hch
        apply didChange_watched h hd hi
        have hmem : holder ∈ c.holders (DocumentKey.new u uri) := by
          simp [Clients.holders, hd, mem_of_getElem? hi]
        exact hv method uri text version hm hmeth huri hch holder hmem
          (by simpa using List.find?_some hfind)
      · exact Watched.nil h
    · rename_i hmeth
      exact didSave_watched h hd hi hm hmeth
    · exact Watched.nil h
  · exact Watched.nil h

lemma release_watched :
    Serves u docs (c.release id key) := by
  refine h.sync_shrink rfl rfl (fun k e => ?_) ?_
  · exact Eq.trans (holders_modify rfl rfl k) (if_neg fun e' => e e'.symm)
  · rw [holders_modify (c := c) rfl rfl, if_pos rfl]
    exact filter_sublist

lemma detach_watched :
    Serves u docs (c.detach id) := by
  unfold detach
  split
  · exact Watched.nil h
  apply Watched.andThen (P := Synced u)
  · have h' : Synced u { c with clients := c.clients.erase id } docs :=
      h.undisturbed (.refl c)
    exact Watched.emitAll (I := fun _ => Synced u) h' fun key _ c' docs' hs => release_watched hs
  · intro c' docs' h'
    have h'' : Synced u { c'.forgetUnheld with
        shown := c'.shown.filter fun shown _ => shown.1 ≠ id } docs' :=
      h'.congr (fun k => congrArg _ (forgetUnheld_holders k)) rfl rfl
    exact h''.aside (.one (.refl _) trivial)

lemma clientFrame_watched {frame} (hv : MovesVersion u c id frame) :
    Serves u docs (c.clientFrame u id frame) := by
  unfold clientFrame
  split
  · rename_i client method hc hm
    split
    · apply (detach_watched h).andThen
      intro c' docs' h'
      exact h'.aside (.one (.refl c') trivial)
    split
    · refine h.aside ⟨.refl c, fun a ha => ?_⟩
      obtain ⟨request, -, rfl⟩ := mem_map.mp ha
      trivial
    unfold dispatch
    split
    · exact h.aside initializeClient_undisturbed
    · exact h.aside becomeReady_undisturbed
    · exact h.aside (.one (.refl c) trivial)
    · exact h.aside (cancelRequest_undisturbed hm ‹_›)
    · exact Watched.nil h
    · exact h.aside (forward_undisturbed hm ‹_›)
    · exact Watched.nil h
    · exact document_watched h hm hv
  · exact Watched.nil h

end

/-- A new server is shown every document, and asked nothing about any of them before. -/
lemma lifetimeStarted_watched (hk : Kept u c) (hq : QueuedAll MayWait c)
    (initializeResult : Value) : Serves u ∅ (c.lifetimeStarted u initializeResult) := by
  unfold lifetimeStarted
  apply Watched.andThen (P := fun c' docs' => Synced u c' docs' ∧ QueuedAll MayWait c')
  · let I : List DocumentKey → Clients → ServerDocs → Prop := fun todo c' docs' =>
      c'.documents = c.documents ∧ c'.clients = c.clients ∧ c'.active ∧ Tracks u c' docs'
        ∧ ∀ k, k ∉ todo → Current c' k
    have synced : Watched ServerDocs.take (I []) ∅ (emitAll sync { c with
        active := true, initialized := some initializeResult, snapshots := ∅, view := ∅ }
        c.documents.keys) := by
      apply Watched.emitAll (I := I)
      · refine ⟨rfl, rfl, rfl, ⟨fun k v hv => ?_, fun k v hv => ?_, fun uri hm => ?_⟩,
          fun k hn => ?_⟩
        · simp at hv
        · simp at hv
        · simp at hm
        · have hnone : c.documents[k]? = none := by
            simpa using hn
          simp [Current, owner, hnone]
      · rintro key todo c' docs' ⟨hd, hcl, ha, ht, hcur⟩
        apply ((sync_watched ha (hk.congr hd) ht).and (Q := fun c'' => c''.clients = c.clients)
          (sync_clients.trans hcl)).imp
        rintro c'' docs'' ⟨⟨hb, ht', hcur'⟩, hcl'⟩
        refine ⟨hb.1.trans hd, hcl', hb.2.1.trans ha, ht', fun k hk => ?_⟩
        by_cases e : k = key
        · exact e ▸ hcur'
        · have := hcur k (by simp [e, hk])
          unfold Current at *
          rwa [hb.2.2 k e, hb.owner k]
    apply synced.imp
    rintro c' docs' ⟨hd, hcl, ha, ht, hcur⟩
    exact ⟨⟨hk.congr hd, fun _ => ht, fun _ k => hcur k not_mem_nil⟩, hq.congr hcl⟩
  · rintro c' docs' ⟨hs, hq'⟩
    exact hs.aside ((resumeAll_undisturbed hq').imp fun _ => And.left)

/-- Every event but the start of a lifetime is a step of the server it finds. -/
lemma event_watched (h : Synced u c docs) {e}
    (hne : ∀ initializeResult, e ≠ .lifetimeStarted initializeResult)
    (hv : ∀ id frame, e = .clientFrame id frame → MovesVersion u c id frame) :
    Serves u docs (c.event u e) := by
  cases e with
  | attach id pid name sinceMs => exact h.aside (.one (.refl c) trivial)
  | detach id => exact detach_watched h
  | clientFrame id frame => exact clientFrame_watched h (hv id frame rfl)
  | serverMessage frame => exact h.aside (serverMessage_aside.imp fun _ => And.right)
  | serverReply id original frame => exact h.aside serverReply_undisturbed
  | lifetimeStarted initializeResult => exact absurd rfl (hne initializeResult)
  | lifetimeEnded reason =>
    have ended : Synced u { c with progress := [], active := false, snapshots := ∅, view := ∅ }
        docs :=
      ⟨⟨h.kept.keyed, h.kept.distinct⟩, nofun, nofun⟩
    exact (ended.aside cancelRequests_undisturbed).andThen fun c' docs' h' =>
      h'.aside (serverMessage_aside.imp fun _ => And.right)
  | refused message => exact h.aside cancelRequests_undisturbed

end Clients

end Rimz.Lsp
