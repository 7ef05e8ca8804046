import Rimz.Lib.Ledger
import Rimz.Lsp.Notices

/-!
# Every request is answered once

The correspondence of one editor is what it asked under an identifier since it was attached, and
what it was answered. The requests that wait in its queue and those that are pending at the server
are the open ones: with them the books of the correspondence are balanced (`Books`) after every
event, whatever the server does.
-/

namespace Rimz.Lsp
open Rimz.Lib Rimz.Lib.Ledger Std

/-- The identifiers of the requests that wait for a server. -/
def Client.queuedIds (client : Client) : List Value :=
  client.queued.filterMap (·.get? "id")

/-- The identifiers of the requests the server has not answered yet. -/
def Client.pendingIds (client : Client) : List Value :=
  client.pending.map (·.1)

/-- The requests that are open. -/
def Client.outstanding (client : Client) : List Value :=
  client.queuedIds ++ client.pendingIds

/-- A method that is asked to be answered: it is no notification. -/
def Method.owed : Method → Bool
  | .initializeRequest | .shutdown | .other => true
  | _ => false

/-- What an attached editor asks with an event. -/
def questions (i : ClientId) (c : Clients) : Event → List (Item Value)
  | .clientFrame j frame =>
    if j = i ∧ (c.clients[i]?).isSome then
      match method? frame, frame.get? "id" with
      | some method, some x => [.asked x (Method.ofText method).owed]
      | _, _ => []
    else []
  | _ => []

/-- What an event puts on the editor's books before it is dealt with; a newly attached editor starts
a new correspondence. -/
def entries (i : ClientId) (c : Clients) (l : List (Item Value)) : Event → List (Item Value)
  | .attach j _ _ _ => if j = i then [] else l
  | e => l ++ questions i c e

/-- What an editor hears in an action. -/
def heard (i : ClientId) (l : List (Item Value)) (a : Action) : Option (List (Item Value)) :=
  match responseTo i a with
  | some x => some (l ++ [.answered x])
  | none => some l

/-- The router beside the correspondence of one editor. -/
structure Correspondence where
  clients : Clients
  items : List (Item Value)

namespace Correspondence

/-- One event: what is asked, then what is answered. -/
def step (u : UrlCrate) (i : ClientId) (s : Correspondence) (e : Event) : Correspondence :=
  let r := s.clients.event u e
  { clients := r.1
    items := entries i s.clients s.items e ++ (r.2.filterMap (responseTo i)).map .answered }

def run (u : UrlCrate) (server : String) (i : ClientId) (events : List Event) : Correspondence :=
  events.foldl (step u i) { clients := Clients.new server, items := [] }

lemma run_append_one (u : UrlCrate) (server : String) (i : ClientId) (events : List Event)
    (e : Event) : run u server i (events ++ [e]) = (run u server i events).step u i e := by
  simp [run]

end Correspondence

/-- The router after some events. -/
def Clients.after (u : UrlCrate) (server : String) (events : List Event) : Clients :=
  events.foldl (fun c e => (c.event u e).1) (Clients.new server)

/-- An event as editors and servers send them: an identifier is not used again while its request is
open, and a reply of the server is a response. -/
def Orderly (c : Clients) : Event → Prop
  | .clientFrame i frame => ∀ client ∈ c.clients[i]?, (method? frame).isSome →
      ∀ x ∈ frame.get? "id", x ∉ client.outstanding
  | .serverReply _ _ frame => frame.isObject ∧ method? frame = none
  | _ => True

/-- An introduction or a shutdown is asked under an identifier. -/
def Identified (c : Clients) : Event → Prop
  | .clientFrame i frame => ∀ client ∈ c.clients[i]?, client.shutdown = false →
      ∀ method ∈ method? frame,
        Method.ofText method = .initializeRequest ∨ Method.ofText method = .shutdown →
        (frame.get? "id").isSome
  | _ => True

instance (c : Clients) : DecidablePred (Orderly c)
  | .clientFrame i frame => inferInstanceAs (Decidable (∀ client ∈ c.clients[i]?,
      (method? frame).isSome → ∀ x ∈ frame.get? "id", x ∉ client.outstanding))
  | .serverReply _ _ frame => inferInstanceAs (Decidable (frame.isObject ∧ method? frame = none))
  | .attach .. | .detach _ | .serverMessage _ | .lifetimeStarted _ | .lifetimeEnded _
  | .refused _ => isTrue trivial

instance (c : Clients) : DecidablePred (Identified c)
  | .clientFrame i frame => inferInstanceAs (Decidable (∀ client ∈ c.clients[i]?,
      client.shutdown = false → ∀ method ∈ method? frame,
        Method.ofText method = .initializeRequest ∨ Method.ofText method = .shutdown →
        (frame.get? "id").isSome))
  | .attach .. | .detach _ | .serverMessage _ | .serverReply .. | .lifetimeStarted _
  | .lifetimeEnded _ | .refused _ => isTrue trivial

/-- Every step of a run meets a condition on the event and the state it finds. -/
def Throughout (P : Clients → Event → Prop) (u : UrlCrate) : Clients → List Event → Prop
  | _, [] => True
  | c, e :: events => P c e ∧ Throughout P u (c.event u e).1 events

instance instDecidableThroughout (P : Clients → Event → Prop) [∀ c, DecidablePred (P c)]
    (u : UrlCrate) : ∀ c events, Decidable (Throughout P u c events)
  | _, [] => isTrue trivial
  | c, e :: events =>
    have := instDecidableThroughout P u (c.event u e).1 events
    inferInstanceAs (Decidable (P c e ∧ Throughout P u (c.event u e).1 events))

lemma throughout_append_one {P u c events e} : Throughout P u c (events ++ [e]) ↔
      Throughout P u c events ∧ P (events.foldl (fun c e => (c.event u e).1) c) e := by
  induction events generalizing c with
  | nil => simp [Throughout]
  | cons e' events ih => simp [Throughout, ih, and_assoc]

/-- The books of one editor, as long as it is attached, with the requests that were taken out of its
queue and are not dealt with yet. -/
structure Books (i : ClientId) (taken : List Value) (c : Clients) (l : List (Item Value)) :
    Prop where
  proper : Proper l
  balanced : ∀ client, c.clients[i]? = some client → Balanced (taken ++ client.outstanding) l

/-- What leaves the books in order. -/
abbrev InOrder (i : ClientId) (taken : List Value) (l : List (Item Value))
    (r : Clients × List Action) :
    Prop := Watched (heard i) (fun c' l' => Books i taken c' l' ∧ Polite c') l r

lemma heard_of_none {i a} (h : responseTo i a = none) (l : List (Item Value)) :
    heard i l a = some l := by
  simp [heard, h]

lemma heard_answer {i a x} (h : responseTo i a = some x) (l : List (Item Value)) :
    heard i l a = some (l ++ [.answered x]) := by
  simp [heard, h]

lemma foldlM_heard (i : ClientId) (l : List (Item Value)) (out : List Action) :
    out.foldlM (heard i) l = some (l ++ (out.filterMap (responseTo i)).map .answered) := by
  induction out generalizing l with
  | nil => simp
  | cons a out ih =>
    rw [List.foldlM_cons]
    cases h : responseTo i a with
    | none =>
      rw [heard_of_none h]
      simp [h, ih]
    | some x =>
      rw [heard_answer h]
      simp [h, ih]

lemma responseTo_error (i : ClientId) (x : Value) {code message} :
    responseTo i (error i x code message) = some x := by
  simp [responseTo, error, method?, Value.index, Value.get?, Value.lookup, Value.asStr]

lemma responseTo_result (i : ClientId) (x v : Value) :
    responseTo i (.toClient i (result x v)) = some x := by
  simp [responseTo, result, method?, Value.index, Value.get?, Value.lookup, Value.asStr]

lemma responseTo_other {i j} (h : j ≠ i) {frame} : responseTo i (.toClient j frame) = none := by
  simp [responseTo, h]

section Books
variable {i : ClientId} {c c' : Clients} {l : List (Item Value)} {r : Clients × List Action}
variable {taken : List Value}

lemma Books.congr (h : Books i taken c l) (hc : c'.clients[i]? = c.clients[i]?) :
    Books i taken c' l :=
  ⟨h.proper, fun client hi => h.balanced client (hc ▸ hi)⟩

lemma unheard {P Q} (hr : Emits Q (fun a => responseTo i a = none) r) (hp : ∀ c', Q c' → P c' l) :
    Watched (heard i) P l r := by
  have silent : Emits Q (fun a => ∀ l, heard i l a = some l) r :=
    ⟨hr.state, fun a ha l => heard_of_none (hr.outputs a ha) l⟩
  exact silent.watched hp

lemma unanswered {P Q} (hr : Emits Q NoAnswer r) (hp : ∀ c', Q c' → P c' l) :
    Watched (heard i) P l r :=
  unheard ⟨hr.state, fun a ha => hr.outputs a ha i⟩ hp

lemma Books.unasked (h : Books i taken c l) (hr : Emits (Unasked c) NoAnswer r) :
    InOrder i taken l r :=
  unanswered hr fun _ hc => ⟨h.congr (by rw [hc.1]), hc.2⟩

lemma Books.of_get {client} (hc : c.clients[i]? = some client)
    (hb : Balanced (taken ++ client.outstanding) l) : Books i taken c l :=
  ⟨hb.proper, fun _ hi => Option.some.inj (hc.symm.trans hi) ▸ hb⟩

lemma Books.of_insert {client} (hc : c'.clients = c.clients.insert i client)
    (hb : Balanced (taken ++ client.outstanding) l) : Books i taken c' l :=
  .of_get (by rw [hc, get_insert, if_pos rfl]) hb

end Books

namespace Clients
variable {u : UrlCrate} {i j : ClientId} {c : Clients} {l : List (Item Value)} {client : Client}
variable {frame x : Value} {method : String} {taken : List Value}

section

variable (hp : Polite c) (hx : frame.get? "id" = some x)
  (hb : Balanced (x :: (taken ++ client.outstanding)) l)
include hp hx hb

/-- A request that has to wait is open, or answered when there is no room. -/
lemma enqueue_books (hc : c.clients[i]? = some client) :
    InOrder i taken l (c.enqueue i client frame) := by
  unfold enqueue
  split
  · rw [Value.index_of_get? hx]
    exact Watched.one (heard_answer (responseTo_error i x) l) ⟨.of_get hc hb.answer, hp⟩
  refine Watched.one (heard_of_none rfl l) ⟨Books.of_insert rfl (hb.perm ?_), hp.congr rfl rfl rfl⟩
  simp only [Client.outstanding, Client.queuedIds, Client.pendingIds, filterMap_append,
    filterMap_cons, hx, List.filterMap_nil]
  rw [append_assoc, ← append_assoc, ← append_assoc]
  exact List.perm_middle.symm

/-- An introduction is answered, or waits. -/
lemma initializeClient_books : InOrder i taken l (c.initializeClient i client frame) := by
  obtain ⟨client', named, queued, pending, publish, e⟩ := initializeClient_eq c i client frame
  have hb : Balanced (x :: (taken ++ client'.outstanding)) l := by
    simpa only [Client.outstanding, Client.queuedIds, Client.pendingIds, queued, pending] using hb
  rw [e]
  apply Watched.andThen
    (P := fun c' l' => Polite c' ∧ l' = l ∧ c'.clients = c.clients.insert i client')
  · have quiet : Emits (fun c' => Polite c' ∧ c'.clients = c.clients.insert i client')
        (fun a => ∀ l, heard i l a = some l)
        (({ c with clients := c.clients.insert i client' }, named) : Clients × List Action) :=
      ⟨⟨hp.congr rfl rfl rfl, rfl⟩, fun a ha l => publish a ha ▸ rfl⟩
    exact quiet.watched fun c' hc => ⟨hc.1, rfl, hc.2⟩
  · rintro c' l' ⟨hp', rfl, hc⟩
    have hi : c'.clients[i]? = some client' := by rw [hc, get_insert, if_pos rfl]
    split
    · rw [Value.index_of_get? hx]
      refine ⟨l' ++ [.answered x], ?_, .of_get hi hb.answer, hp'⟩
      have hs : responseTo i .requestStart = none := rfl
      rw [foldlM_heard]
      split <;> simp [responseTo_result, hs]
    · exact enqueue_books hp' hx hb hi

lemma forward_books (hc : c.clients[i]? = some client) :
    InOrder i taken l (c.forward u i client method frame) := by
  unfold forward
  simp only [hx, Option.isSome_some, if_true]
  split
  · refine Watched.one (heard_of_none rfl l) ⟨Books.of_insert rfl (hb.perm ?_), hp.congr rfl rfl rfl⟩
    simp only [Client.outstanding, Client.queuedIds, Client.pendingIds, map_append,
      map_cons, map_nil, ← append_assoc]
    exact (List.perm_append_singleton x _).symm
  · exact enqueue_books hp hx hb hc

end

/-- A request of an attached editor, new or taken up again, ends up open or answered. -/
lemma clientFrame_due (hp : Polite c) (hc : c.clients[i]? = some client)
    (hm : method? frame = some method) (ho : (Method.ofText method).owed)
    (hx : frame.get? "id" = some x) (hb : Balanced (x :: (taken ++ client.outstanding)) l) :
    InOrder i taken l (c.clientFrame u i frame) := by
  unfold clientFrame
  rw [hc, hm]
  dsimp only
  have hexit : Method.ofText method ≠ .exit := fun e => by simp [e, Method.owed] at ho
  rw [if_neg hexit]
  split
  · rw [hx]
    exact Watched.one (heard_answer (responseTo_error i x) l) ⟨.of_get hc hb.answer, hp⟩
  unfold dispatch
  split
  · exact initializeClient_books hp hx hb
  · next e => simp [e, Method.owed] at ho
  · rw [Value.index_of_get? hx]
    exact Watched.one (heard_answer (responseTo_result i x _) l)
      ⟨Books.of_insert rfl hb.answer, hp.congr rfl rfl rfl⟩
  · next e => simp [e, Method.owed] at ho
  · next e => simp [e, Method.owed] at ho
  · exact forward_books hp hx hb hc
  · rename_i e
    exact absurd e hexit
  · rename_i h1 h2 h3 h4 h5 h6 h7
    cases e : Method.ofText method <;> simp_all [Method.owed]

lemma queuedIds_eraseP {queued : List Value} (hid : ∀ frame ∈ queued, (frame.get? "id").isSome)
    (hx : queued.any fun v => v.index "id" = x) :
    (queued.filterMap (·.get? "id")).Perm
      (x :: (queued.eraseP fun v => v.index "id" = x).filterMap (·.get? "id")) := by
  induction queued with
  | nil => cases hx
  | cons v queued ih =>
    obtain ⟨y, hy⟩ := isSome_iff_exists.mp (hid v mem_cons_self)
    have hv : v.index "id" = y := Value.index_of_get? hy
    by_cases e : y = x
    · subst e
      rw [List.eraseP_cons_of_pos (by simp [hv])]
      simp [hy]
    rw [List.eraseP_cons_of_neg (by simp [hv, e])]
    have := ih (fun f hf => hid f (mem_cons_of_mem _ hf)) (by simpa [hv, e] using hx)
    simp only [filterMap_cons, hy]
    exact (this.cons y).trans (List.Perm.swap x y _)

lemma cancelRequest_books (h : Books i [] c l) (hp : Polite c) (hc : c.clients[i]? = some client)
    (hid : ∀ frame ∈ client.queued, (frame.get? "id").isSome) :
    InOrder i [] l (c.cancelRequest i client frame) := by
  unfold cancelRequest
  dsimp only
  split
  · rename_i hany
    refine Watched.one (heard_answer (responseTo_error i _) l)
      ⟨Books.of_insert rfl (Balanced.answer ?_), hp.congr rfl rfl rfl⟩
    exact (h.balanced client hc).perm ((queuedIds_eraseP hid hany).append_right _)
  · split
    · exact Watched.one (heard_of_none rfl l) ⟨h, hp⟩
    · exact Watched.nil ⟨h, hp⟩

lemma detach_books (hl : Proper l) (hp : Polite c) :
    InOrder i [] l (c.detach i) := by
  have gone : Emits (fun c' => c'.clients[i]? = none ∧ Polite c') NoAnswer (c.detach i) := by
    have hd : Emits Polite NoAnswer (c.detach i) := detach_unasked hp
    refine ⟨⟨?_, hd.state⟩, hd.outputs⟩
    rw [detach_clients, get_erase, if_pos rfl]
  refine unanswered gone fun c' hc => ⟨⟨hl, fun client hi => ?_⟩, hc.2⟩
  rw [hc.1] at hi
  cases hi

lemma dispatch_books (h : Books i [] c l) (hp : Polite c) (hc : c.clients[i]? = some client)
    (hid : ∀ frame ∈ client.queued, (frame.get? "id").isSome)
    (ho : (Method.ofText method).owed = false) :
    InOrder i [] l (c.dispatch u i client method frame) := by
  unfold dispatch
  split
  · next e => simp [e, Method.owed] at ho
  · refine unanswered (becomeReady_unasked hp) fun c' hc' => ⟨?_, hc'.1⟩
    rcases hc'.2 with hc' | hc'
    · exact h.congr (by rw [hc'])
    · exact Books.of_insert hc' (h.balanced client hc)
  · next e => simp [e, Method.owed] at ho
  · exact cancelRequest_books h hp hc hid
  · exact Watched.nil ⟨h, hp⟩
  · next e => simp [e, Method.owed] at ho
  · exact Watched.nil ⟨h, hp⟩
  · exact h.unasked (document_unasked hp)

/-- A frame of this editor, once what it asks is on the books. -/
lemma clientFrame_books (h : Books i [] c l) (hp : Polite c)
    (hid : QueuedAll (fun frame => (frame.get? "id").isSome) c)
    (ho : Orderly c (.clientFrame i frame)) (hi : Identified c (.clientFrame i frame)) :
    InOrder i [] (l ++ questions i c (.clientFrame i frame)) (c.clientFrame u i frame) := by
  cases hc : c.clients[i]? with
  | none =>
    have hf : c.clientFrame u i frame = (c, []) := by simp [clientFrame, hc]
    have hq : questions i c (.clientFrame i frame) = [] := by simp [questions, hc]
    rw [hf, hq, append_nil]
    exact Watched.nil ⟨h, hp⟩
  | some client =>
    have hb := h.balanced client hc
    cases hm : method? frame with
    | none =>
      have hf : c.clientFrame u i frame = (c, []) := by simp [clientFrame, hc, hm]
      have hq : questions i c (.clientFrame i frame) = [] := by simp [questions, hc, hm]
      rw [hf, hq, append_nil]
      exact Watched.nil ⟨h, hp⟩
    | some method =>
      cases hx : frame.get? "id" with
      | some x =>
        have hq : questions i c (.clientFrame i frame)
            = [.asked x (Method.ofText method).owed] := by simp [questions, hc, hm, hx]
        have hnew := ho client hc (by simp [hm]) x hx
        rw [hq]
        cases hown : (Method.ofText method).owed with
        | true => exact clientFrame_due hp hc hm hown hx (hb.ask hnew)
        | false =>
          unfold clientFrame
          rw [hc, hm]
          dsimp only
          split
          · apply (detach_books (hb.mention hnew).proper hp).andThen
            intro c' l' h'
            exact Watched.one (heard_of_none rfl l') h'
          split
          · rw [hx]
            exact Watched.one (heard_answer (responseTo_error i x) _)
              ⟨.of_get hc (hb.answer_mention hnew), hp⟩
          · exact dispatch_books (.of_get hc (hb.mention hnew)) hp hc (hid i client hc) hown
      | none =>
        have hq : questions i c (.clientFrame i frame) = [] := by simp [questions, hc, hm, hx]
        rw [hq, append_nil]
        unfold clientFrame
        rw [hc, hm]
        dsimp only
        split
        · apply (detach_books h.proper hp).andThen
          intro c' l' h'
          exact Watched.one (heard_of_none rfl l') h'
        split
        · rw [hx]
          exact Watched.nil ⟨h, hp⟩
        rename_i hlive
        cases hown : (Method.ofText method).owed with
        | false => exact dispatch_books h hp hc (hid i client hc) hown
        | true =>
          -- Only what goes to the server may come without an identifier.
          have hother : Method.ofText method = .other := by
            have hnone := hi client hc (by simpa using hlive) method hm
            cases e : Method.ofText method <;> simp_all [Method.owed]
          unfold dispatch
          rw [hother]
          unfold forward
          simp only [hx]
          split
          · exact Watched.one (heard_of_none rfl l)
              ⟨Books.of_insert rfl hb, hp.congr rfl rfl rfl⟩
          · exact Watched.nil ⟨h, hp⟩

/-! ### Other editors -/

/-- An editor is left alone: its record is the same. -/
def Apart (i : ClientId) (c c' : Clients) : Prop :=
  c'.clients[i]? = c.clients[i]? ∧ Polite c'

/-- An editor is left alone, and told nothing. -/
abbrev LeftAlone (i : ClientId) (c : Clients) (r : Clients × List Action) : Prop :=
  Emits (Apart i c) (fun a => responseTo i a = none) r

lemma apart_insert {c'} (hj : j ≠ i) (hp : Polite c') (hc : c'.clients = c.clients.insert j client) :
    Apart i c c' :=
  ⟨by rw [hc, get_insert, if_neg hj], hp⟩

lemma apart_of_noAnswer {P r} (hr : Emits P NoAnswer r) (h : ∀ c', P c' → Apart i c c') :
    LeftAlone i c r :=
  ⟨h _ hr.state, fun a ha => hr.outputs a ha i⟩

section

variable (hj : j ≠ i) (hp : Polite c)
include hj hp

lemma enqueue_apart : LeftAlone i c (c.enqueue j client frame) := by
  unfold enqueue
  split
  · exact .one ⟨rfl, hp⟩ (responseTo_other hj)
  · exact .one (apart_insert hj (hp.congr rfl rfl rfl) rfl) rfl

lemma initializeClient_apart : LeftAlone i c (c.initializeClient j client frame) := by
  obtain ⟨client', named, -, -, publish, e⟩ := initializeClient_eq c j client frame
  rw [e]
  apply Emits.andThen (P := Apart i c)
  · exact ⟨apart_insert hj (hp.congr rfl rfl rfl) rfl, fun a ha => publish a ha ▸ rfl⟩
  · intro c' hc
    split
    · refine ⟨hc, fun a ha => ?_⟩
      rcases mem_append.mp ha with ha | ha
      · split at ha
        · exact absurd ha not_mem_nil
        · exact mem_singleton.mp ha ▸ rfl
      · exact mem_singleton.mp ha ▸ responseTo_other hj
    · exact (enqueue_apart hj hc.2).imp fun _ he => ⟨he.1.trans hc.1, he.2⟩

lemma detach_apart : LeftAlone i c (c.detach j) := by
  have hd : Emits Polite NoAnswer (c.detach j) := detach_unasked hp
  refine ⟨⟨?_, hd.state⟩, fun a ha => hd.outputs a ha i⟩
  rw [detach_clients, get_erase, if_neg hj]

/-- What one editor sends is no business of another. -/
lemma clientFrame_apart : LeftAlone i c (c.clientFrame u j frame) := by
  unfold clientFrame
  split
  · rename_i client method hc hm
    split
    · apply (detach_apart hj hp).andThen
      intro c' hc'
      exact .one hc' rfl
    split
    · refine ⟨⟨rfl, hp⟩, fun a ha => ?_⟩
      obtain ⟨request, -, rfl⟩ := mem_map.mp ha
      exact responseTo_other hj
    unfold dispatch
    split
    · exact initializeClient_apart hj hp
    · refine apart_of_noAnswer (becomeReady_unasked hp) fun c' hc' => ?_
      rcases hc'.2 with he | he
      · exact ⟨by rw [he], hc'.1⟩
      · exact apart_insert hj hc'.1 he
    · exact .one (apart_insert hj (hp.congr rfl rfl rfl) rfl) (responseTo_other hj)
    · unfold cancelRequest
      dsimp only
      split
      · exact .one (apart_insert hj (hp.congr rfl rfl rfl) rfl) (responseTo_other hj)
      · split
        · exact .one ⟨rfl, hp⟩ rfl
        · exact .nil ⟨rfl, hp⟩
    · exact .nil ⟨rfl, hp⟩
    · unfold forward
      split
      · exact .one (apart_insert hj (hp.congr rfl rfl rfl) rfl) rfl
      · split
        · exact enqueue_apart hj hp
        · exact .nil ⟨rfl, hp⟩
    · exact .nil ⟨rfl, hp⟩
    · exact apart_of_noAnswer (document_unasked hp) fun c' hc' => ⟨by rw [hc'.1], hc'.2⟩
  · exact .nil ⟨rfl, hp⟩

end

/-! ### The server -/

/-- A request that waited, with its identifier. -/
def Waited (frame : Value) : Prop :=
  MayWait frame ∧ (frame.get? "id").isSome

lemma owed_of_mayWait (h : MayWait frame) :
    ∃ method, method? frame = some method ∧ (Method.ofText method).owed := by
  obtain ⟨method, hm, h | ⟨h, -⟩⟩ := h
  all_goals exact ⟨method, hm, by simp [h, Method.owed]⟩

/-- The requests of an editor that waited are open again or answered, one by one. -/
lemma resume_books (h : Books i [] c l) (hp : Polite c) (hq : QueuedAll Waited c) :
    InOrder i [] l (c.resume u j) := by
  unfold resume
  split
  · exact Watched.nil ⟨h, hp⟩
  rename_i client hc
  by_cases hj : j = i
  · subst hj
    -- The frames still to come are open beside what the editor's record says.
    let I : List Value → Clients → List (Item Value) → Prop := fun todo c' l' =>
      Polite c' ∧ Proper l' ∧ (∀ frame ∈ todo, Waited frame) ∧
        ∀ client, c'.clients[j]? = some client →
          Balanced (todo.filterMap (·.get? "id") ++ client.outstanding) l'
    have start : I client.queued
        { c with clients := c.clients.insert j { client with queued := [] } } l := by
      refine ⟨hp.congr rfl rfl rfl, h.proper, hq j client hc, fun client' hi => ?_⟩
      rw [get_insert, if_pos rfl] at hi
      obtain rfl := Option.some.inj hi
      simpa [Client.outstanding, Client.queuedIds, Client.pendingIds] using h.balanced client hc
    refine (Watched.emitAll start ?_).imp fun c' l' hI => ⟨⟨hI.2.1, hI.2.2.2⟩, hI.1⟩
    rintro frame todo c' l' ⟨hp', hl, hw, hb⟩
    obtain ⟨hmay, hid⟩ := hw frame mem_cons_self
    obtain ⟨x, hx⟩ := isSome_iff_exists.mp hid
    obtain ⟨method, hm, ho⟩ := owed_of_mayWait hmay
    have htodo : ∀ frame ∈ todo, Waited frame := fun f hf => hw f (mem_cons_of_mem _ hf)
    cases hc' : c'.clients[j]? with
    | none =>
      have hf : c'.clientFrame u j frame = (c', []) := by simp [clientFrame, hc']
      rw [hf]
      exact Watched.nil ⟨hp', hl, htodo, fun client' hi => by rw [hc'] at hi; cases hi⟩
    | some client' =>
      have hb' := hb client' hc'
      rw [filterMap_cons, hx] at hb'
      apply (clientFrame_due hp' hc' hm ho hx hb').imp
      rintro c'' l'' ⟨hbooks, hp''⟩
      exact ⟨hp'', hbooks.proper, htodo, hbooks.balanced⟩
  · have others : LeftAlone i c (emitAll (fun c frame => c.clientFrame u j frame)
          { c with clients := c.clients.insert j { client with queued := [] } } client.queued) := by
      refine .emitAll (apart_insert hj (hp.congr rfl rfl rfl) rfl) fun c' frame _ ha => ?_
      exact (clientFrame_apart hj ha.2).imp fun _ hf => ⟨hf.1.trans ha.1, hf.2⟩
    exact unheard others fun c' ha => ⟨h.congr ha.1, ha.2⟩

lemma filterMap_errors {ids : List Value} {code message} :
    (ids.map fun request => error i request code message).filterMap (responseTo i) = ids := by
  induction ids with
  | nil => rfl
  | cons x ids ih => simp [responseTo_error, ih]

/-- Every open request of the editor is answered, and no other. -/
lemma cancelRequests_responses {message : String} {kind}
    (hid : QueuedAll (fun frame => (frame.get? "id").isSome) c) :
    ((c.cancelRequests message kind).2.filterMap (responseTo i))
      = (c.clients[i]?).elim [] fun client => client.pendingIds ++ client.queuedIds := by
  unfold cancelRequests
  rw [List.filterMap_flatMap]
  rw [← flatMap_toList_of_key i fun client : Client => client.pendingIds ++ client.queuedIds]
  apply List.flatMap_congr
  rintro ⟨j, client⟩ hm
  have hc := ExtTreeMap.mem_toList_iff_getElem?_eq_some.mp hm
  have hqueued : client.queued.map (·.index "id") = client.queuedIds := by
    have hids := hid j client hc
    unfold Client.queuedIds
    generalize client.queued = queued at hids
    induction queued with
    | nil => rfl
    | cons f queued ih =>
      obtain ⟨x, hx⟩ := isSome_iff_exists.mp (hids f mem_cons_self)
      simp [Value.index_of_get? hx, hx, ih fun g hg => hids g (mem_cons_of_mem _ hg)]
  have hshow : responseTo i (showMessage j kind message) = none :=
    noAnswer_of_method rfl i
  dsimp only
  by_cases hj : j = i
  · subst hj
    split
    · rename_i he
      simp only [List.isEmpty_iff] at he
      simp [Client.pendingIds, Client.queuedIds, he.1, he.2]
    · simp only [filterMap_append, filterMap_cons, hshow, List.filterMap_nil,
        append_nil, hqueued, filterMap_errors]
      rfl
  · rw [if_neg hj]
    split
    · rfl
    refine List.filterMap_eq_nil_iff.mpr fun a ha => ?_
    rcases mem_append.mp ha with ha | ha
    · obtain ⟨x, -, rfl⟩ := mem_map.mp ha
      exact responseTo_other hj
    · exact mem_singleton.mp ha ▸ hshow

lemma cancelRequests_clients {message kind} (i : ClientId) :
    (c.cancelRequests message kind).1.clients[i]?
      = (c.clients[i]?).map fun client => { client with pending := [], queued := [] } := by
  simp [cancelRequests]

lemma cancelRequests_books (h : Books i [] c l) (hp : Polite c) {message kind}
    (hid : QueuedAll (fun frame => (frame.get? "id").isSome) c) :
    InOrder i [] l (c.cancelRequests message kind) := by
  refine ⟨_, foldlM_heard i l _, ?_, hp.congr rfl rfl rfl⟩
  rw [cancelRequests_responses hid]
  cases hc : c.clients[i]? with
  | none =>
    refine ⟨by simpa using h.proper, fun client hi => ?_⟩
    rw [cancelRequests_clients, hc] at hi
    cases hi
  | some client =>
    have hb : Balanced ((client.pendingIds ++ client.queuedIds) ++ []) l := by
      apply (h.balanced client hc).perm
      simpa [Client.outstanding] using perm_append_comm
    have hc' : (c.cancelRequests message kind).1.clients[i]?
        = some { client with pending := [], queued := [] } := by
      rw [cancelRequests_clients, hc]
      rfl
    exact .of_get hc' hb.answerAll

lemma responseTo_set (ho : frame.isObject) (hm : method? frame = none) :
    responseTo i (.toClient i (frame.set "id" x)) = some x := by
  have hm' : method? (frame.set "id" x) = none :=
    (method?_set_of_isObject ho (by decide)).trans hm
  simp [responseTo, hm', Value.get?_set ho]

lemma editField_response (ho : frame.isObject) (hm : method? frame = none) (f : Value → Value) :
    (Adaptation.editField frame "result" f).isObject
      ∧ method? (Adaptation.editField frame "result" f) = none := by
  unfold Adaptation.editField
  split
  · exact ⟨Value.isObject_set ho, (method?_set_of_isObject ho (by decide)).trans hm⟩
  · exact ⟨ho, hm⟩

/-- A reply of the server answers the request it is for. -/
lemma serverReply_books (h : Books i [] c l) (hp : Polite c) {original} (ho : frame.isObject)
    (hm : method? frame = none) :
    InOrder i [] l (c.serverReply u j original frame) := by
  unfold serverReply
  split
  · exact Watched.nil ⟨h, hp⟩
  rename_i client hc
  split
  · exact Watched.nil ⟨h, hp⟩
  rename_i pending method hf
  by_cases hj : j = i
  · subst hj
    have hedit := editField_response ho hm (fun result =>
      Adaptation.reply result method client.capabilities)
    have hresponse := fun map => responseTo_set (i := j) (x := original)
      ((Adaptation.isObject_uris map _).trans hedit.1) ((method?_uris map).trans hedit.2)
    refine Watched.one (heard_answer (hresponse _) l)
      ⟨Books.of_insert rfl (Balanced.answer ?_), hp.congr rfl rfl rfl⟩
    have hmem := List.mem_of_find?_eq_some hf
    obtain ⟨entry, before, after, -, he, hl, herase⟩ :=
      List.exists_of_eraseP hmem (List.find?_some hf)
    simp only [decide_eq_true_eq] at he
    apply (h.balanced client hc).perm
    simp only [nil_append, Client.outstanding, Client.queuedIds, Client.pendingIds, herase]
    rw [hl, map_append, map_append, map_cons, he, ← append_assoc,
      ← append_assoc]
    exact List.perm_middle
  · refine Watched.one (heard_of_none (responseTo_other hj) l) ⟨h.congr ?_, hp.congr rfl rfl rfl⟩
    rw [get_insert, if_neg hj]

/-- The books are in order after an event. -/
lemma event_books (h : Books i [] c l) (hp : Polite c) (hq : QueuedAll Waited c) {e}
    (ho : Orderly c e) (hi : Identified c e) :
    InOrder i [] (entries i c l e) (c.event u e) := by
  have hid : QueuedAll (fun frame => (frame.get? "id").isSome) c :=
    fun j client hc frame hm => (hq j client hc frame hm).2
  cases e with
  | attach j pid name sinceMs =>
    refine Watched.one (heard_of_none rfl _) ⟨?_, hp.congr rfl rfl rfl⟩
    dsimp only [entries]
    split
    · rename_i hj
      subst hj
      exact Books.of_insert rfl Balanced.nil
    rename_i hj
    refine h.congr ?_
    rw [get_insert, if_neg hj]
  | detach j =>
    simp only [entries, questions, append_nil]
    by_cases hj : j = i
    · subst hj
      exact detach_books h.proper hp
    · exact unheard (detach_apart hj hp) fun c' ha => ⟨h.congr ha.1, ha.2⟩
  | clientFrame j frame =>
    by_cases hj : j = i
    · subst hj
      exact clientFrame_books h hp hid ho hi
    have hq : questions i c (.clientFrame j frame) = [] := by simp [questions, hj]
    dsimp only [entries]
    rw [hq, append_nil]
    exact unheard (clientFrame_apart hj hp) fun c' ha => ⟨h.congr ha.1, ha.2⟩
  | serverMessage frame =>
    simp only [entries, questions, append_nil]
    exact h.unasked (serverMessage_unasked hp)
  | serverReply j original frame =>
    simp only [entries, questions, append_nil]
    exact serverReply_books h hp ho.1 ho.2
  | lifetimeStarted initializeResult =>
    simp only [entries, questions, append_nil]
    dsimp only [event, lifetimeStarted]
    apply Watched.andThen (P := fun c' l' => (Books i [] c' l' ∧ Polite c') ∧ QueuedAll Waited c')
    · have shown : Emits (fun c' => c'.clients = c.clients ∧ Polite c') NoAnswer
          (emitAll sync { c with
            active := true, initialized := some initializeResult, snapshots := ∅, view := ∅ }
            c.documents.keys) :=
        .emitAll ⟨rfl, hp.clear rfl (fun _ h => h) rfl⟩ fun c' key _ hc =>
          sync_unasked_of hc.1 hc.2
      exact unanswered shown fun c' hc => ⟨⟨h.congr (by rw [hc.1]), hc.2⟩, hq.congr hc.1⟩
    · rintro c' l' h'
      refine (Watched.emitAll (I := fun _ c' l' => (Books i [] c' l' ∧ Polite c')
        ∧ QueuedAll Waited c') h' ?_).imp fun _ _ => And.left
      rintro j _ c' l' ⟨⟨hb, hp'⟩, hq'⟩
      exact (resume_books hb hp' hq').and (resume_queuedAll hq')
  | lifetimeEnded reason =>
    simp only [entries, questions, append_nil]
    have ended : Books i [] { c with progress := [], active := false, snapshots := ∅, view := ∅ } l :=
      h.congr rfl
    have hp' : Polite { c with progress := [], active := false, snapshots := ∅, view := ∅ } :=
      hp.clear rfl (fun _ h => absurd h not_mem_nil) rfl
    dsimp only [event, lifetimeEnded]
    apply (cancelRequests_books ended hp' (hid.congr rfl)).andThen
    rintro c' l' ⟨hb, hp''⟩
    exact hb.unasked (serverMessage_unasked hp'')
  | refused message =>
    simp only [entries, questions, append_nil]
    exact cancelRequests_books h hp hid

end Clients

/-- The requests of an attached editor, and what it was answered. -/
structure AnsweredOnce (i : ClientId) (s : Correspondence) : Prop where
  /-- A request waits, or is pending, or was answered by one response under its identifier, before
  that was used again. -/
  requests : ∀ client, s.clients.clients[i]? = some client → ∀ earlier x later,
    s.items = earlier ++ .asked x true :: later →
      answersTo x later
        + (if Asked x later then 0 else client.queuedIds.count x + client.pendingIds.count x) = 1
  /-- A response is to something that was asked. -/
  responses : ∀ earlier x later, s.items = earlier ++ .answered x :: later → Asked x earlier

section Run
variable {u : UrlCrate} {server : String} {events : List Event} {i : ClientId}

lemma run_clients : (Correspondence.run u server i events).clients
    = Clients.after u server events := by
  induction events using List.reverseRecOn with
  | nil => rfl
  | append_singleton events e ih =>
    rw [Correspondence.run_append_one]
    simp [Correspondence.step, ih, Clients.after]

/-- The books are in order along every run whose introductions and shutdowns have identifiers. -/
lemma run_books (ho : Throughout Orderly u (Clients.new server) events)
    (hi : Throughout Identified u (Clients.new server) events) :
    Books i [] (Correspondence.run u server i events).clients
        (Correspondence.run u server i events).items
      ∧ Polite (Correspondence.run u server i events).clients
      ∧ Clients.QueuedAll Clients.Waited (Correspondence.run u server i events).clients := by
  induction events using List.reverseRecOn with
  | nil =>
    refine ⟨⟨Balanced.nil.proper, fun client hc => ?_⟩, ⟨?_, ?_, ?_⟩, fun j client hc => ?_⟩
    · simp [Correspondence.run, Clients.new] at hc
    · intro frame hf
      cases hf
    · intro p hm
      exact absurd hm not_mem_nil
    · intro key s hs
      simp [Correspondence.run, Clients.new] at hs
    · simp [Correspondence.run, Clients.new] at hc
  | append_singleton events e ih =>
    obtain ⟨ho', hoe⟩ := throughout_append_one.mp ho
    obtain ⟨hi', hie⟩ := throughout_append_one.mp hi
    obtain ⟨hb, hp, hq⟩ := ih ho' hi'
    have hc : (Correspondence.run u server i events).clients
        = events.foldl (fun c e => (c.event u e).1) (Clients.new server) := run_clients
    rw [← hc] at hoe hie
    obtain ⟨l, hl, hb', hp'⟩ := Clients.event_books hb hp hq hoe hie
    have hitems : ((Correspondence.run u server i events).step u i e).items = l := by
      rw [foldlM_heard] at hl
      rw [← Option.some.inj hl]
      rfl
    rw [Correspondence.run_append_one]
    refine ⟨hitems ▸ hb', hp', Clients.event_queuedAll hq ?_⟩
    rintro j frame rfl client hcl hlive hmay
    refine ⟨hmay, ?_⟩
    obtain ⟨method, hm, hw | ⟨-, hid⟩⟩ := hmay
    · exact hie client hcl hlive method hm (.inl hw)
    · exact hid

end Run

/-- A `url` crate that parses nothing: every URI is its own key. -/
def literalUris : UrlCrate where
  Url := Unit
  Path := Unit
  parse _ := none
  toFilePath _ := none
  fromFilePath _ := none
  text _ := ""

/-- A frame of an editor with a method, and an identifier if it asks. -/
def sent (request : Option Value) (method : String) : Value :=
  .object (request.toList.map (fun x => ("id", x)) ++ [("method", .string method)])

/-- An editor introduces itself and asks before there is a server, cancels and asks again; the
server answers, and its lifetime ends. -/
def conversation : List Event :=
  [.attach 1 10 none 0, .clientFrame 1 (sent (some (.int 1)) "initialize"),
    .clientFrame 1 (sent (some (.int 2)) "textDocument/hover"),
    .clientFrame 1 (.object [("method", .string "$/cancelRequest"),
      ("params", .object [("id", .int 2)])]),
    .clientFrame 1 (sent (some (.int 2)) "textDocument/hover"), .lifetimeStarted (.object []),
    .serverReply 1 (.int 2) (.object [("result", .null)]), .lifetimeEnded .idle]

/-- A shutdown without an identifier is a notification, and is answered. -/
def bareShutdown : List Event :=
  [.attach 1 10 none 0, .clientFrame 1 (sent none "shutdown")]

/-- An introduction without an identifier waits for a server like a request, and is answered. -/
def bareInitialize : List Event :=
  [.attach 1 10 none 0, .clientFrame 1 (sent none "initialize"), .lifetimeStarted (.object [])]

end Rimz.Lsp
