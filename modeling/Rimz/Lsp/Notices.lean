import Rimz.Lsp.Effects

/-!
# What editors are told unasked

A frame without a method that carries an identifier is a response. Everything the router sends on
the server's behalf (diagnostics, progress, status) and everything it sends on its own names a
method: no part of the router that deals with documents or with messages of the server answers a
request.
-/

namespace Rimz.Lsp
open Rimz.Lib Std

/-- The identifier an action answers to an editor. -/
def responseTo (id : ClientId) : Action → Option Value
  | .toClient j frame => if j = id ∧ method? frame = none then frame.get? "id" else none
  | _ => none

/-- An action that answers nobody. -/
def NoAnswer (a : Action) : Prop :=
  ∀ id, responseTo id a = none

lemma noAnswer_of_method {id frame} (h : (method? frame).isSome) :
    NoAnswer (.toClient id frame) := by
  intro i
  have hm : method? frame ≠ none := Option.isSome_iff_ne_none.mp h
  simp [responseTo, hm]

/-- The frames the router keeps to send them later name their methods. -/
structure Polite (c : Clients) : Prop where
  status : ∀ frame, c.status = some frame → (method? frame).isSome
  progress : ∀ p ∈ c.progress, ∀ frame, p.start = some frame ∨ p.report = some frame →
    (method? frame).isSome
  snapshots : ∀ (key : DocumentKey) (s : Snapshot), c.snapshots[key]? = some s →
    (method? s.frame).isSome

/-- The editors are as they were, and what is kept names its methods. -/
def Unasked (c c' : Clients) : Prop :=
  c'.clients = c.clients ∧ Polite c'

lemma isSome_method?_modify {frame k f} (hk : k ≠ "method") (h : (method? frame).isSome) :
    (method? (frame.modify k f)).isSome := by
  obtain ⟨m, hm⟩ := isSome_iff_exists.mp h
  rw [method?_modify hk hm]
  rfl

lemma Polite.erase {c c'} (h : Polite c) (hs : c'.status = c.status) (hp : c'.progress = c.progress)
    {key} (hn : c'.snapshots = c.snapshots.erase key) : Polite c' := by
  refine ⟨hs ▸ h.status, hp ▸ h.progress, fun k s hk => ?_⟩
  rw [hn, get_erase] at hk
  split at hk
  · cases hk
  · exact h.snapshots k s hk

lemma Polite.clear {c c'} (h : Polite c) (hs : c'.status = c.status)
    (hp : ∀ p ∈ c'.progress, p ∈ c.progress) (hn : c'.snapshots = ∅) : Polite c' := by
  refine ⟨hs ▸ h.status, fun p hm => h.progress p (hp p hm), fun k s hk => ?_⟩
  rw [hn] at hk
  simp at hk

lemma Polite.congr {c c'} (h : Polite c) (hs : c'.status = c.status) (hp : c'.progress = c.progress)
    (hn : c'.snapshots = c.snapshots) : Polite c' :=
  ⟨hs ▸ h.status, hp ▸ h.progress, hn ▸ h.snapshots⟩

namespace Clients
variable {u : UrlCrate} {c : Clients} {id : ClientId} {key : DocumentKey}

lemma closeStale_unasked (h : Polite c) : Emits (Unasked c) NoAnswer (c.closeStale key) := by
  unfold closeStale
  split
  · split
    · exact .one ⟨rfl, h.erase rfl rfl rfl⟩ fun _ => rfl
    · exact .nil ⟨rfl, h⟩
  · exact .nil ⟨rfl, h⟩

lemma showOwner_unasked (h : Polite c) : Emits (Unasked c) NoAnswer (c.showOwner key) := by
  unfold showOwner
  split
  · exact .nil ⟨rfl, h⟩
  split
  · split
    · exact .one ⟨rfl, h.congr rfl rfl rfl⟩ fun _ => rfl
    · exact .nil ⟨rfl, h⟩
  · exact .one ⟨rfl, h.congr rfl rfl rfl⟩ fun _ => rfl

lemma sync_unasked (h : Polite c) : Emits (Unasked c) NoAnswer (c.sync key) := by
  unfold sync
  split
  · exact .nil ⟨rfl, h⟩
  · apply (closeStale_unasked h).andThen
    intro c' hc
    exact (showOwner_unasked hc.2).imp fun _ hs => ⟨hs.1.trans hc.1, hs.2⟩

lemma sync_unasked_of {c'} (hc : c'.clients = c.clients) (h : Polite c') :
    Emits (Unasked c) NoAnswer (c'.sync key) :=
  (sync_unasked h).imp fun _ hs => ⟨hs.1.trans hc, hs.2⟩

lemma deliver_unasked (h : Polite c) {snapshot} (hs : (method? snapshot.frame).isSome) :
    Emits (Unasked c) NoAnswer (c.deliver id key snapshot) := by
  unfold deliver
  split
  · split
    · split
      · exact .nil ⟨rfl, h⟩
      refine .one ⟨rfl, h.congr rfl rfl rfl⟩ (noAnswer_of_method ?_)
      split
      · exact isSome_method?_modify (by decide) (isSome_method?_modify (by decide) hs)
      · exact isSome_method?_modify (by decide) hs
    · exact .one ⟨rfl, h⟩ (noAnswer_of_method (isSome_method?_modify (by decide) hs))
  · exact .nil ⟨rfl, h⟩

lemma replay_unasked (h : Polite c) : Emits (Unasked c) NoAnswer (c.replay id key) := by
  unfold replay
  split
  · rename_i snapshot hs
    split
    · exact deliver_unasked h (h.snapshots key snapshot hs)
    · exact .nil ⟨rfl, h⟩
  · exact .nil ⟨rfl, h⟩

lemma release_unasked (h : Polite c) : Emits (Unasked c) NoAnswer (c.release id key) := by
  apply sync_unasked_of
  · rfl
  · exact h.congr rfl rfl rfl

/-- A document notification answers nobody. -/
lemma document_unasked (h : Polite c) {method frame} :
    Emits (Unasked c) NoAnswer (c.document u id method frame) := by
  unfold document
  dsimp only
  split
  · exact .nil ⟨rfl, h⟩
  split
  · split
    · unfold didOpen
      dsimp only
      split
      · exact .nil ⟨rfl, h⟩
      apply Emits.andThen (P := Unasked c)
      · apply Emits.andThen (P := Unasked c)
        · apply sync_unasked_of
          · rfl
          · exact h.congr rfl rfl rfl
        · intro c' hc
          exact (replay_unasked hc.2).imp fun _ hs => ⟨hs.1.trans hc.1, hs.2⟩
      · intro c' hc
        exact .one hc fun _ => rfl
    · exact .nil ⟨rfl, h⟩
  split
  · exact .nil ⟨rfl, h⟩
  split
  · split
    · unfold didClose
      apply Emits.andThen (P := Unasked c)
      · apply sync_unasked_of
        · rfl
        · exact h.congr rfl rfl rfl
      · intro c' hc
        exact .one ⟨hc.1, hc.2.congr rfl rfl rfl⟩ fun _ => rfl
    · split
      · unfold didChange
        apply Emits.andThen (P := Unasked c)
        · apply Emits.andThen (P := Unasked c)
          · refine ⟨⟨rfl, ?_⟩, fun a ha => ?_⟩
            · split
              · exact h.erase rfl rfl rfl
              · exact h.congr rfl rfl rfl
            · dsimp only at ha
              split at ha
              · obtain rfl := mem_singleton.mp ha
                exact noAnswer_of_method rfl
              · exact absurd ha not_mem_nil
          · intro c' hc
            exact sync_unasked_of hc.1 hc.2
        · intro c' hc
          split
          · exact .nil hc
          · exact .one hc fun _ => rfl
      · exact .nil ⟨rfl, h⟩
    · unfold didSave
      apply Emits.andThen (P := Unasked c)
      · split
        · exact .one ⟨rfl, h.congr rfl rfl rfl⟩ fun _ => rfl
        · exact .nil ⟨rfl, h⟩
      · intro c' hc
        unfold forwardSave
        split
        · split
          · exact .one hc fun _ => rfl
          · exact .nil hc
        · exact .nil hc
    · exact .nil ⟨rfl, h⟩
  · exact .nil ⟨rfl, h⟩

lemma detach_unasked (h : Polite c) : Emits Polite NoAnswer (c.detach id) := by
  unfold detach
  split
  · exact .nil h
  apply Emits.andThen (P := Polite)
  · refine .emitAll (h.congr rfl rfl rfl) fun c' key _ hp => ?_
    exact (release_unasked hp).imp fun _ => And.right
  · intro c' hc
    exact .one (hc.congr rfl rfl rfl) fun _ => rfl

lemma fanOut_unasked {c' frame} (hc : c'.clients = c.clients) (h : Polite c')
    (hm : (method? frame).isSome) : Emits (Unasked c) NoAnswer (c'.fanOut frame) := by
  refine ⟨⟨hc, h⟩, fun a ha => ?_⟩
  obtain ⟨id, -, rfl⟩ := mem_map.mp ha
  exact noAnswer_of_method hm

lemma diagnostics_unasked (h : Polite c) {frame} (hm : (method? frame).isSome) :
    Emits (Unasked c) NoAnswer (c.diagnostics u frame) := by
  have params : ∀ f, (method? (frame.modify "params" f)).isSome := fun _ =>
    isSome_method?_modify (by decide) hm
  unfold diagnostics
  dsimp only
  split
  · exact .nil ⟨rfl, h⟩
  split
  · refine ⟨⟨rfl, h.erase rfl rfl rfl⟩, fun a ha => ?_⟩
    obtain ⟨id, -, rfl⟩ := mem_map.mp ha
    apply noAnswer_of_method
    unfold clearFor
    split <;> split
    · exact isSome_method?_modify (by decide) (params _)
    · exact params _
    · exact params _
    · exact hm
  split
  · refine ⟨⟨rfl, h⟩, fun a ha => ?_⟩
    obtain ⟨id, -, rfl⟩ := mem_map.mp ha
    exact noAnswer_of_method (params _)
  split
  · split
    · exact .one ⟨rfl, h⟩ (noAnswer_of_method (params _))
    · exact .nil ⟨rfl, h⟩
  refine .emitAll ⟨rfl, h.status, h.progress, fun k s hk => ?_⟩ ?_
  · rw [get_insert] at hk
    split at hk
    · cases hk
      exact hm
    · exact h.snapshots k s hk
  · intro c' id _ hc
    exact (deliver_unasked hc.2 hm).imp fun _ hs => ⟨hs.1.trans hc.1, hs.2⟩

lemma mem_editFirst {p f l a} (h : a ∈ noteProgress.editFirst p f l) : a ∈ l ∨ ∃ b ∈ l, a = f b := by
  induction l with
  | nil => exact absurd h not_mem_nil
  | cons b l ih =>
    unfold noteProgress.editFirst at h
    split at h
    · rcases mem_cons.mp h with rfl | h
      · exact .inr ⟨b, mem_cons_self, rfl⟩
      · exact .inl (mem_cons_of_mem _ h)
    rcases mem_cons.mp h with rfl | h
    · exact .inl mem_cons_self
    · rcases ih h with h | ⟨b', hb, e⟩
      · exact .inl (mem_cons_of_mem _ h)
      · exact .inr ⟨b', mem_cons_of_mem _ hb, e⟩

lemma noteProgress_unasked (h : Polite c) {frame} (hm : (method? frame).isSome) :
    Unasked c (c.noteProgress frame) := by
  unfold noteProgress
  dsimp only
  split
  · refine ⟨rfl, h.status, fun p hp f hf => ?_, h.snapshots⟩
    split_ifs at hp
    · rcases mem_editFirst hp with hp | ⟨q, hq, rfl⟩
      · exact h.progress p hp f hf
      rcases hf with hf | hf
      · cases hf
        exact hm
      · exact h.progress q hq f (.inr hf)
    · rcases mem_editFirst hp with hp | ⟨q, hq, rfl⟩
      · exact h.progress p hp f hf
      rcases hf with hf | hf
      · exact h.progress q hq f (.inl hf)
      · cases hf
        exact hm
    · exact h.progress p (List.mem_of_mem_eraseP hp) f hf
    · exact h.progress p hp f hf
  · exact ⟨rfl, h⟩

lemma createProgress_unasked (h : Polite c) {frame} : Unasked c (c.createProgress frame) := by
  unfold createProgress
  dsimp only
  split
  · exact ⟨rfl, h⟩
  refine ⟨rfl, h.status, fun p hp f hf => ?_, h.snapshots⟩
  rcases mem_append.mp hp with hp | hp
  · exact h.progress p hp f hf
  · obtain rfl := mem_singleton.mp hp
    rcases hf with hf | hf <;> cases hf

/-- What the server says unasked is no answer to any editor's request. -/
lemma serverMessage_unasked (h : Polite c) {frame} :
    Emits (Unasked c) NoAnswer (c.serverMessage u frame) := by
  unfold serverMessage
  split
  · exact .nil ⟨rfl, h⟩
  rename_i method hmethod
  have hm : (method? frame).isSome := by simp [hmethod]
  have hid : ∀ w, (method? (frame.set "id" w)).isSome := fun w => by
    rw [method?_set (by decide) hmethod]
    rfl
  split_ifs
  · exact diagnostics_unasked h hm
  · refine fanOut_unasked rfl ⟨fun f hf => ?_, h.progress, h.snapshots⟩ hm
    cases hf
    exact hm
  · exact fanOut_unasked (noteProgress_unasked h hm).1 (noteProgress_unasked h hm).2 hm
  · exact fanOut_unasked rfl h hm
  · have hc : Unasked c (c.createProgress frame) := createProgress_unasked h
    exact fanOut_unasked hc.1 (hc.2.congr rfl rfl rfl) (hid _)
  · exact fanOut_unasked rfl (h.congr rfl rfl rfl) (hid _)
  · exact .nil ⟨rfl, h⟩

lemma tellProgress_unasked (h : Polite c) {progress}
    (hp : ∀ frame, progress.start = some frame ∨ progress.report = some frame → (method? frame).isSome) :
    Emits (Unasked c) NoAnswer (tellProgress id c progress) := by
  refine ⟨⟨rfl, h.congr rfl rfl rfl⟩, fun a ha => ?_⟩
  rcases mem_cons.mp ha with rfl | ha
  · exact noAnswer_of_method rfl
  obtain ⟨frame, hf, rfl⟩ := mem_map.mp ha
  apply noAnswer_of_method
  rcases mem_append.mp hf with hf | hf
  · exact hp frame (.inl (by simpa using hf))
  · exact hp frame (.inr (by simpa using hf))

/-- An editor that becomes ready is told things, and answered nothing. -/
lemma becomeReady_unasked (h : Polite c) {client} :
    Emits (fun c' => Polite c' ∧ (c'.clients = c.clients
      ∨ c'.clients = c.clients.insert id { client with ready := true })) NoAnswer
      (c.becomeReady id client) := by
  unfold becomeReady
  split
  · exact .nil ⟨h, .inl rfl⟩
  have told : Emits (fun c' => Polite c'
      ∧ c'.clients = c.clients.insert id { client with ready := true }) NoAnswer
      (andThen ({ c with clients := c.clients.insert id { client with ready := true } },
        c.status.toList.map (.toClient id)) fun c => emitAll (tellProgress id) c c.progress) := by
    apply Emits.andThen (P := fun c' => c' =
      { c with clients := c.clients.insert id { client with ready := true } })
    · refine ⟨rfl, fun a ha => ?_⟩
      obtain ⟨frame, hf, rfl⟩ := mem_map.mp ha
      exact noAnswer_of_method (h.status frame (by simpa using hf))
    · rintro c' rfl
      refine .emitAll ⟨h.congr rfl rfl rfl, rfl⟩ fun c' p hp hc => ?_
      exact (tellProgress_unasked hc.1 (h.progress p hp)).imp fun _ ht => ⟨ht.2, ht.1.trans hc.2⟩
  apply told.andThen
  intro c' hc
  refine .emitAll ⟨hc.1, .inr hc.2⟩ fun c'' key _ hc' => ?_
  refine (replay_unasked hc'.1).imp fun _ hr => ⟨hr.2, ?_⟩
  rw [hr.1]
  exact hc'.2

end Clients

end Rimz.Lsp
